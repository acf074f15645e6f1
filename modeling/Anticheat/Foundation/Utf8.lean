import Mathlib.Tactic

/-!
# UTF-8 with replacement

A decoder of UTF-8 that never fails.  Each longest piece that could have been the
beginning of a character, but is cut off by a byte that does not continue it or by the
end of the text, becomes one replacement character; so does each byte that cannot begin
a character.

Code points are natural numbers.

Main results:

- Theorem {lit}`decodeFrom_ascii`: an ASCII byte ends whatever was before it, and stands
  for itself.
- Theorem {lit}`isScalar_of_mem_decode`: the decoded text has no surrogate.
- Theorem {lit}`length_decode_le`: it is not longer than its bytes.
-/

namespace Foundation
namespace Utf8

/-- U+FFFD -/
def replacement : Nat := 0xFFFD

/-- A decoder is between two characters, or has read the beginning of one. -/
inductive State where
  | start
  /-- the bits read so far, the number of bytes to come, and the range of the next -/
  | pending (acc need : Nat) (lo hi : UInt8)
deriving DecidableEq, Repr

/-- What a byte does between two characters: the code points it completes, and the state
after it. -/
def lead (b : UInt8) : List Nat × State :=
  if b < 0x80 then ([b.toNat], .start)
  else if b < 0xC2 then ([replacement], .start)
  else if b < 0xE0 then ([], .pending (b.toNat - 0xC0) 1 0x80 0xBF)
  else if b = 0xE0 then ([], .pending 0 2 0xA0 0xBF)
  else if b = 0xED then ([], .pending 0xD 2 0x80 0x9F)
  else if b < 0xF0 then ([], .pending (b.toNat - 0xE0) 2 0x80 0xBF)
  else if b = 0xF0 then ([], .pending 0 3 0x90 0xBF)
  else if b < 0xF4 then ([], .pending (b.toNat - 0xF0) 3 0x80 0xBF)
  else if b = 0xF4 then ([], .pending 4 3 0x80 0x8F)
  else ([replacement], .start)

def step : State → UInt8 → List Nat × State
  | .start, b => lead b
  | .pending acc need lo hi, b =>
      if lo ≤ b ∧ b ≤ hi then
        if need ≤ 1 then ([acc * 64 + (b.toNat - 0x80)], .start)
        else ([], .pending (acc * 64 + (b.toNat - 0x80)) (need - 1) 0x80 0xBF)
      else (replacement :: (lead b).1, (lead b).2)

/-- What the end of the text does. -/
def flush : State → List Nat
  | .start => []
  | .pending .. => [replacement]

def decodeFrom : State → List UInt8 → List Nat
  | st, [] => flush st
  | st, b :: bytes => (step st b).1 ++ decodeFrom (step st b).2 bytes

/-- `bytes.decode("utf-8", errors="replace")` -/
def decode (bytes : List UInt8) : List Nat :=
  decodeFrom .start bytes

/-! ## What one byte does -/

/-- A code point that is not a surrogate. -/
def IsScalar (c : Nat) : Prop :=
  c < 0xD800 ∨ (0xE000 ≤ c ∧ c < 0x110000)

/-- The code points from `first` on and below `last` are scalar values beyond ASCII. -/
def ScalarRange (first last : Nat) : Prop :=
  0x80 ≤ first ∧ (last ≤ 0xD800 ∨ (0xE000 ≤ first ∧ last ≤ 0x110000))

/-- The bytes that continue a character lie beyond ASCII, and every code point that it can
still become is a scalar value beyond ASCII. -/
def State.Ok : State → Prop
  | .start => True
  | .pending acc need lo hi =>
      0x80 ≤ lo ∧ 1 ≤ need ∧
        ScalarRange ((acc * 64 + (lo.toNat - 0x80)) * 64 ^ (need - 1))
          ((acc * 64 + (hi.toNat - 0x80) + 1) * 64 ^ (need - 1))

theorem ScalarRange.mono {first first' last last' : Nat} (h : ScalarRange first last)
    (hfirst : first ≤ first') (hlast : last' ≤ last) : ScalarRange first' last' := by
  unfold ScalarRange at *
  omega

theorem isScalar_replacement : IsScalar replacement := by
  unfold IsScalar replacement
  omega

/-- A byte between two characters is ASCII, begins a character, or is replaced. -/
theorem lead_cases (b : UInt8) :
    (b < 0x80 ∧ lead b = ([b.toNat], .start)) ∨ (0x80 ≤ b ∧ lead b = ([replacement], .start)) ∨
      (0x80 ≤ b ∧ ∃ acc need lo hi, lead b = ([], .pending acc need lo hi) ∧
        (State.pending acc need lo hi).Ok) := by
  by_cases h0 : b < 0x80
  · exact Or.inl ⟨h0, if_pos h0⟩
  have hb : 0x80 ≤ b := UInt8.not_lt.1 h0
  rw [lead, if_neg h0]
  by_cases h1 : b < 0xC2
  · exact Or.inr (Or.inl ⟨hb, if_pos h1⟩)
  rw [if_neg h1]
  by_cases h2 : b < 0xE0
  · refine Or.inr (Or.inr ⟨hb, _, _, _, _, if_pos h2, by decide, by decide, ?_⟩)
    simp only [UInt8.lt_iff_toNat_lt, UInt8.reduceToNat] at h1 h2
    simp only [ScalarRange, UInt8.reduceToNat, Nat.reduceSub, Nat.reducePow]
    omega
  rw [if_neg h2]
  by_cases h3 : b = 0xE0
  · refine Or.inr (Or.inr ⟨hb, _, _, _, _, if_pos h3, by decide, by decide, ?_⟩)
    simp only [ScalarRange]
    decide
  rw [if_neg h3]
  by_cases h4 : b = 0xED
  · refine Or.inr (Or.inr ⟨hb, _, _, _, _, if_pos h4, by decide, by decide, ?_⟩)
    simp only [ScalarRange]
    decide
  rw [if_neg h4]
  by_cases h5 : b < 0xF0
  · refine Or.inr (Or.inr ⟨hb, _, _, _, _, if_pos h5, by decide, by decide, ?_⟩)
    simp only [UInt8.lt_iff_toNat_lt, UInt8.reduceToNat, ← UInt8.toNat_inj] at h2 h3 h4 h5
    simp only [ScalarRange, UInt8.reduceToNat, Nat.reduceSub, Nat.reducePow]
    omega
  rw [if_neg h5]
  by_cases h6 : b = 0xF0
  · refine Or.inr (Or.inr ⟨hb, _, _, _, _, if_pos h6, by decide, by decide, ?_⟩)
    simp only [ScalarRange]
    decide
  rw [if_neg h6]
  by_cases h7 : b < 0xF4
  · refine Or.inr (Or.inr ⟨hb, _, _, _, _, if_pos h7, by decide, by decide, ?_⟩)
    simp only [UInt8.lt_iff_toNat_lt, UInt8.reduceToNat, ← UInt8.toNat_inj] at h5 h6 h7
    simp only [ScalarRange, UInt8.reduceToNat, Nat.reduceSub, Nat.reducePow]
    omega
  rw [if_neg h7]
  by_cases h8 : b = 0xF4
  · refine Or.inr (Or.inr ⟨hb, _, _, _, _, if_pos h8, by decide, by decide, ?_⟩)
    simp only [ScalarRange]
    decide
  exact Or.inr (Or.inl ⟨hb, if_neg h8⟩)

/-- A byte completes scalar values only, beyond ASCII unless it is ASCII itself, and
leaves a state that can be completed. -/
theorem step_ok {st : State} (hst : st.Ok) (b : UInt8) :
    (step st b).2.Ok ∧ ∀ c ∈ (step st b).1, (0x80 ≤ b → 0x80 ≤ c) ∧ IsScalar c := by
  have hlead : (lead b).2.Ok ∧ ∀ c ∈ (lead b).1, (0x80 ≤ b → 0x80 ≤ c) ∧ IsScalar c := by
    rcases lead_cases b with ⟨hb, heq⟩ | ⟨-, heq⟩ | ⟨-, acc, need, lo, hi, heq, hok⟩
    · rw [heq]
      refine ⟨trivial, ?_⟩
      intro c hc
      rw [List.mem_singleton.1 hc]
      refine ⟨fun hb' => absurd hb' (UInt8.not_le.2 hb), Or.inl ?_⟩
      have := b.toNat_lt
      omega
    · rw [heq]
      refine ⟨trivial, ?_⟩
      intro c hc
      rw [List.mem_singleton.1 hc]
      exact ⟨fun _ => by decide, isScalar_replacement⟩
    · rw [heq]
      exact ⟨hok, by simp⟩
  cases st with
  | start => exact hlead
  | pending acc need lo hi =>
      rcases hst with ⟨-, hneed, hvalues⟩
      by_cases hrange : lo ≤ b ∧ b ≤ hi
      · rw [step, if_pos hrange]
        rw [UInt8.le_iff_toNat_le, UInt8.le_iff_toNat_le] at hrange
        by_cases hlast : need ≤ 1
        · -- the last byte of a character
          have hone : need - 1 = 0 := by omega
          rw [if_pos hlast]
          refine ⟨trivial, ?_⟩
          intro c hc
          rw [List.mem_singleton] at hc
          simp only [ScalarRange, hone, pow_zero, mul_one] at hvalues
          unfold IsScalar
          omega
        · -- the values still possible are among those possible before
          rw [if_neg hlast]
          have hpow : 64 ^ (need - 1) = 64 * 64 ^ (need - 1 - 1) := by
            rw [← pow_succ']
            congr 1
            omega
          refine ⟨⟨by decide, by omega, hvalues.mono ?_ ?_⟩, by simp⟩
          · rw [hpow, ← mul_assoc]
            exact Nat.mul_le_mul_right _ (by simp; omega)
          · rw [hpow, ← mul_assoc]
            exact Nat.mul_le_mul_right _ (by simp; omega)
      · rw [step, if_neg hrange]
        refine ⟨hlead.1, ?_⟩
        intro c hc
        rcases List.mem_cons.1 hc with rfl | hc
        · exact ⟨fun _ => by decide, isScalar_replacement⟩
        · exact hlead.2 c hc

/-- A byte adds at most one code point to those that the end of the text would give. -/
theorem length_step_le (st : State) (b : UInt8) :
    (step st b).1.length + (flush (step st b).2).length ≤ (flush st).length + 1 := by
  have hlead : (lead b).1.length + (flush (lead b).2).length = 1 := by
    rcases lead_cases b with ⟨-, heq⟩ | ⟨-, heq⟩ | ⟨-, acc, need, lo, hi, heq, -⟩
    · rw [heq]
      rfl
    · rw [heq]
      rfl
    · rw [heq]
      rfl
  cases st with
  | start => exact hlead.le.trans (Nat.le_add_left _ _)
  | pending acc need lo hi =>
      have hpending : (flush (.pending acc need lo hi)).length = 1 := rfl
      rw [hpending, step]
      split
      · split <;> simp [flush]
      · rw [List.length_cons]
        dsimp only
        omega

/-! ## ASCII bytes -/

/-- An ASCII byte ends whatever was before it. -/
theorem step_ascii {st : State} (hst : st.Ok) {b : UInt8} (h : b < 0x80) :
    step st b = (flush st ++ [b.toNat], .start) := by
  have hlead : lead b = ([b.toNat], .start) := if_pos h
  cases st with
  | start => exact hlead
  | pending acc need lo hi =>
      have hlo : ¬(lo ≤ b ∧ b ≤ hi) := fun hb =>
        absurd (UInt8.le_trans hst.1 hb.1) (UInt8.not_le.2 h)
      rw [step, if_neg hlo, hlead]
      rfl

theorem decodeFrom_ascii {st : State} (hst : st.Ok) {b : UInt8} (h : b < 0x80)
    (bytes : List UInt8) :
    decodeFrom st (b :: bytes) = flush st ++ b.toNat :: decode bytes := by
  rw [decodeFrom, step_ascii hst h, List.append_assoc]
  rfl

/-- ASCII text decodes to itself. -/
theorem decode_ascii_append {text : List UInt8} (h : ∀ b ∈ text, b < 0x80)
    (bytes : List UInt8) : decode (text ++ bytes) = text.map UInt8.toNat ++ decode bytes := by
  induction text with
  | nil => rfl
  | cons b text ih =>
      rw [List.cons_append, decode,
        decodeFrom_ascii (show State.start.Ok from trivial) (h b List.mem_cons_self),
        ih fun b' hb' => h b' (List.mem_cons_of_mem _ hb')]
      rfl

/-! ## Decoded text -/

theorem isScalar_of_mem_decodeFrom {st : State} (hst : st.Ok) {bytes : List UInt8} :
    ∀ c ∈ decodeFrom st bytes, IsScalar c := by
  induction bytes generalizing st with
  | nil =>
      intro c hc
      cases st with
      | start => contradiction
      | pending acc need lo hi =>
          rw [List.mem_singleton.1 hc]
          exact isScalar_replacement
  | cons b bytes ih =>
      intro c hc
      rcases List.mem_append.1 hc with hc | hc
      · exact ((step_ok hst b).2 c hc).2
      · exact ih (step_ok hst b).1 c hc

theorem isScalar_of_mem_decode {bytes : List UInt8} : ∀ c ∈ decode bytes, IsScalar c :=
  isScalar_of_mem_decodeFrom (show State.start.Ok from trivial)

theorem length_decodeFrom_le (st : State) (bytes : List UInt8) :
    (decodeFrom st bytes).length ≤ bytes.length + (flush st).length := by
  induction bytes generalizing st with
  | nil => simp [decodeFrom]
  | cons b bytes ih =>
      have hrest := ih (step st b).2
      have hstep := length_step_le st b
      rw [decodeFrom, List.length_append, List.length_cons]
      omega

theorem length_decode_le (bytes : List UInt8) : (decode bytes).length ≤ bytes.length :=
  length_decodeFrom_le .start bytes

end Utf8
end Foundation
