import Mathlib.Data.List.TakeWhile
import Mathlib.Data.Nat.Digits.Lemmas
import Mathlib.Tactic
import Anticheat.Foundation.CText

/-!
# Python strings

A string is the list of its code points, which may be surrogates.  The operations are
those of the types {lit}`str` and {lit}`int` that a small HTTP server needs.

Main results:

- Theorem {lit}`PyStr.int_digits`: a number written in decimal is read back.
- Theorem {lit}`PyStr.afterLast_append`: what comes before the last separator has no
  influence on the last part.
-/

namespace Foundation

/-- The code points of a string. -/
abbrev PyStr := List Nat

namespace PyStr

def ofString (s : String) : PyStr :=
  s.toList.map Char.toNat

/-- Bytes decoded as ISO-8859-1. -/
def latin1 (bytes : List UInt8) : PyStr :=
  bytes.map UInt8.toNat

/-- `s.isascii()` -/
def isAscii (s : PyStr) : Bool :=
  s.all (· < 128)

/-- The characters that `str.strip` takes off. -/
def isSpace (c : Nat) : Bool :=
  (9 ≤ c && c ≤ 13) || (28 ≤ c && c ≤ 32) || c == 0x85 || c == 0xA0 || c == 0x1680 ||
    (0x2000 ≤ c && c ≤ 0x200A) || c == 0x2028 || c == 0x2029 || c == 0x202F || c == 0x205F ||
    c == 0x3000

def strip (s : PyStr) : PyStr :=
  ((s.dropWhile isSpace).reverse.dropWhile isSpace).reverse

/-- `s.lower()` for the ASCII letters -/
def lower (s : PyStr) : PyStr :=
  s.map fun c => if 65 ≤ c ∧ c ≤ 90 then c + 32 else c

/-- `s.rsplit(sep, 1)[-1]` for a separator of one character -/
def afterLast (sep : Nat) (s : PyStr) : PyStr :=
  (s.reverse.takeWhile fun c => c != sep).reverse

/-- `sep.join(parts)` -/
def join (sep : PyStr) (parts : List PyStr) : PyStr :=
  sep.intercalate parts

def isDigit (c : Nat) : Bool :=
  48 ≤ c && c ≤ 57

/-- The digits of a decimal literal, in which single underscores may stand between two
digits. -/
def literalDigits : Bool → PyStr → Option PyStr
  | afterDigit, [] => if afterDigit then some [] else none
  | afterDigit, c :: s =>
      if isDigit c then (literalDigits true s).map (c :: ·)
      else if c = 95 ∧ afterDigit then literalDigits false s
      else none

/-- The most digits that a conversion to `int` reads. -/
def maxStrDigits : Nat := 4300

/-- The number that decimal digits denote, unless there are too many of them. -/
def digitsValue (digits : PyStr) : Option Nat :=
  if digits.length ≤ maxStrDigits then
    some (digits.foldl (fun n c => 10 * n + (c - 48)) 0)
  else none

/-- An optional sign. -/
def splitSign : PyStr → Bool × PyStr
  | [] => (false, [])
  | c :: s => if c = 45 then (true, s) else if c = 43 then (false, s) else (false, c :: s)

def signed (negative : Bool) (n : Nat) : Int :=
  if negative then -n else n

/-- The characters that `int` passes over around a number: those of `str.strip` without the
separators U+001C to U+001F. -/
def isNumberSpace (c : Nat) : Bool :=
  isSpace c && !(28 ≤ c && c ≤ 31)

def stripNumber (s : PyStr) : PyStr :=
  ((s.dropWhile isNumberSpace).reverse.dropWhile isNumberSpace).reverse

/-- `int(s)`; no result is a `ValueError` -/
def int (s : PyStr) : Option Int :=
  let (negative, s) := splitSign (stripNumber s)
  match literalDigits false s with
  | none => none
  | some digits => (digitsValue digits).map (signed negative)

/-! ## The last part of a joined text -/

theorem afterLast_of_not_mem {sep : Nat} {t : PyStr} (h : sep ∉ t) : afterLast sep t = t := by
  rw [afterLast, List.takeWhile_eq_self_iff.2, List.reverse_reverse]
  intro c hc
  have hne : c ≠ sep := fun heq => h (heq ▸ List.mem_reverse.1 hc)
  simpa using hne

theorem afterLast_append {sep : Nat} {t : PyStr} (h : sep ∉ t) (s : PyStr) :
    afterLast sep (s ++ sep :: t) = t := by
  have hrest : ∀ c ∈ t.reverse, (c != sep) = true := by
    intro c hc
    have hne : c ≠ sep := fun heq => h (heq ▸ List.mem_reverse.1 hc)
    simpa using hne
  rw [afterLast, List.reverse_append, List.reverse_cons, List.append_assoc,
    List.takeWhile_append_of_pos hrest]
  simp

/-- Joined parts end with the last one, which stands alone or after a separator. -/
theorem join_concat (sep : Nat) (parts : List PyStr) (t : PyStr) :
    join [sep] (parts ++ [t]) = t ∨ ∃ s, join [sep] (parts ++ [t]) = s ++ sep :: t := by
  induction parts with
  | nil => exact Or.inl (by simp [join, List.intercalate])
  | cons part parts ih =>
      right
      have hcons : join [sep] (part :: parts ++ [t]) =
          part ++ sep :: join [sep] (parts ++ [t]) := by
        cases parts with
        | nil => simp [join, List.intercalate]
        | cons _ _ => simp [join, List.intercalate]
      rcases ih with ih | ⟨s, ih⟩
      · exact ⟨part, by rw [hcons, ih]⟩
      · exact ⟨part ++ sep :: s, by rw [hcons, ih]; simp⟩

/-- White space around a text is stripped with what the text has itself. -/
theorem strip_pad {pre post : PyStr} (hpre : ∀ c ∈ pre, isSpace c = true)
    (hpost : ∀ c ∈ post, isSpace c = true) (s : PyStr) : strip (pre ++ s ++ post) = strip s := by
  have hpost' : ∀ c ∈ post.reverse, isSpace c = true := fun c hc => hpost c (List.mem_reverse.1 hc)
  rw [strip, strip, List.append_assoc, List.dropWhile_append_of_pos hpre, List.dropWhile_append]
  split
  · rename_i hempty
    rw [List.dropWhile_eq_nil_iff.2 hpost, List.isEmpty_iff.1 hempty]
  · rw [List.reverse_append, List.dropWhile_append_of_pos hpost']

theorem strip_subset (s : PyStr) : strip s ⊆ s := by
  intro c hc
  have hreverse := List.mem_reverse.1 hc
  have hleft := List.mem_reverse.1 ((List.dropWhile_suffix _).subset hreverse)
  exact (List.dropWhile_suffix _).subset hleft

theorem afterLast_subset (sep : Nat) (s : PyStr) : afterLast sep s ⊆ s := by
  intro c hc
  exact List.mem_reverse.1 ((List.takeWhile_prefix _).subset (List.mem_reverse.1 hc))

/-- The characters of joined parts are the separator and those of the parts. -/
theorem mem_join {sep c : Nat} {parts : List PyStr} (h : c ∈ join [sep] parts) :
    c = sep ∨ ∃ part ∈ parts, c ∈ part := by
  induction parts with
  | nil => simp [join, List.intercalate] at h
  | cons part parts ih =>
      cases parts with
      | nil => exact Or.inr ⟨part, by simp, by simpa [join, List.intercalate] using h⟩
      | cons next parts =>
          have hcons : join [sep] (part :: next :: parts) =
              part ++ sep :: join [sep] (next :: parts) := by
            simp [join, List.intercalate]
          rw [hcons, List.mem_append, List.mem_cons] at h
          rcases h with h | h | h
          · exact Or.inr ⟨part, by simp, h⟩
          · exact Or.inl h
          · rcases ih h with h | ⟨part', hpart', h⟩
            · exact Or.inl h
            · exact Or.inr ⟨part', List.mem_cons_of_mem _ hpart', h⟩

/-! ## Decimal numbers -/

/-- The digits of a number, as `str` and `%d` write them. -/
def digits (n : Nat) : PyStr :=
  latin1 (CStr.digits 10 n)

theorem toNat_digit {d : Nat} (h : d < 10) : (CStr.digit d).toNat = 48 + d := by
  interval_cases d <;> rfl

theorem digits_eq {n : Nat} (hn : n ≠ 0) :
    digits n = (Nat.digits 10 n).reverse.map fun d => 48 + d := by
  rw [digits, latin1, CStr.digits, if_neg hn, List.map_map]
  refine List.map_congr_left ?_
  intro d hd
  exact toNat_digit (Nat.digits_lt_base (by decide) (List.mem_reverse.1 hd))

theorem isDigit_of_mem_digits {n c : Nat} (h : c ∈ digits n) : isDigit c = true := by
  by_cases hn : n = 0
  · subst hn
    rw [List.mem_singleton.1 (show c ∈ [48] from h)]
    rfl
  · rw [digits_eq hn, List.mem_map] at h
    rcases h with ⟨d, hd, rfl⟩
    have hlt : d < 10 := Nat.digits_lt_base (by decide) (List.mem_reverse.1 hd)
    simp only [isDigit, Bool.and_eq_true, decide_eq_true_eq]
    omega

theorem digits_ne_nil (n : Nat) : digits n ≠ [] := by
  by_cases hn : n = 0
  · subst hn
    exact List.cons_ne_nil _ _
  · rw [digits_eq hn]
    simpa using (Nat.digits_ne_nil_iff_ne_zero (b := 10)).2 hn

/-- The digits of a number do not begin with a zero, unless they are only that. -/
theorem head_digits {n c : Nat} {s : PyStr} (h : digits n = c :: s) (hs : s ≠ []) : c ≠ 48 := by
  have hn : n ≠ 0 := by
    rintro rfl
    exact hs (List.cons.inj h).2.symm
  have hne : Nat.digits 10 n ≠ [] := Nat.digits_ne_nil_iff_ne_zero.2 hn
  rw [digits_eq hn] at h
  have hhead : ((Nat.digits 10 n).reverse.map fun d => 48 + d).head (by simpa using hne) = c := by
    simp only [h, List.head_cons]
  rw [List.head_map, List.head_reverse] at hhead
  have hlast := Nat.getLast_digit_ne_zero 10 hn
  omega

theorem foldl_digits (n : Nat) :
    (digits n).foldl (fun n c => 10 * n + (c - 48)) 0 = n := by
  by_cases hn : n = 0
  · subst hn
    rfl
  · rw [digits_eq hn, List.foldl_map, List.foldl_reverse]
    have hsub : ∀ d m : Nat, 10 * m + (48 + d - 48) = d + 10 * m := by
      intro d m
      omega
    simp only [hsub]
    exact (Nat.ofDigits_eq_foldr 10 _).symm.trans (Nat.ofDigits_digits 10 n)

theorem digitsValue_digits {n : Nat} (h : (digits n).length ≤ maxStrDigits) :
    digitsValue (digits n) = some n := by
  rw [digitsValue, if_pos h, foldl_digits]

theorem length_digits_le {n k : Nat} (hk : k ≠ 0) (h : n < 10 ^ k) : (digits n).length ≤ k := by
  by_cases hn : n = 0
  · subst hn
    exact Nat.one_le_iff_ne_zero.2 hk
  · rw [digits_eq hn, List.length_map, List.length_reverse]
    exact (Nat.digits_length_le_iff (by decide) n).2 h

theorem literalDigits_digits {s : PyStr} (h : ∀ c ∈ s, isDigit c = true) (b : Bool)
    (hs : s ≠ [] ∨ b = true) : literalDigits b s = some s := by
  induction s generalizing b with
  | nil =>
      have hb : b = true := hs.resolve_left fun h => h rfl
      rw [literalDigits, hb]
      rfl
  | cons c s ih =>
      rw [literalDigits, if_pos (h c List.mem_cons_self),
        ih (fun c' hc' => h c' (List.mem_cons_of_mem _ hc')) true (Or.inr rfl)]
      rfl

theorem isNumberSpace_of_isDigit {c : Nat} (h : isDigit c = true) : isNumberSpace c = false := by
  simp only [isDigit, Bool.and_eq_true, decide_eq_true_eq] at h
  obtain ⟨h48, h57⟩ := h
  interval_cases c <;> rfl

theorem stripNumber_digits {s : PyStr} (h : ∀ c ∈ s, isDigit c = true) : stripNumber s = s := by
  have hdrop : ∀ t : PyStr, (∀ c ∈ t, isDigit c = true) → t.dropWhile isNumberSpace = t := by
    intro t ht
    cases t with
    | nil => rfl
    | cons c t =>
        have hc := isNumberSpace_of_isDigit (ht c List.mem_cons_self)
        exact List.dropWhile_cons_of_neg (by simp [hc])
  rw [stripNumber, hdrop s h, hdrop s.reverse fun c hc => h c (List.mem_reverse.1 hc),
    List.reverse_reverse]

theorem splitSign_digits {s : PyStr} (h : ∀ c ∈ s, isDigit c = true) :
    splitSign s = (false, s) := by
  cases s with
  | nil => rfl
  | cons c s =>
      have hc := h c List.mem_cons_self
      simp only [isDigit, Bool.and_eq_true, decide_eq_true_eq] at hc
      rw [splitSign, if_neg (by omega), if_neg (by omega)]

/-- A number written in decimal is read back. -/
theorem int_digits {n : Nat} (h : (digits n).length ≤ maxStrDigits) :
    int (digits n) = some (n : Int) := by
  have hdigits : ∀ c ∈ digits n, isDigit c = true := fun c hc => isDigit_of_mem_digits hc
  rw [int, stripNumber_digits hdigits, splitSign_digits hdigits]
  dsimp only
  rw [literalDigits_digits hdigits false (Or.inl (digits_ne_nil n))]
  dsimp only
  rw [digitsValue_digits h]
  rfl

end PyStr
end Foundation
