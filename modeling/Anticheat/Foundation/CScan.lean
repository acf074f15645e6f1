import Anticheat.Foundation.CText
import Mathlib.Data.Nat.Digits.Lemmas
import Mathlib.Tactic

/-!
# Reading formatted text

The input side of C strings: `fgets`, and the `scanf` conversions for hexadecimal
numbers and for words.  A conversion returns what is left of the text after it;
the numbers themselves are not kept.

Main results:

- Theorem {lit}`CStr.scanHex_hex`: a number written with `%llx` in front of a space
  is read by `%llx`.
- Theorem {lit}`CStr.scanWord_word`: a word in front of a space is read by `%s`.
- Theorem {lit}`CStr.fgets_line`: a line that fits the buffer is read whole.
-/

namespace Foundation
namespace CStr

/-- `isspace` in the C locale. -/
def isSpace (c : UInt8) : Bool :=
  c == 32 || (9 ≤ c && c ≤ 13)

/-- `isxdigit` -/
def isHexDigit (c : UInt8) : Bool :=
  (48 ≤ c && c ≤ 57) || (97 ≤ c && c ≤ 102) || (65 ≤ c && c ≤ 70)

/-- A white-space directive. -/
def skipSpaces (s : CStr) : CStr :=
  s.dropWhile isSpace

/-- The optional sign of a number. -/
def skipSign : CStr → CStr
  | c :: s => if c == 43 || c == 45 then s else c :: s
  | [] => []

/-- The optional `0x` of a hexadecimal number. -/
def skipHexMark : CStr → CStr
  | c :: d :: s => if c == 48 && (d == 120 || d == 88) then s else c :: d :: s
  | s => s

/-- The conversion `%llx`: the text after the number, if there is one. -/
def scanHex (s : CStr) : Option CStr :=
  let s := skipHexMark (skipSign (skipSpaces s))
  if (s.takeWhile isHexDigit).isEmpty then none else some (s.dropWhile isHexDigit)

/-- The conversion `%s` with a width: the word and the text after it. -/
def scanWord (width : Nat) (s : CStr) : Option (CStr × CStr) :=
  let s := skipSpaces s
  let word := (s.takeWhile fun c => !isSpace c).take width
  if word.isEmpty then none else some (word, s.drop word.length)

/-- `fgets` into a buffer of `size` bytes, at the start of a file: the line up to
its newline or up to the end of the buffer, as a C string. -/
def fgets (size : Nat) (text : List UInt8) : Option CStr :=
  if text.isEmpty then none
  else
    let line := text.take ((text.takeWhile fun c => c != 10).length + 1)
    some ((line.take (size - 1)).takeWhile fun c => c != 0)

/-! ## Reading back what was written -/

theorem isHexDigit_digit {d : Nat} (h : d < 16) : isHexDigit (digit d) = true := by
  interval_cases d <;> decide

theorem hex_ne_nil (n : Nat) : hex n ≠ [] := by
  unfold hex digits
  split
  · simp
  · rename_i hn
    simpa [Nat.digits_eq_nil_iff_eq_zero] using hn

/-- A number in hexadecimal has only hexadecimal digits. -/
theorem isHexDigit_of_mem_hex {n : Nat} {c : UInt8} (h : c ∈ hex n) :
    isHexDigit c = true := by
  unfold hex digits at h
  split at h
  · rw [List.mem_singleton] at h
    rw [h]
    decide
  · rw [List.mem_map] at h
    rcases h with ⟨d, hd, rfl⟩
    exact isHexDigit_digit (Nat.digits_lt_base (by decide) (List.mem_reverse.mp hd))

theorem length_hex_le {n k : Nat} (hk : 0 < k) (hn : n < 16 ^ k) :
    (hex n).length ≤ k := by
  unfold hex digits
  split
  · simpa using Nat.succ_le_of_lt hk
  · rw [List.length_map, List.length_reverse]
    exact (Nat.digits_length_le_iff (by decide) n).mpr hn

theorem isHexDigit_not_isSpace {c : UInt8} (h : isHexDigit c = true) :
    isSpace c = false := by
  by_contra hspace
  simp only [isHexDigit, isSpace, UInt8.le_iff_toNat_le, Bool.or_eq_true, Bool.and_eq_true,
    decide_eq_true_eq, beq_iff_eq, ← UInt8.toNat_inj, Bool.not_eq_false, UInt8.reduceToNat]
    at h hspace
  omega

theorem skipSpaces_cons {c : UInt8} (h : isSpace c = false) (s : CStr) :
    skipSpaces (c :: s) = c :: s := by
  simp [skipSpaces, h]

theorem skipSign_cons {c : UInt8} (h : isHexDigit c = true) (s : CStr) :
    skipSign (c :: s) = c :: s := by
  have hplus : c ≠ 43 := by
    rintro rfl
    contradiction
  have hminus : c ≠ 45 := by
    rintro rfl
    contradiction
  simp [skipSign, hplus, hminus]

/-- The mark is not taken from digits that have no `x` after the first. -/
theorem skipHexMark_run {c : UInt8} {ds rest : CStr}
    (hds : ∀ d ∈ ds, isHexDigit d = true) :
    skipHexMark (c :: ds ++ 32 :: rest) = c :: ds ++ 32 :: rest := by
  cases ds with
  | nil => simp [skipHexMark]
  | cons d ds =>
      have hd := hds d List.mem_cons_self
      have hlower : d ≠ 120 := by
        rintro rfl
        contradiction
      have hupper : d ≠ 88 := by
        rintro rfl
        contradiction
      simp [skipHexMark, hlower, hupper]

/-- A run of hexadecimal digits in front of a space is one number. -/
theorem scanHex_run {ds rest : CStr} (hne : ds ≠ [])
    (hds : ∀ c ∈ ds, isHexDigit c = true) :
    scanHex (ds ++ 32 :: rest) = some (32 :: rest) := by
  have hstop : isHexDigit 32 = false := by decide
  cases ds with
  | nil => contradiction
  | cons c cs =>
      have hc := hds c List.mem_cons_self
      have hskip : skipHexMark (skipSign (skipSpaces (c :: cs ++ 32 :: rest))) =
          c :: cs ++ 32 :: rest := by
        rw [List.cons_append, skipSpaces_cons (isHexDigit_not_isSpace hc),
          skipSign_cons hc, ← List.cons_append,
          skipHexMark_run fun d hd => hds d (List.mem_cons_of_mem c hd)]
      simp only [scanHex, hskip, List.takeWhile_append_of_pos hds,
        List.dropWhile_append_of_pos hds]
      simp [hstop]

/-- A number written with `%llx` in front of a space is read by `%llx`. -/
theorem scanHex_hex (n : Nat) (rest : CStr) :
    scanHex (hex n ++ 32 :: rest) = some (32 :: rest) :=
  scanHex_run (hex_ne_nil n) fun _ => isHexDigit_of_mem_hex

/-- White space in front of a number is skipped. -/
theorem scanHex_space (s : CStr) : scanHex (32 :: s) = scanHex s := by
  rfl

/-- A word between white space is read by `%s`. -/
theorem scanWord_word {width : Nat} {word rest : CStr} (hne : word ≠ [])
    (hword : ∀ c ∈ word, isSpace c = false) (hlen : word.length ≤ width) :
    scanWord width (32 :: (word ++ 10 :: rest)) = some (word, 10 :: rest) := by
  have hskip : skipSpaces (32 :: (word ++ 10 :: rest)) = word ++ 10 :: rest := by
    cases word with
    | nil => contradiction
    | cons c cs => exact skipSpaces_cons (hword c List.mem_cons_self) _
  have htake : (word ++ 10 :: rest).takeWhile (fun c => !isSpace c) = word := by
    rw [List.takeWhile_append_of_pos fun c hc => by simp [hword c hc],
      List.takeWhile_cons_of_neg (by decide), List.append_nil]
  simp [scanWord, hskip, htake, List.take_of_length_le hlen, hne]

/-- A line that fits the buffer is read whole. -/
theorem fgets_line {size : Nat} {line : CStr} (hsize : line.length + 1 < size)
    (hline : ∀ c ∈ line, c ≠ 10 ∧ c ≠ 0) :
    fgets size (line ++ [10]) = some (line ++ [10]) := by
  have hbody : (line ++ [10]).takeWhile (fun c => c != 10) = line := by
    rw [List.takeWhile_append_of_pos fun c hc => by simpa using (hline c hc).1]
    simp
  have htext : (line ++ [10]).takeWhile (fun c => c != 0) = line ++ [10] := by
    rw [List.takeWhile_append_of_pos fun c hc => by simpa using (hline c hc).2]
    simp
  have hfit : (line ++ [10]).length ≤ size - 1 := by
    rw [List.length_append, List.length_singleton]
    omega
  have hwhole : (line ++ [10]).take (line.length + 1) = line ++ [10] :=
    List.take_of_length_le (by simp)
  simp only [fgets, hbody, hwhole, List.take_of_length_le hfit, htext]
  simp

end CStr
end Foundation
