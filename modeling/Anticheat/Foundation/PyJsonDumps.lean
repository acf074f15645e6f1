import Anticheat.Foundation.JsonBare
import Anticheat.Foundation.PyJsonCodes

/-!
# Writing JSON as Python does

The function {lit}`json.dumps` of the Python standard library with its defaults: members
and elements are separated by a comma and a space, names and values by a colon and a
space, and strings are written in ASCII, with characters beyond ASCII as `\u` escapes.

The text of a floating-point number is a parameter.  For an infinite number
{lit}`json.dumps` writes `Infinity` or `-Infinity`, which is no JSON.

Main results:

- Theorem {lit}`decode_dumpsString`: a string without surrogates is denoted by what is
  written for it.
- Theorem {lit}`dumps_valid`: what is written is a JSON text if the numbers are written as
  numbers.
- Theorem {lit}`dumps_infinite`: it is none if a number is infinite.
-/

namespace Foundation
namespace PyJson

open Json

/-! ## Strings -/

/-- The characters that have an escape of one letter. -/
def shortEscape (c : Nat) : Option Short :=
  if c = 34 then some .quote
  else if c = 92 then some .backslash
  else if c = 10 then some .newline
  else if c = 13 then some .carriageReturn
  else if c = 9 then some .tab
  else if c = 12 then some .formFeed
  else if c = 8 then some .backspace
  else Option.none

/-- `'\\u{0:04x}'.format(u)` -/
def unicodePiece (u : Nat) : Piece :=
  .unicode ⟨Fin.ofNat 16 (u / 4096), false⟩ ⟨Fin.ofNat 16 (u / 256), false⟩
    ⟨Fin.ofNat 16 (u / 16), false⟩ ⟨Fin.ofNat 16 u, false⟩

/-- The characters that are written as they are. -/
def Printable (c : Nat) : Prop :=
  32 ≤ c ∧ c ≤ 126 ∧ c ≠ 34 ∧ c ≠ 92

instance (c : Nat) : Decidable (Printable c) :=
  inferInstanceAs (Decidable (_ ∧ _))

theorem toNat_ofNat_of_printable {c : Nat} (h : Printable c) : (Char.ofNat c).toNat = c := by
  have hvalid : c.isValidChar := Or.inl (lt_of_le_of_lt h.2.1 (by decide))
  rw [Char.ofNat, dif_pos hvalid]
  rfl

theorem unescaped_of_printable {c : Nat} (h : Printable c) : Unescaped (Char.ofNat c) := by
  rw [Unescaped, toNat_ofNat_of_printable h]
  exact ⟨h.1, h.2.2.1, h.2.2.2⟩

/-- `py_encode_basestring_ascii`, on one character -/
def dumpsChar (c : Nat) : Literal :=
  match shortEscape c with
  | some e => [.short e]
  | Option.none =>
      if h : Printable c then [.raw (Char.ofNat c) (unescaped_of_printable h)]
      else if c < 0x10000 then [unicodePiece c]
      else [unicodePiece (0xD800 + (c - 0x10000) / 1024 % 1024),
        unicodePiece (0xDC00 + (c - 0x10000) % 1024)]

def dumpsString (s : PyStr) : Literal :=
  s.flatMap dumpsChar

/-- A code point that is not a surrogate. -/
def NoSurrogate (c : Nat) : Prop :=
  ¬(0xD800 ≤ c ∧ c ≤ 0xDFFF)

theorem unit_unicodePiece {u : Nat} (hu : u < 0x10000) : (unicodePiece u).unit = .escaped u := by
  simp only [unicodePiece, Piece.unit, Fin.ofNat, StrUnit.escaped.injEq]
  omega

theorem shortEscape_code {c : Nat} {e : Short} (h : shortEscape c = some e) : e.code = c := by
  unfold shortEscape at h
  split_ifs at h <;> cases h <;> rw [Short.code] <;> omega

theorem joinUnits_raw (c : Nat) (us : List StrUnit) :
    joinUnits (.raw c :: us) = c :: joinUnits us := by
  rfl

theorem joinUnits_escaped {u : Nat} (hu : NoSurrogate u) (us : List StrUnit) :
    joinUnits (.escaped u :: us) = u :: joinUnits us := by
  have hhigh : isHighSurrogate u = false := by
    unfold NoSurrogate at hu
    simp only [isHighSurrogate, Bool.and_eq_false_iff, decide_eq_false_iff_not]
    omega
  rcases us with - | ⟨- | l, us⟩
  · rfl
  · rfl
  · rw [joinUnits, hhigh, Bool.false_and]
    rfl

/-- One character is read back. -/
theorem joinUnits_dumpsChar {c : Nat} (hc : c < 0x110000) (hno : NoSurrogate c)
    (us : List StrUnit) : joinUnits ((dumpsChar c).map Piece.unit ++ us) = c :: joinUnits us := by
  unfold dumpsChar
  split
  · rename_i e he
    rw [← shortEscape_code he]
    exact joinUnits_raw _ us
  · split_ifs with hprint hsmall
    · have hcode := toNat_ofNat_of_printable hprint
      rw [List.map_singleton, List.singleton_append, Piece.unit, hcode]
      exact joinUnits_raw c us
    · rw [List.map_singleton, List.singleton_append, unit_unicodePiece hsmall]
      exact joinUnits_escaped hno us
    · have hhigh : 0xD800 + (c - 0x10000) / 1024 % 1024 < 0x10000 := by omega
      have hlow : 0xDC00 + (c - 0x10000) % 1024 < 0x10000 := by omega
      have hpair : (isHighSurrogate (0xD800 + (c - 0x10000) / 1024 % 1024) &&
          isLowSurrogate (0xDC00 + (c - 0x10000) % 1024)) = true := by
        simp only [isHighSurrogate, isLowSurrogate, Bool.and_eq_true, decide_eq_true_eq]
        omega
      have hcode : 0x10000 + (0xD800 + (c - 0x10000) / 1024 % 1024 - 0xD800) * 1024 +
          (0xDC00 + (c - 0x10000) % 1024 - 0xDC00) = c := by
        omega
      rw [List.map_cons, List.map_singleton, unit_unicodePiece hhigh, unit_unicodePiece hlow,
        List.cons_append, List.singleton_append, joinUnits, if_pos hpair, hcode]

/-- A string without surrogates is read back. -/
theorem decode_dumpsString {s : PyStr} (hs : Codes s) (hno : ∀ c ∈ s, NoSurrogate c) :
    (dumpsString s).decode = s := by
  induction s with
  | nil => rfl
  | cons c s ih =>
      have hrest := ih hs.tail fun d hd => hno d (List.mem_cons_of_mem c hd)
      rw [dumpsString, List.flatMap_cons, Literal.decode, List.map_append,
        joinUnits_dumpsChar (hs c List.mem_cons_self) (hno c List.mem_cons_self)]
      exact congrArg (c :: ·) hrest

/-! ## Values -/

/-- A number, as Python holds it. -/
inductive PyNumber where
  | int (i : Int)
  | float (text : PyStr)

/-- `int.__repr__`, and `float.__repr__` as a parameter -/
def PyNumber.repr (write : PyStr → List UInt8) : PyNumber → List UInt8
  | int i => CStr.decimal i
  | float text => write text

/-- One space. -/
def oneSpace : Ws where
  bytes := [32]
  ws := List.forall_mem_singleton.mpr rfl

mutual

/-- The tree of what is written for a value. -/
def dumpsValue : PyVal → Value PyNumber
  | .none => .null
  | .bool b => .bool b
  | .int i => .number (.int i)
  | .float text => .number (.float text)
  | .str s => .string (dumpsString s)
  | .list l => .array (dumpsElements .none l) .none
  | .dict d => .object (dumpsMembers .none d) .none

/-- Elements, where `pre` stands before the first. -/
def dumpsElements (pre : Ws) : List PyVal → Elements PyNumber
  | [] => .nil
  | v :: l => .cons pre (dumpsValue v) .none (dumpsElements oneSpace l)

/-- Members, where `pre` stands before the first. -/
def dumpsMembers (pre : Ws) : List (PyStr × PyVal) → Members PyNumber
  | [] => .nil
  | (name, v) :: d =>
      .cons pre (dumpsString name) .none oneSpace (dumpsValue v) .none (dumpsMembers oneSpace d)

end

/-- `json.dumps(v).encode("utf-8")`, where `write` is what is written for the
floating-point numbers. -/
def dumps (write : PyStr → List UInt8) (v : PyVal) : List UInt8 :=
  (dumpsValue v).text (PyNumber.repr write) []

/-! ## Integers -/

theorem isInt_digits (n : Nat) : IsInt (CStr.digits 10 n) := by
  have hmap : (CStr.digits 10 n).map UInt8.toNat = PyStr.digits n := rfl
  have hne : CStr.digits 10 n ≠ [] := fun h => PyStr.digits_ne_nil n (by rw [← hmap, h]; rfl)
  have hdigits : ∀ c ∈ CStr.digits 10 n, Json.isDigit c = true := by
    intro c hc
    have hdigit := PyStr.isDigit_of_mem_digits (hmap ▸ List.mem_map_of_mem hc)
    simpa [Json.isDigit, PyStr.isDigit, UInt8.le_iff_toNat_le] using hdigit
  obtain ⟨c, s, hs⟩ := List.exists_cons_of_ne_nil hne
  by_cases hzero : c = 48
  · left
    have hnil : s = [] := by
      by_contra hlong
      have hhead : PyStr.digits n = c.toNat :: s.map UInt8.toNat := by rw [← hmap, hs]; rfl
      exact PyStr.head_digits hhead (by simpa using hlong) (by rw [hzero]; rfl)
    rw [hs, hzero, hnil]
  · right
    refine ⟨⟨hne, hdigits⟩, ?_⟩
    rw [hs]
    simpa using hzero

/-- An integer is written as a number. -/
theorem isNumber_decimal (i : Int) : IsNumber (CStr.decimal i) := by
  have hint := isInt_digits i.natAbs
  unfold CStr.decimal
  split
  · exact ⟨[45], _, [], [], by simp, Or.inr rfl, hint, Or.inl rfl, Or.inl rfl⟩
  · exact ⟨[], _, [], [], by simp, Or.inl rfl, hint, Or.inl rfl, Or.inl rfl⟩

/-! ## Floating-point numbers -/

/-- The number that digits stand for. -/
def natOfDigits (s : PyStr) : Nat :=
  s.foldl (fun n c => 10 * n + (c - 48)) 0

/-- The number that an exponent stands for. -/
def expValue : PyStr → Int
  | [] => 0
  | _ :: s =>
      if s.head? = some 45 then -(natOfDigits (s.drop 1) : Int)
      else if s.head? = some 43 then natOfDigits (s.drop 1)
      else natOfDigits s

/-- Decimal numbers from here on are rounded to infinity: the middle between the greatest
finite number and the next power of two. -/
def overflowBound : Nat := 2 ^ 1024 - 2 ^ 970

/-- A decimal number is too large. -/
def decimalOverflows (text : PyStr) : Bool :=
  let s := if text.head? = some 45 then text.drop 1 else text
  let int := intPart s
  let frac := fracPart (s.drop int.length)
  let exp := expPart (s.drop (int.length + frac.length))
  let mantissa := natOfDigits (int ++ frac.drop 1)
  let exponent := expValue exp - (frac.drop 1).length
  if 0 ≤ exponent then overflowBound ≤ mantissa * 10 ^ exponent.toNat
  else overflowBound * 10 ^ (-exponent).toNat ≤ mantissa

/-- `math.isinf(float(text))` -/
def isInfinite (text : PyStr) : Bool :=
  text == PyStr.ofString "Infinity" || text == PyStr.ofString "-Infinity" ||
    decimalOverflows text

example : isInfinite (PyStr.ofString "1e309") = true ∧
    isInfinite (PyStr.ofString "-1.7976931348623157e308") = false := by
  decide +kernel

theorem ne_nan_of_isInfinite {text : PyStr} (h : isInfinite text = true) :
    text ≠ PyStr.ofString "NaN" := by
  rintro rfl
  exact absurd h (by decide +kernel)

/-- How the interpreter writes the floating-point numbers that were read from texts.  On
other texts it does not matter what is written. -/
structure FloatWriter where
  write : PyStr → List UInt8
  nan : write (PyStr.ofString "NaN") = CStr.ascii "NaN"
  infinite : ∀ text, isInfinite text = true →
    write text = CStr.ascii "Infinity" ∨ write text = CStr.ascii "-Infinity"
  finite : ∀ text, text ≠ PyStr.ofString "NaN" → isInfinite text = false →
    IsNumber (write text)

theorem FloatWriter.ne_quote (w : FloatWriter) (n : PyNumber) :
    ∀ c ∈ n.repr w.write, c ≠ 34 := by
  have hnumber {s : List UInt8} (hs : IsNumber s) : ∀ c ∈ s, c ≠ 34 :=
    Number.bytes_ne_quote ⟨s, hs⟩
  cases n with
  | int i => exact hnumber (isNumber_decimal i)
  | float text =>
      rw [PyNumber.repr]
      by_cases hnan : text = PyStr.ofString "NaN"
      · rw [hnan, w.nan]
        exact List.all_iff_forall_prop.1 (by decide)
      · cases hinf : isInfinite text with
        | true =>
            rcases w.infinite text hinf with h | h
            · rw [h]
              exact List.all_iff_forall_prop.1 (by decide)
            · rw [h]
              exact List.all_iff_forall_prop.1 (by decide)
        | false => exact hnumber (w.finite text hnan hinf)

/-! ## The numbers that are written -/

theorem mem_numbers_dumpsElements (pre : Ws) (l : List PyVal) (n : PyNumber) :
    n ∈ (dumpsElements pre l).numbers ↔ ∃ v ∈ l, n ∈ (dumpsValue v).numbers := by
  induction l generalizing pre with
  | nil => simp [dumpsElements, Elements.numbers]
  | cons v l ih =>
      rw [dumpsElements, Elements.numbers, List.mem_append, ih, List.exists_mem_cons_iff]

theorem mem_numbers_dumpsMembers (pre : Ws) (d : List (PyStr × PyVal)) (n : PyNumber) :
    n ∈ (dumpsMembers pre d).numbers ↔ ∃ m ∈ d, n ∈ (dumpsValue m.2).numbers := by
  induction d generalizing pre with
  | nil => simp [dumpsMembers, Members.numbers]
  | cons m d ih =>
      rcases m with ⟨name, v⟩
      rw [dumpsMembers, Members.numbers, List.mem_append, ih, List.exists_mem_cons_iff]

theorem toList_dumpsElements (pre : Ws) (l : List PyVal) :
    (dumpsElements pre l).toList = l.map dumpsValue := by
  induction l generalizing pre with
  | nil => rfl
  | cons v l ih => rw [dumpsElements, Elements.toList, ih, List.map_cons]

/-- Members whose names have no surrogates are found as in the object. -/
theorem find_dumpsMembers (pre : Ws) {d : List (PyStr × PyVal)} (key : PyStr)
    (hd : ∀ m ∈ d, (dumpsString m.1).decode = m.1) :
    (dumpsMembers pre d).find key =
      (d.find? fun m => m.1 == key).map fun m => dumpsValue m.2 := by
  induction d generalizing pre with
  | nil => rfl
  | cons m d ih =>
      rcases m with ⟨name, v⟩
      rw [dumpsMembers, Members.find, hd (name, v) List.mem_cons_self,
        ih oneSpace fun m hm => hd m (List.mem_cons_of_mem _ hm)]
      by_cases hname : name = key
      · simp [hname]
      · simp [hname]

/-- What is written for an object has its members. -/
theorem get?_dumpsValue {ν : Type} (f : PyNumber → ν) {d : List (PyStr × PyVal)} (key : PyStr)
    (hd : ∀ m ∈ d, (dumpsString m.1).decode = m.1) :
    ((dumpsValue (.dict d)).map f).get? key =
      (d.find? fun m => m.1 == key).map fun m => (dumpsValue m.2).map f := by
  rw [Value.get?_map, dumpsValue, Value.get?, find_dumpsMembers .none key hd, Option.map_map]
  rfl

/-- If the numbers are written as numbers, a JSON text is written. -/
theorem dumps_valid {write : PyStr → List UInt8} {v : PyVal}
    (h : ∀ n ∈ (dumpsValue v).numbers, IsNumber (n.repr write)) :
    ∃ f : PyNumber → Number,
      dumps write v = Text.render ⟨.none, (dumpsValue v).map f, .none⟩ := by
  classical
  have hzero : IsNumber [48] :=
    ⟨[], [48], [], [], rfl, Or.inl rfl, Or.inl rfl, Or.inl rfl, Or.inl rfl⟩
  refine ⟨fun n => if hn : IsNumber (n.repr write) then ⟨_, hn⟩ else ⟨_, hzero⟩, ?_⟩
  rw [dumps, Text.render]
  refine (Value.text_map (dumpsValue v) ?_ []).symm
  intro n hn
  rw [dif_pos (h n hn)]

/-- If a number is infinite, no JSON text is written: the letter `I` stands in none outside
its strings. -/
theorem dumps_infinite (w : FloatWriter) {v : PyVal} {text : PyStr}
    (hinf : isInfinite text = true) (hn : .float text ∈ (dumpsValue v).numbers) (t : Text) :
    dumps w.write v ≠ t.render := by
  have hletter : 73 ∈ w.write text := by
    rcases w.infinite text hinf with h | h
    · rw [h]
      decide
    · rw [h]
      decide
  have hforeign : (73 : UInt8) ∉ tokenBytes := by decide
  intro heq
  have hbare : 73 ∈ bare (dumps w.write v) :=
    (Value.mem_bare hforeign w.ne_quote (dumpsValue v) []).2 (Or.inl ⟨.float text, hn, hletter⟩)
  rw [heq] at hbare
  exact t.not_mem_bare hforeign (by decide) hbare

end PyJson
end Foundation
