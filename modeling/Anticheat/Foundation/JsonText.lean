import Anticheat.Foundation.CScan
import Anticheat.Foundation.PyJson

/-!
# JSON texts

The grammar of RFC 8259, as trees that keep everything that a text shows: the white space
between its tokens and the spelling of its strings and numbers.  A tree is well formed by
construction, and the well-formed texts are the renderings of trees, in UTF-8.

A rendering takes what is to follow it, so that the text of a tree in its place can be
taken apart from the left.  The trees are over an arbitrary type of numbers; the numbers
of RFC 8259 are the type {lit}`Number`.

Main definitions:

- Definition {lit}`Literal.decode`: the code points that a string denotes.
- Definition {lit}`Value.text`: the text of a tree.
- Definition {lit}`Value.strings`: the strings of a text from left to right, and behind
  each name of a member its value.
-/

namespace Foundation
namespace Json

open PyJson (StrUnit joinUnits)

/-! ## White space -/

def isWs (c : UInt8) : Bool :=
  c == 32 || c == 9 || c == 10 || c == 13

/-- White space between two tokens. -/
structure Ws where
  bytes : List UInt8
  ws : ∀ c ∈ bytes, isWs c = true

/-- No white space. -/
def Ws.none : Ws where
  bytes := []
  ws := by simp

theorem isWs_isSpace {c : UInt8} (h : isWs c = true) : CStr.isSpace c = true := by
  simp only [isWs, Bool.or_eq_true, beq_iff_eq] at h
  rcases h with ((rfl | rfl) | rfl) | rfl <;> rfl

theorem Ws.isSpace (w : Ws) : ∀ c ∈ w.bytes, CStr.isSpace c = true :=
  fun c hc => isWs_isSpace (w.ws c hc)

/-! ## Strings -/

/-- The escapes of one letter. -/
inductive Short where
  | quote
  | backslash
  | slash
  | backspace
  | formFeed
  | newline
  | carriageReturn
  | tab
deriving DecidableEq, Repr

/-- The letter behind the backslash. -/
def Short.letter : Short → UInt8
  | quote => 34
  | backslash => 92
  | slash => 47
  | backspace => 98
  | formFeed => 102
  | newline => 110
  | carriageReturn => 114
  | tab => 116

/-- The code point that is denoted. -/
def Short.code : Short → Nat
  | quote => 34
  | backslash => 92
  | slash => 47
  | backspace => 8
  | formFeed => 12
  | newline => 10
  | carriageReturn => 13
  | tab => 9

/-- A hexadecimal digit, in one of its two spellings. -/
structure HexDigit where
  value : Fin 16
  upper : Bool
deriving DecidableEq, Repr

def HexDigit.byte (d : HexDigit) : UInt8 :=
  if d.value.val < 10 then UInt8.ofNat (48 + d.value)
  else if d.upper then UInt8.ofNat (55 + d.value)
  else UInt8.ofNat (87 + d.value)

/-- The characters that stand for themselves in a string. -/
def Unescaped (c : Char) : Prop :=
  32 ≤ c.toNat ∧ c.toNat ≠ 34 ∧ c.toNat ≠ 92

instance (c : Char) : Decidable (Unescaped c) :=
  inferInstanceAs (Decidable (_ ∧ _))

/-- A character of a string, as it is spelled. -/
inductive Piece where
  | raw (c : Char) (h : Unescaped c)
  | short (e : Short)
  | unicode (a b c d : HexDigit)
deriving DecidableEq

def Piece.bytes : Piece → List UInt8
  | raw c _ => String.utf8EncodeChar c
  | short e => [92, e.letter]
  | unicode a b c d => [92, 117, a.byte, b.byte, c.byte, d.byte]

/-- The character, or the UTF-16 unit, that is denoted. -/
def Piece.unit : Piece → StrUnit
  | raw c _ => .raw c.toNat
  | short e => .raw e.code
  | unicode a b c d => .escaped (((a.value * 16 + b.value) * 16 + c.value) * 16 + d.value)

/-- A string, as it is spelled. -/
abbrev Literal := List Piece

/-- What stands between the quotes. -/
def Literal.body (s : Literal) : List UInt8 :=
  s.flatMap Piece.bytes

/-- The code points that a string denotes. -/
def Literal.decode (s : Literal) : PyStr :=
  joinUnits (s.map Piece.unit)

/-! ## Numbers -/

def isDigit (c : UInt8) : Bool :=
  48 ≤ c && c ≤ 57

/-- One digit or more. -/
def IsDigits (s : List UInt8) : Prop :=
  s ≠ [] ∧ ∀ c ∈ s, isDigit c = true

/-- A zero, or digits that do not begin with one. -/
def IsInt (s : List UInt8) : Prop :=
  s = [48] ∨ (IsDigits s ∧ s.head? ≠ some 48)

/-- Nothing, or a point and digits. -/
def IsFrac (s : List UInt8) : Prop :=
  s = [] ∨ ∃ ds, s = 46 :: ds ∧ IsDigits ds

/-- Nothing, or an exponent: a letter, perhaps a sign, and digits. -/
def IsExp (s : List UInt8) : Prop :=
  s = [] ∨ ∃ e sign ds, s = e :: (sign ++ ds) ∧ (e = 101 ∨ e = 69) ∧
    (sign = [] ∨ sign = [43] ∨ sign = [45]) ∧ IsDigits ds

def IsNumber (s : List UInt8) : Prop :=
  ∃ sign int frac exp, s = sign ++ (int ++ (frac ++ exp)) ∧ (sign = [] ∨ sign = [45]) ∧
    IsInt int ∧ IsFrac frac ∧ IsExp exp

/-- A number, as it is spelled. -/
structure Number where
  bytes : List UInt8
  isNumber : IsNumber bytes

/-! ## Values -/

mutual

/-- A value, over a type of numbers. -/
inductive Value (ν : Type) where
  | null
  | bool (b : Bool)
  | number (n : ν)
  | string (s : Literal)
  | array (es : Elements ν) (close : Ws)
  | object (ms : Members ν) (close : Ws)

/-- The elements of an array, each between white space. -/
inductive Elements (ν : Type) where
  | nil
  | cons (pre : Ws) (v : Value ν) (post : Ws) (rest : Elements ν)

/-- The members of an object, with white space around their tokens. -/
inductive Members (ν : Type) where
  | nil
  | cons (pre : Ws) (name : Literal) (mid aft : Ws) (v : Value ν) (post : Ws)
      (rest : Members ν)

end

variable {ν : Type}

/-- A string with its quotes, in front of `rest`. -/
def Literal.text (s : Literal) (rest : List UInt8) : List UInt8 :=
  34 :: (s.body ++ 34 :: rest)

mutual

/-- The text of a value in front of `rest`, where `num` spells the numbers. -/
def Value.text (num : ν → List UInt8) : Value ν → List UInt8 → List UInt8
  | .null, rest => CStr.ascii "null" ++ rest
  | .bool b, rest => CStr.ascii (if b then "true" else "false") ++ rest
  | .number n, rest => num n ++ rest
  | .string s, rest => s.text rest
  | .array es close, rest => 91 :: es.text num [] (close.bytes ++ 93 :: rest)
  | .object ms close, rest => 123 :: ms.text num [] (close.bytes ++ 125 :: rest)

/-- The text of elements, where `sep` separates the first from what comes before it. -/
def Elements.text (num : ν → List UInt8) :
    Elements ν → List UInt8 → List UInt8 → List UInt8
  | .nil, _, rest => rest
  | .cons pre v post es, sep, rest =>
      sep ++ (pre.bytes ++ v.text num (post.bytes ++ es.text num [44] rest))

/-- The text of members, where `sep` separates the first from what comes before it. -/
def Members.text (num : ν → List UInt8) :
    Members ν → List UInt8 → List UInt8 → List UInt8
  | .nil, _, rest => rest
  | .cons pre name mid aft v post ms, sep, rest =>
      sep ++ (pre.bytes ++ name.text (mid.bytes ++ 58 ::
        (aft.bytes ++ v.text num (post.bytes ++ ms.text num [44] rest))))

end

mutual

/-- The strings of a value from left to right, and behind each name of a member its
value. -/
def Value.strings : Value ν → List (Literal × Option (Value ν))
  | .null => []
  | .bool _ => []
  | .number _ => []
  | .string s => [(s, none)]
  | .array es _ => es.strings
  | .object ms _ => ms.strings

def Elements.strings : Elements ν → List (Literal × Option (Value ν))
  | .nil => []
  | .cons _ v _ es => v.strings ++ es.strings

def Members.strings : Members ν → List (Literal × Option (Value ν))
  | .nil => []
  | .cons _ name _ _ v _ ms => (name, some v) :: (v.strings ++ ms.strings)

end

/-- The members of all objects of a value, from left to right. -/
def Value.members (v : Value ν) : List (Literal × Value ν) :=
  v.strings.filterMap fun s => s.2.map fun value => (s.1, value)

mutual

/-- The numbers of a value, from left to right. -/
def Value.numbers : Value ν → List ν
  | .null => []
  | .bool _ => []
  | .number n => [n]
  | .string _ => []
  | .array es _ => es.numbers
  | .object ms _ => ms.numbers

def Elements.numbers : Elements ν → List ν
  | .nil => []
  | .cons _ v _ es => v.numbers ++ es.numbers

def Members.numbers : Members ν → List ν
  | .nil => []
  | .cons _ _ _ _ v _ ms => v.numbers ++ ms.numbers

end

mutual

/-- A value with other numbers in the places of its numbers. -/
def Value.map {μ : Type} (f : ν → μ) : Value ν → Value μ
  | .null => .null
  | .bool b => .bool b
  | .number n => .number (f n)
  | .string s => .string s
  | .array es close => .array (es.map f) close
  | .object ms close => .object (ms.map f) close

def Elements.map {μ : Type} (f : ν → μ) : Elements ν → Elements μ
  | .nil => .nil
  | .cons pre v post es => .cons pre (v.map f) post (es.map f)

def Members.map {μ : Type} (f : ν → μ) : Members ν → Members μ
  | .nil => .nil
  | .cons pre name mid aft v post ms => .cons pre name mid aft (v.map f) post (ms.map f)

end

/-- The elements of an array. -/
def Elements.toList : Elements ν → List (Value ν)
  | .nil => []
  | .cons _ v _ es => v :: es.toList

/-- The value of the first member of a name. -/
def Members.find (name : PyStr) : Members ν → Option (Value ν)
  | .nil => none
  | .cons _ key _ _ v _ ms => if key.decode = name then some v else ms.find name

/-- The member of a name, if the value is an object. -/
def Value.get? (name : PyStr) : Value ν → Option (Value ν)
  | .object ms _ => ms.find name
  | _ => none

/-- A JSON text: a value between white space. -/
structure Text where
  pre : Ws
  value : Value Number
  post : Ws

/-- The bytes of a JSON text. -/
def Text.render (t : Text) : List UInt8 :=
  t.pre.bytes ++ t.value.text Number.bytes t.post.bytes

/-! ## What a text is made of -/

/-- A character is one byte of ASCII, or bytes beyond ASCII. -/
theorem mem_utf8EncodeChar {c : Char} {b : UInt8} (h : b ∈ String.utf8EncodeChar c) :
    (c.toNat < 128 ∧ b.toNat = c.toNat) ∨ 128 ≤ b.toNat := by
  have hval : c.val.toNat = c.toNat := rfl
  unfold String.utf8EncodeChar at h
  rw [hval] at h
  dsimp only at h
  split_ifs at h with h1 h2 h3
  · rw [List.mem_singleton] at h
    rw [h, UInt8.toNat_ofNat']
    omega
  all_goals
    simp only [List.mem_cons, List.not_mem_nil, or_false] at h
    right
  · rcases h with rfl | rfl <;> rw [UInt8.toNat_ofNat'] <;> omega
  · rcases h with rfl | rfl | rfl <;> rw [UInt8.toNat_ofNat'] <;> omega
  · rcases h with rfl | rfl | rfl | rfl <;> rw [UInt8.toNat_ofNat'] <;> omega

/-- A byte of an unescaped character is no control character, quote or backslash. -/
theorem Unescaped.byte {c : Char} (h : Unescaped c) {b : UInt8}
    (hb : b ∈ String.utf8EncodeChar c) : 32 ≤ b.toNat ∧ b ≠ 34 ∧ b ≠ 92 := by
  have hbyte : 32 ≤ b.toNat ∧ b.toNat ≠ 34 ∧ b.toNat ≠ 92 := by
    rcases mem_utf8EncodeChar hb with ⟨-, heq⟩ | hlarge
    · rw [heq]
      exact h
    · omega
  refine ⟨hbyte.1, ?_, ?_⟩
  · rintro rfl
    exact hbyte.2.1 rfl
  · rintro rfl
    exact hbyte.2.2 rfl

theorem HexDigit.byte_plain (d : HexDigit) :
    32 ≤ d.byte.toNat ∧ d.byte ≠ 34 ∧ d.byte ≠ 92 := by
  rcases d with ⟨value, upper⟩
  revert value upper
  decide

/-- A number begins with a byte that no other token begins with. -/
theorem Number.head_ne (n : Number) :
    ∃ c rest, n.bytes = c :: rest ∧ CStr.isSpace c = false ∧ c ≠ 34 ∧ c ≠ 123 := by
  have hdigit {c : UInt8} (hc : isDigit c = true) :
      CStr.isSpace c = false ∧ c ≠ 34 ∧ c ≠ 123 := by
    have hspace : CStr.isSpace c = false := by
      by_contra hspace
      simp only [isDigit, CStr.isSpace, UInt8.le_iff_toNat_le, Bool.or_eq_true,
        Bool.and_eq_true, decide_eq_true_eq, beq_iff_eq, ← UInt8.toNat_inj, Bool.not_eq_false,
        UInt8.reduceToNat] at hc hspace
      omega
    refine ⟨hspace, ?_, ?_⟩
    · rintro rfl
      contradiction
    · rintro rfl
      contradiction
  rcases n with ⟨bytes, sign, int, frac, exp, rfl, hsign, hint, -⟩
  rcases hsign with rfl | rfl
  · rcases hint with rfl | ⟨hdigits, -⟩
    · exact ⟨_, _, rfl, by decide⟩
    · obtain ⟨c, int, rfl⟩ := List.exists_cons_of_ne_nil hdigits.1
      exact ⟨_, _, rfl, hdigit (hdigits.2 c List.mem_cons_self)⟩
  · exact ⟨_, _, rfl, by decide⟩

/-- The bytes of numbers. -/
def isNumberByte (c : UInt8) : Bool :=
  isDigit c || c == 43 || c == 45 || c == 46 || c == 69 || c == 101

theorem IsDigits.isNumberByte {s : List UInt8} (h : IsDigits s) :
    ∀ c ∈ s, isNumberByte c = true := by
  intro c hc
  simp [Json.isNumberByte, h.2 c hc]

theorem Number.isNumberByte (n : Number) : ∀ c ∈ n.bytes, isNumberByte c = true := by
  rcases n with ⟨bytes, sign, int, frac, exp, rfl, hsign, hint, hfrac, hexp⟩
  have hsign' : ∀ c ∈ sign, Json.isNumberByte c = true := by
    rcases hsign with rfl | rfl
    · simp
    · exact List.forall_mem_singleton.mpr rfl
  have hint' : ∀ c ∈ int, Json.isNumberByte c = true := by
    rcases hint with rfl | ⟨hdigits, -⟩
    · exact List.forall_mem_singleton.mpr rfl
    · exact hdigits.isNumberByte
  have hfrac' : ∀ c ∈ frac, Json.isNumberByte c = true := by
    rcases hfrac with rfl | ⟨ds, rfl, hds⟩
    · simp
    · exact List.forall_mem_cons.mpr ⟨rfl, hds.isNumberByte⟩
  have hexp' : ∀ c ∈ exp, Json.isNumberByte c = true := by
    rcases hexp with rfl | ⟨e, sign, ds, rfl, he, hsign, hds⟩
    · simp
    · refine List.forall_mem_cons.mpr ⟨?_, List.forall_mem_append.mpr ⟨?_, hds.isNumberByte⟩⟩
      · rcases he with rfl | rfl <;> rfl
      · rcases hsign with rfl | rfl | rfl
        · simp
        · exact List.forall_mem_singleton.mpr rfl
        · exact List.forall_mem_singleton.mpr rfl
  simp only [List.forall_mem_append]
  exact ⟨hsign', hint', hfrac', hexp'⟩

theorem Number.bytes_ne_quote (n : Number) : ∀ c ∈ n.bytes, c ≠ 34 := by
  rintro c hc rfl
  exact absurd (n.isNumberByte 34 hc) (by decide)

end Json
end Foundation
