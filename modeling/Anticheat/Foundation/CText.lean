import Mathlib.Data.Nat.Digits.Defs
import Mathlib.Tactic

/-!
# C strings and number formatting

A C string is the list of its bytes before the terminating NUL.  Copies into a
buffer of a fixed size keep what fits in front of the NUL, which is what
`strscpy` and `snprintf` both do.

Main definitions:

- Definition {lit}`CStr.bounded`: the string left in a buffer of a given size.
- Definitions {lit}`CStr.decimal`, {lit}`CStr.hex` and {lit}`CStr.altHex`: the
  conversions `%d`, `%llx` and `%#llx`.
- Definition {lit}`CStr.lastComponent`: the last component of a path.
-/

namespace Foundation

/-- The bytes of a C string, without the terminating NUL. -/
abbrev CStr := List UInt8

namespace CStr

/-- The bytes of an ASCII literal. -/
def ascii (s : String) : CStr :=
  s.toList.map fun c => UInt8.ofNat c.toNat

/-- What a bounded copy leaves in a buffer of `size` bytes. -/
def bounded (size : Nat) (s : CStr) : CStr :=
  s.take (size - 1)

@[simp]
theorem bounded_bounded (size : Nat) (s : CStr) :
    bounded size (bounded size s) = bounded size s := by
  rw [bounded, bounded, List.take_take, Nat.min_self]

/-- The lower-case character of one digit, in a base up to sixteen. -/
def digit (d : Nat) : UInt8 :=
  if d < 10 then UInt8.ofNat (48 + d) else UInt8.ofNat (87 + d)

/-- The digits of a number, most significant first, without leading zeros. -/
def digits (base n : Nat) : CStr :=
  if n = 0 then [digit 0] else (Nat.digits base n).reverse.map digit

/-- The conversion `%d`. -/
def decimal (i : Int) : CStr :=
  if i < 0 then 45 :: digits 10 i.natAbs else digits 10 i.natAbs

/-- The conversion `%llx`. -/
def hex (n : Nat) : CStr :=
  digits 16 n

/-- The conversion `%#llx`. -/
def altHex (n : Nat) : CStr :=
  if n = 0 then hex n else ascii "0x" ++ hex n

/-- `strrchr`: the rest of the string from the last occurrence of a byte on. -/
def strrchr (c : UInt8) : CStr → Option CStr
  | [] => none
  | x :: xs =>
      match strrchr c xs with
      | some rest => some rest
      | none => if x = c then some (x :: xs) else none

/-- The part of a path after its last slash. -/
def lastComponent (path : CStr) : CStr :=
  match strrchr 47 path with
  | some rest => rest.drop 1
  | none => path

/-- The comparison `strncmp(s, start, strlen(start)) == 0`. -/
def startsWith (s start : CStr) : Bool :=
  start.isPrefixOf s

end CStr
end Foundation
