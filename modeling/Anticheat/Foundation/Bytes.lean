import Mathlib.Tactic

/-!
# Binary files

Little-endian fields of a byte string, tables of records of one size, and reads
at an offset of a file.

Main results:

- Theorem {lit}`readFull_eq_some`: the bytes that a complete read returns are those
  of the file at its offset.
-/

namespace Foundation
namespace Bytes

/-- The number that a byte string denotes, least significant byte first. -/
def leNat (bytes : List UInt8) : Nat :=
  bytes.foldr (fun b n => b.toNat + 256 * n) 0

/-- The two-byte field at an offset. -/
def le16 (bytes : List UInt8) (off : Nat) : UInt16 :=
  UInt16.ofNat (leNat ((bytes.drop off).take 2))

/-- The four-byte field at an offset. -/
def le32 (bytes : List UInt8) (off : Nat) : UInt32 :=
  UInt32.ofNat (leNat ((bytes.drop off).take 4))

/-- The eight-byte field at an offset. -/
def le64 (bytes : List UInt8) (off : Nat) : UInt64 :=
  UInt64.ofNat (leNat ((bytes.drop off).take 8))

/-- The four bytes of a field. -/
def le32Bytes (v : UInt32) : List UInt8 :=
  (List.range 4).map fun i => UInt8.ofNat (v.toNat / 256 ^ i)

@[simp]
theorem length_le32Bytes (v : UInt32) : (le32Bytes v).length = 4 := by
  simp [le32Bytes]

/-- The first records of a table, each `size` bytes long. -/
def records (size count : Nat) (bytes : List UInt8) : List (List UInt8) :=
  (List.range count).map fun i => (bytes.drop (i * size)).take size

@[simp]
theorem length_records (size count : Nat) (bytes : List UInt8) :
    (records size count bytes).length = count := by
  simp [records]

/-- The most bytes that one read returns. -/
def maxRwCount : Nat := 0x7ffff000

/-- The bytes that `pread` finds at an offset.  An offset that is negative as a
signed number is refused. -/
def pread (file : List UInt8) (n : Nat) (off : UInt64) : Option (List UInt8) :=
  if off.toNat < 2 ^ 63 then some ((file.drop off.toNat).take (min n maxRwCount)) else none

/-- A `pread` that has to return `n` bytes; `ok` says that it is neither cut short
nor fails for a reason of its own. -/
def readFull (ok : Bool) (file : List UInt8) (n : Nat) (off : UInt64) :
    Option (List UInt8) :=
  match pread file n off with
  | none => none
  | some bytes => if ok && bytes.length == n then some bytes else none

/-- What a complete read returns. -/
theorem readFull_eq_some {ok : Bool} {file bytes : List UInt8} {n : Nat} {off : UInt64}
    (h : readFull ok file n off = some bytes) :
    bytes.length = n ∧ ∀ k < n, bytes[k]? = file[off.toNat + k]? := by
  unfold readFull pread at h
  by_cases hoff : off.toNat < 2 ^ 63
  · rw [if_pos hoff] at h
    simp only [Option.ite_none_right_eq_some, Bool.and_eq_true, beq_iff_eq,
      Option.some.injEq] at h
    rcases h with ⟨⟨-, hlen⟩, rfl⟩
    refine ⟨hlen, ?_⟩
    intro k hk
    rw [List.length_take] at hlen
    rw [List.getElem?_take_of_lt (by omega), List.getElem?_drop]
  · rw [if_neg hoff] at h
    contradiction

/-- The bytes of a file at an offset, as many as there are. -/
def slice (file : List UInt8) (off n : Nat) : List UInt8 :=
  (file.drop off).take n

@[simp]
theorem length_slice (file : List UInt8) (off n : Nat) :
    (slice file off n).length = min n (file.length - off) := by
  simp [slice]

theorem readFull_eq_slice {ok : Bool} {file bytes : List UInt8} {n : Nat} {off : UInt64}
    (h : readFull ok file n off = some bytes) : bytes = slice file off.toNat n := by
  obtain ⟨hlen, hget⟩ := readFull_eq_some h
  apply List.ext_getElem?
  intro k
  by_cases hk : k < n
  · rw [hget k hk, slice, List.getElem?_take_of_lt hk, List.getElem?_drop]
  · rw [List.getElem?_eq_none (by omega), List.getElem?_eq_none]
    rw [length_slice]
    omega

/-- A complete read lies in the file. -/
theorem readFull_le {ok : Bool} {file bytes : List UInt8} {n : Nat} {off : UInt64}
    (h : readFull ok file n off = some bytes) (hn : 0 < n) : off.toNat + n ≤ file.length := by
  have hlen := (readFull_eq_some h).1
  rw [readFull_eq_slice h, length_slice] at hlen
  omega

/-- A read inside a file that nothing disturbs is complete. -/
theorem readFull_of_le {file : List UInt8} {n : Nat} {off : UInt64}
    (hin : off.toNat + n ≤ file.length) (hfile : file.length < 2 ^ 63) (hn : n ≤ maxRwCount) :
    readFull true file n off = some (slice file off.toNat n) := by
  have hoff : off.toNat < 2 ^ 63 := by omega
  have hlen : (slice file off.toNat n).length = n := by
    rw [length_slice]
    omega
  simp only [readFull, pread, if_pos hoff, Nat.min_eq_left hn]
  rw [← slice, if_pos (by simp [hlen])]

end Bytes
end Foundation
