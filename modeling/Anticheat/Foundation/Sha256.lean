import Anticheat.Foundation.CText
import Mathlib.Data.Nat.NthRoot.Defs
import Mathlib.Data.Nat.Prime.Basic
import Mathlib.Tactic

/-!
# SHA-256 as FIPS 180-4 defines it

The specification of SHA-256 on byte strings, in the terms of the standard: the
round constants are the leading fractional bits of roots of primes, the message
schedule is a recursion, and the digest folds the compression function over the
blocks of the padded message.

A streaming implementation only ever sees a prefix of the message.  What it has
to remember is the fold over the complete blocks so far and the incomplete rest;
the lemmas on {lit}`blocks` and {lit}`rest` say how both grow.

Main results:

- Definition {lit}`Sha256.digest`: the digest of a message.
- Theorems {lit}`blocks_append` and {lit}`rest_append`: appending to a message only
  touches its incomplete rest.
- Theorem {lit}`Sha256.padZeros_spec`: the padding ends eight bytes before a block
  boundary.
-/

namespace Foundation

/-! ## Complete blocks of a list -/

section Blocks

variable {α : Type*}

/-- The complete blocks of `n` entries at the front of a list. -/
def blocks (n : Nat) (l : List α) : List (List α) :=
  if 0 < n ∧ n ≤ l.length then l.take n :: blocks n (l.drop n) else []
termination_by l.length
decreasing_by
  rw [List.length_drop]
  omega

/-- The entries after the last complete block. -/
def rest (n : Nat) (l : List α) : List α :=
  if 0 < n ∧ n ≤ l.length then rest n (l.drop n) else l
termination_by l.length
decreasing_by
  rw [List.length_drop]
  omega

theorem blocks_of_lt {n : Nat} {l : List α} (h : l.length < n) :
    blocks n l = [] := by
  rw [blocks, if_neg (by omega)]

theorem rest_of_lt {n : Nat} {l : List α} (h : l.length < n) : rest n l = l := by
  rw [rest, if_neg (by omega)]

theorem blocks_of_length_eq {n : Nat} {l : List α} (hn : 0 < n)
    (h : l.length = n) : blocks n l = [l] := by
  rw [blocks, if_pos ⟨hn, h.ge⟩, List.take_of_length_le h.le,
    List.drop_of_length_le h.le, blocks_of_lt (by simpa using hn)]

theorem rest_of_length_eq {n : Nat} {l : List α} (hn : 0 < n)
    (h : l.length = n) : rest n l = [] := by
  rw [rest, if_pos ⟨hn, h.ge⟩, List.drop_of_length_le h.le,
    rest_of_lt (by simpa using hn)]

theorem length_rest {n : Nat} (hn : 0 < n) (l : List α) :
    (rest n l).length = l.length % n := by
  fun_induction rest n l with
  | case1 l h ih =>
      rw [ih, List.length_drop, ← Nat.mod_eq_sub_mod h.2]
  | case2 l h =>
      rw [Nat.mod_eq_of_lt (by omega)]

theorem length_blocks {n : Nat} (hn : 0 < n) (l : List α) :
    (blocks n l).length = l.length / n := by
  fun_induction blocks n l with
  | case1 l h ih =>
      rw [List.length_cons, ih, List.length_drop, Nat.div_eq_sub_div hn h.2]
  | case2 l h =>
      rw [List.length_nil, Nat.div_eq_of_lt (by omega)]

/-- Appending to a list adds the blocks its rest completes. -/
theorem blocks_append (n : Nat) (l m : List α) :
    blocks n (l ++ m) = blocks n l ++ blocks n (rest n l ++ m) := by
  fun_induction blocks n l with
  | case1 l h ih =>
      rw [blocks, if_pos ⟨h.1, by rw [List.length_append]; omega⟩,
        List.take_append_of_le_length h.2, List.drop_append_of_le_length h.2, ih,
        rest.eq_def n l, if_pos h, List.cons_append]
  | case2 l h =>
      rw [rest, if_neg h, List.nil_append]

/-- Appending to a list appends to its rest. -/
theorem rest_append (n : Nat) (l m : List α) :
    rest n (l ++ m) = rest n (rest n l ++ m) := by
  fun_induction rest n l with
  | case1 l h ih =>
      rw [← ih, rest.eq_def n (l ++ m),
        if_pos ⟨h.1, by rw [List.length_append]; omega⟩,
        List.drop_append_of_le_length h.2]
  | case2 l h => rfl

/-- The block at an index is the slice of the list at that multiple. -/
theorem blocks_getElem? {n : Nat} (hn : 0 < n) (l : List α) (i : Nat)
    (h : (i + 1) * n ≤ l.length) :
    (blocks n l)[i]? = some ((l.drop (i * n)).take n) := by
  induction i generalizing l with
  | zero =>
      rw [blocks, if_pos ⟨hn, by omega⟩]
      simp
  | succ i ih =>
      have hle : n ≤ l.length := by nlinarith
      rw [blocks, if_pos ⟨hn, hle⟩, List.getElem?_cons_succ, ih (l.drop n)
        (by rw [List.length_drop]; rw [Nat.add_mul] at h; omega), List.drop_drop]
      congr 3
      ring

end Blocks

namespace Sha256

/-! ## Functions and constants -/

/-- Rotation of a word to the right. -/
def rotr (n : Nat) (x : UInt32) : UInt32 :=
  UInt32.ofBitVec (x.toBitVec.rotateRight n)

/-- Shift of a word to the right. -/
def shr (n : Nat) (x : UInt32) : UInt32 :=
  UInt32.ofBitVec (x.toBitVec >>> n)

/-- `Ch`: the bits of `x` choose between `y` and `z`. -/
def ch (x y z : UInt32) : UInt32 :=
  (x &&& y) ^^^ (~~~x &&& z)

/-- `Maj`: the majority of three bits. -/
def maj (x y z : UInt32) : UInt32 :=
  (x &&& y) ^^^ (x &&& z) ^^^ (y &&& z)

/-- `Σ₀`. -/
def bigSigma0 (x : UInt32) : UInt32 :=
  rotr 2 x ^^^ rotr 13 x ^^^ rotr 22 x

/-- `Σ₁`. -/
def bigSigma1 (x : UInt32) : UInt32 :=
  rotr 6 x ^^^ rotr 11 x ^^^ rotr 25 x

/-- `σ₀`. -/
def smallSigma0 (x : UInt32) : UInt32 :=
  rotr 7 x ^^^ rotr 18 x ^^^ shr 3 x

/-- `σ₁`. -/
def smallSigma1 (x : UInt32) : UInt32 :=
  rotr 17 x ^^^ rotr 19 x ^^^ shr 10 x

/-- The first thirty-two bits of the fractional part of the `r`-th root of `p`. -/
def rootBits (r p : Nat) : UInt32 :=
  UInt32.ofNat (Nat.nthRoot r (p * 2 ^ (32 * r)))

/-- The first sixty-four primes. -/
def firstPrimes : List Nat :=
  (List.range 312).filter Nat.Prime

/-- `K_t`: from the cube roots of the first sixty-four primes. -/
def roundConstants : List UInt32 :=
  firstPrimes.map (rootBits 3)

/-- `H⁽⁰⁾`: from the square roots of the first eight primes. -/
def initialWords : List UInt32 :=
  (firstPrimes.take 8).map (rootBits 2)

/-- Trial division finds the primes below the square of eighteen. -/
theorem prime_iff_trial {n : Nat} (hn : n < 324) :
    n.Prime ↔ 2 ≤ n ∧ ∀ m < 18, 2 ≤ m → m * m ≤ n → n % m ≠ 0 := by
  rw [Nat.prime_def_le_sqrt]
  refine and_congr_right fun _ => ⟨?_, ?_⟩
  · intro h m _ hm hsq hmod
    exact h m hm (Nat.le_sqrt.2 hsq) (Nat.dvd_of_mod_eq_zero hmod)
  · intro h m hm hsqrt hdvd
    have hsq := Nat.le_sqrt.1 hsqrt
    have hlt : m < 18 := by nlinarith
    exact h m hlt hm hsq (Nat.mod_eq_zero_of_dvd hdvd)

theorem firstPrimes_eq :
    firstPrimes =
      [2, 3, 5, 7, 11, 13, 17, 19, 23, 29, 31, 37, 41, 43, 47, 53, 59, 61, 67,
        71, 73, 79, 83, 89, 97, 101, 103, 107, 109, 113, 127, 131, 137, 139, 149,
        151, 157, 163, 167, 173, 179, 181, 191, 193, 197, 199, 211, 223, 227, 229,
        233, 239, 241, 251, 257, 263, 269, 271, 277, 281, 283, 293, 307, 311] := by
  have htrial : firstPrimes = (List.range 312).filter fun n =>
      decide (2 ≤ n ∧ ∀ m < 18, 2 ≤ m → m * m ≤ n → n % m ≠ 0) := by
    refine List.filter_congr fun n hn => decide_eq_decide.2 (prime_iff_trial ?_)
    exact (List.mem_range.1 hn).trans (by decide)
  rw [htrial]
  decide +kernel

/-! ## Compression -/

/-- The number a string of bytes writes in base 256, most significant first. -/
def beNat (bytes : List UInt8) : Nat :=
  bytes.foldl (fun n b => n * 256 + b.toNat) 0

/-- The last `k` bytes of a number, most significant first. -/
def beBytes (k n : Nat) : List UInt8 :=
  (List.range k).map fun i => UInt8.ofNat (n / 256 ^ (k - 1 - i))

@[simp]
theorem length_beBytes (k n : Nat) : (beBytes k n).length = k := by
  simp [beBytes]

/-- The sixteen words of a block. -/
def blockWords (block : List UInt8) : List UInt32 :=
  (blocks 4 block).map fun bytes => UInt32.ofNat (beNat bytes)

/-- `W_t`: the message schedule of a block. -/
def schedule (words : List UInt32) (t : Nat) : UInt32 :=
  if t < 16 then words.getD t 0
  else
    smallSigma1 (schedule words (t - 2)) + schedule words (t - 7) +
      smallSigma0 (schedule words (t - 15)) + schedule words (t - 16)
termination_by t

/-- The eight working variables. -/
structure Vars where
  a : UInt32
  b : UInt32
  c : UInt32
  d : UInt32
  e : UInt32
  f : UInt32
  g : UInt32
  h : UInt32
deriving DecidableEq

/-- The working variables start as the hash value so far. -/
def Vars.ofHash (hash : Vector UInt32 8) : Vars :=
  ⟨hash[0], hash[1], hash[2], hash[3], hash[4], hash[5], hash[6], hash[7]⟩

/-- The hash value with the working variables added, word by word. -/
def Vars.addTo (v : Vars) (hash : Vector UInt32 8) : Vector UInt32 8 :=
  #v[hash[0] + v.a, hash[1] + v.b, hash[2] + v.c, hash[3] + v.d,
    hash[4] + v.e, hash[5] + v.f, hash[6] + v.g, hash[7] + v.h]

theorem hash_toList (hash : Vector UInt32 8) :
    hash.toList = [hash[0], hash[1], hash[2], hash[3], hash[4], hash[5], hash[6], hash[7]] := by
  apply List.ext_getElem
  · simp
  · intro i hi hi'
    rw [Vector.length_toList] at hi
    interval_cases i <;> simp

/-- One round, with its constant and its word of the schedule. -/
def round (v : Vars) (k w : UInt32) : Vars :=
  let t1 := v.h + bigSigma1 v.e + ch v.e v.f v.g + k + w
  let t2 := bigSigma0 v.a + maj v.a v.b v.c
  ⟨t1 + t2, v.a, v.b, v.c, v.d + t1, v.e, v.f, v.g⟩

/-- The sixty-four rounds on one block. -/
def rounds (v : Vars) (words : List UInt32) : Vars :=
  (List.range 64).foldl
    (fun v t => round v (roundConstants.getD t 0) (schedule words t)) v

/-- The hash value after one more block. -/
def compress (hash : Vector UInt32 8) (block : List UInt8) : Vector UInt32 8 :=
  (rounds (Vars.ofHash hash) (blockWords block)).addTo hash

/-! ## The digest -/

/-- `H⁽⁰⁾` as a hash value. -/
def initial : Vector UInt32 8 :=
  Vector.ofFn fun i => initialWords.getD i 0

/-- How many zero bytes the padding of a message of `n` bytes has. -/
def padZeros (n : Nat) : Nat :=
  (119 - n % 64) % 64

/-- The padding: a one bit, zeros, and the bit length in eight bytes. -/
def pad (m : List UInt8) : List UInt8 :=
  m ++ [0x80] ++ List.replicate (padZeros m.length) 0 ++ beBytes 8 (8 * m.length)

/-- The hash value after the complete blocks of a string. -/
def hashBlocks (m : List UInt8) : Vector UInt32 8 :=
  (blocks 64 m).foldl compress initial

/-- The digest of a message. -/
def digest (m : List UInt8) : List UInt8 :=
  (hashBlocks (pad m)).toList.flatMap fun word => beBytes 4 word.toNat

/-- The digest in lower-case hexadecimal. -/
def hexDigest (m : List UInt8) : CStr :=
  (digest m).flatMap fun b =>
    [CStr.digit (b.toNat / 16), CStr.digit (b.toNat % 16)]

@[simp]
theorem length_digest (m : List UInt8) : (digest m).length = 32 := by
  simp [digest, List.length_flatMap]

@[simp]
theorem length_hexDigest (m : List UInt8) : (hexDigest m).length = 64 := by
  simp [hexDigest, List.length_flatMap]

/-- The zeros are the fewest that leave room for exactly the length in a block. -/
theorem padZeros_spec (n : Nat) :
    padZeros n < 64 ∧ (n + 1 + padZeros n) % 64 = 56 := by
  unfold padZeros
  omega

theorem hashBlocks_nil : hashBlocks [] = initial := by
  rw [hashBlocks, blocks_of_lt (by decide), List.foldl_nil]

/-- A string that does not complete a block leaves the hash value alone. -/
theorem hashBlocks_append_of_lt {m data : List UInt8}
    (h : (rest 64 m).length + data.length < 64) :
    hashBlocks (m ++ data) = hashBlocks m := by
  rw [← List.length_append] at h
  rw [hashBlocks, blocks_append, blocks_of_lt h, List.append_nil, hashBlocks]

/-- A string that completes a block is compressed with the rest before it. -/
theorem hashBlocks_append_of_eq {m data : List UInt8}
    (h : (rest 64 m).length + data.length = 64) :
    hashBlocks (m ++ data) = compress (hashBlocks m) (rest 64 m ++ data) := by
  rw [← List.length_append] at h
  rw [hashBlocks, blocks_append, blocks_of_length_eq (by decide) h,
    List.foldl_append, List.foldl_cons, List.foldl_nil, hashBlocks]

end Sha256
end Foundation
