import Anticheat.Foundation.Sha256Eval
import Mathlib.Tactic

/-!
# The daemon's SHA-256

The streaming hash of `sha256.c`, loop by loop: the schedule array that a block
fills, the update loop that copies into the buffer and compresses it when it is
full, and the padding that `ac_sha256_final` writes one byte at a time.

A context is described by the message that went into it: {lit}`Streamed` says that
the hash words are the fold over the complete blocks of the message, that the
buffer holds the rest, and that the length counter is the length.  Every update
extends the message, and the padding is a sequence of updates.

The loops that C leaves unbounded run on fuel here, with `none` for a loop that
has not ended; the theorems give the result, so the fuel suffices.

Main results:

- Theorem {lit}`acSha256Block_eq`: the block function is the compression function of
  the standard.
- Theorem {lit}`Streamed.update`: an update appends its data to the message.
- Theorem {lit}`sha256_any_chunking`: every chunking of a message gives its digest.
-/

namespace Anticheat

open Foundation

/-! ## The block function -/

/-- The table `K`. -/
def K : Vector UInt32 64 :=
  #v[0x428a2f98, 0x71374491, 0xb5c0fbcf, 0xe9b5dba5, 0x3956c25b, 0x59f111f1,
    0x923f82a4, 0xab1c5ed5, 0xd807aa98, 0x12835b01, 0x243185be, 0x550c7dc3,
    0x72be5d74, 0x80deb1fe, 0x9bdc06a7, 0xc19bf174, 0xe49b69c1, 0xefbe4786,
    0x0fc19dc6, 0x240ca1cc, 0x2de92c6f, 0x4a7484aa, 0x5cb0a9dc, 0x76f988da,
    0x983e5152, 0xa831c66d, 0xb00327c8, 0xbf597fc7, 0xc6e00bf3, 0xd5a79147,
    0x06ca6351, 0x14292967, 0x27b70a85, 0x2e1b2138, 0x4d2c6dfc, 0x53380d13,
    0x650a7354, 0x766a0abb, 0x81c2c92e, 0x92722c85, 0xa2bfe8a1, 0xa81a664b,
    0xc24b8b70, 0xc76c51a3, 0xd192e819, 0xd6990624, 0xf40e3585, 0x106aa070,
    0x19a4c116, 0x1e376c08, 0x2748774c, 0x34b0bcb5, 0x391c0cb3, 0x4ed8aa4a,
    0x5b9cca4f, 0x682e6ff3, 0x748f82ee, 0x78a5636f, 0x84c87814, 0x8cc70208,
    0x90befffa, 0xa4506ceb, 0xbef9a3f7, 0xc67178f2]

/-- `ac_sha256_ctx`. -/
structure AcSha256Ctx where
  h : Vector UInt32 8
  len : UInt64
  buf : Vector UInt8 64
  buflen : Nat
deriving DecidableEq

/-- `rotr`. -/
def rotr (x n : UInt32) : UInt32 :=
  (x >>> n) ||| (x <<< (32 - n))

/-- `be32(p + off)`. -/
def be32 (p : Vector UInt8 64) (off : Nat) : UInt32 :=
  ((p.getD off 0).toUInt32 <<< 24) ||| ((p.getD (off + 1) 0).toUInt32 <<< 16) |||
    ((p.getD (off + 2) 0).toUInt32 <<< 8) ||| (p.getD (off + 3) 0).toUInt32

/-- The body of the loop that reads the block into the schedule. -/
def loadWord (p : Vector UInt8 64) (w : Vector UInt32 64) (i : Nat) :
    Vector UInt32 64 :=
  w.setIfInBounds i (be32 p (i * 4))

/-- The body of the loop that extends the schedule. -/
def extendWord (w : Vector UInt32 64) (i : Nat) : Vector UInt32 64 :=
  let s0 := rotr (w.getD (i - 15) 0) 7 ^^^ rotr (w.getD (i - 15) 0) 18 ^^^
    (w.getD (i - 15) 0 >>> 3)
  let s1 := rotr (w.getD (i - 2) 0) 17 ^^^ rotr (w.getD (i - 2) 0) 19 ^^^
    (w.getD (i - 2) 0 >>> 10)
  w.setIfInBounds i (w.getD (i - 16) 0 + s0 + w.getD (i - 7) 0 + s1)

/-- The array `w` after both loops.  It starts uninitialised in the source; no
entry is read before it is written. -/
def blockSchedule (p : Vector UInt8 64) : Vector UInt32 64 :=
  (List.range' 16 48).foldl extendWord
    ((List.range' 0 16).foldl (loadWord p) (Vector.replicate 64 0))

/-- The body of the round loop, on the local variables. -/
def roundBody (w : Vector UInt32 64) (r : Sha256.Vars) (i : Nat) : Sha256.Vars :=
  let S1 := rotr r.e 6 ^^^ rotr r.e 11 ^^^ rotr r.e 25
  let ch := (r.e &&& r.f) ^^^ (~~~r.e &&& r.g)
  let t1 := r.h + S1 + ch + K.getD i 0 + w.getD i 0
  let S0 := rotr r.a 2 ^^^ rotr r.a 13 ^^^ rotr r.a 22
  let maj := (r.a &&& r.b) ^^^ (r.a &&& r.c) ^^^ (r.b &&& r.c)
  let t2 := S0 + maj
  { h := r.g, g := r.f, f := r.e, e := r.d + t1,
    d := r.c, c := r.b, b := r.a, a := t1 + t2 }

/-- The local variables after the round loop. -/
def blockRounds (h : Vector UInt32 8) (w : Vector UInt32 64) : Sha256.Vars :=
  (List.range 64).foldl (roundBody w)
    { a := h.get 0, b := h.get 1, c := h.get 2, d := h.get 3,
      e := h.get 4, f := h.get 5, g := h.get 6, h := h.get 7 }

/-- The additions to the hash words at the end of `ac_sha256_block`. -/
def addWords (h : Vector UInt32 8) (r : Sha256.Vars) : Vector UInt32 8 :=
  #v[h.get 0 + r.a, h.get 1 + r.b, h.get 2 + r.c, h.get 3 + r.d,
    h.get 4 + r.e, h.get 5 + r.f, h.get 6 + r.g, h.get 7 + r.h]

/-- `ac_sha256_block`. -/
def acSha256Block (c : AcSha256Ctx) (p : Vector UInt8 64) : AcSha256Ctx :=
  { c with h := addWords c.h (blockRounds c.h (blockSchedule p)) }

/-! ## Streaming -/

/-- `ac_sha256_init`, which leaves the buffer as it finds it. -/
def acSha256Init (c : AcSha256Ctx) : AcSha256Ctx :=
  { c with
    h := #v[0x6a09e667, 0xbb67ae85, 0x3c6ef372, 0xa54ff53a,
      0x510e527f, 0x9b05688c, 0x1f83d9ab, 0x5be0cd19]
    len := 0
    buflen := 0 }

/-- `memcpy(buf + start, src, …)` inside an array. -/
def memcpy {n : Nat} (buf : Vector UInt8 n) (start : Nat) (src : List UInt8) :
    Vector UInt8 n :=
  Vector.ofFn fun i =>
    if start ≤ i.val ∧ i.val < start + src.length then src.getD (i.val - start) 0
    else buf[i]

/-- The body of the loop of `ac_sha256_update`, with the data left after it. -/
def updateBody (c : AcSha256Ctx) (p : List UInt8) : AcSha256Ctx × List UInt8 :=
  let room := 64 - c.buflen
  let take := if room > p.length then p.length else room
  let c1 := { c with
    buf := memcpy c.buf c.buflen (p.take take)
    buflen := c.buflen + take }
  if c1.buflen = 64 then
    ({ acSha256Block c1 c1.buf with buflen := 0 }, p.drop take)
  else
    (c1, p.drop take)

/-- The loop of `ac_sha256_update`. -/
def updateLoop : Nat → AcSha256Ctx → List UInt8 → Option AcSha256Ctx
  | _, c, [] => some c
  | 0, _, _ :: _ => none
  | fuel + 1, c, b :: p =>
      updateLoop fuel (updateBody c (b :: p)).1 (updateBody c (b :: p)).2

/-- `ac_sha256_update`. -/
def acSha256Update (c : AcSha256Ctx) (data : List UInt8) : Option AcSha256Ctx :=
  updateLoop data.length { c with len := c.len + UInt64.ofNat data.length } data

/-- The padding loop of `ac_sha256_final`. -/
def padLoop : Nat → AcSha256Ctx → Option AcSha256Ctx
  | 0, c => if c.buflen = 56 then some c else none
  | fuel + 1, c =>
      if c.buflen = 56 then some c
      else (acSha256Update c [0]).bind (padLoop fuel)

/-- The bytes of the length field. -/
def lenbuf (bits : UInt64) : List UInt8 :=
  (List.range 8).map fun i => (bits >>> UInt64.ofNat (56 - i * 8)).toUInt8

/-- The bytes that one hash word contributes to the output. -/
def wordBytes (word : UInt32) : List UInt8 :=
  [(word >>> 24).toUInt8, (word >>> 16).toUInt8, (word >>> 8).toUInt8, word.toUInt8]

/-- `ac_sha256_final`. -/
def acSha256Final (c : AcSha256Ctx) : Option (List UInt8) := do
  -- The padding moves `c->len` too, so the bit length is taken first.
  let bits := c.len * 8
  let c ← acSha256Update c [0x80]
  let c ← padLoop 64 c
  let c ← acSha256Update c (lenbuf bits)
  return c.h.toList.flatMap wordBytes

/-- The updates with a list of chunks, one after the other. -/
def acSha256Updates (c : AcSha256Ctx) (chunks : List (List UInt8)) :
    Option AcSha256Ctx :=
  chunks.foldlM acSha256Update c

/-- The table `hexd`. -/
def hexd : CStr :=
  CStr.ascii "0123456789abcdef"

/-- A context that nothing has been written to. -/
def AcSha256Ctx.uninit : AcSha256Ctx :=
  ⟨Vector.replicate 8 0, 0, Vector.replicate 64 0, 0⟩

/-- The loop that writes a digest in hexadecimal. -/
def hexOut (d : List UInt8) : CStr :=
  d.flatMap fun b : UInt8 => [hexd.getD (b >>> 4).toNat 0, hexd.getD (b &&& 0xf).toNat 0]

/-- `ac_sha256_hex`. -/
def acSha256Hex (buf : List UInt8) : Option CStr := do
  let c ← acSha256Update (acSha256Init .uninit) buf
  let d ← acSha256Final c
  return hexOut d

/-! ## The block function computes the compression function -/

/-- The table is the one the standard derives from cube roots of primes. -/
theorem K_toList : K.toList = Sha256.roundConstants := by
  rw [Sha256.roundConstants, Sha256.firstPrimes_eq]
  decide +kernel

theorem K_getD (t : Nat) : K.getD t 0 = Sha256.roundConstants.getD t 0 := by
  rw [← K_toList]
  simp [Vector.getD, Array.getD_eq_getD_getElem?]

theorem acSha256Init_h (c : AcSha256Ctx) :
    (acSha256Init c).h = Sha256.initial := by
  rw [acSha256Init, Sha256.initial, Sha256.initialWords, Sha256.firstPrimes_eq]
  dsimp only
  decide +kernel

theorem rotr_eq (x n : UInt32) (hpos : 0 < n.toNat) (hlt : n.toNat < 32) :
    rotr x n = Sha256.rotr n.toNat x := by
  have hleft : (4294967296 - n.toNat) % 32 = 32 - n.toNat % 32 := by omega
  apply UInt32.toBitVec_inj.mp
  simp [rotr, Sha256.rotr, BitVec.rotateRight, BitVec.rotateRightAux, hleft]

theorem shr_eq (x n : UInt32) (hlt : n.toNat < 32) :
    x >>> n = Sha256.shr n.toNat x := by
  apply UInt32.toBitVec_inj.mp
  simp [Sha256.shr, Nat.mod_eq_of_lt hlt]

/-- One more byte at the end of a number is a shift and an or. -/
theorem shift_or_byte (n : Nat) (b : UInt8) :
    n * 256 + b.toNat = n <<< 8 ||| b.toNat := by
  rw [← Nat.shiftLeft_add_eq_or_of_lt b.toNat_lt, Nat.shiftLeft_eq]

/-- Four shifted bytes are the number they write in base 256. -/
theorem shifted_bytes_eq (a b c d : UInt8) :
    (a.toUInt32 <<< 24) ||| (b.toUInt32 <<< 16) ||| (c.toUInt32 <<< 8) ||| d.toUInt32 =
      UInt32.ofNat (Sha256.beNat [a, b, c, d]) := by
  have hbe : Sha256.beNat [a, b, c, d] =
      a.toNat <<< 24 ||| b.toNat <<< 16 ||| c.toNat <<< 8 ||| d.toNat := by
    simp only [Sha256.beNat, List.foldl_cons, List.foldl_nil, shift_or_byte,
      Nat.shiftLeft_or_distrib, ← Nat.shiftLeft_add]
    simp
  apply UInt32.toNat_inj.mp
  rw [hbe]
  simp

theorem getD_eq_getElem (p : Vector UInt8 64) {i : Nat} (hi : i < p.toList.length) :
    p.getD i 0 = p.toList[i] := by
  rw [Vector.length_toList] at hi
  simp [Vector.getD, hi]

theorem be32_eq (p : Vector UInt8 64) (i : Nat) (hi : i < 16) :
    be32 p (i * 4) = (Sha256.blockWords p.toList).getD i 0 := by
  have hblock : (blocks 4 p.toList)[i]? = some ((p.toList.drop (i * 4)).take 4) :=
    blocks_getElem? (by decide) _ _ (by rw [Vector.length_toList]; omega)
  have hbytes : (p.toList.drop (i * 4)).take 4 =
      [p.getD (i * 4) 0, p.getD (i * 4 + 1) 0, p.getD (i * 4 + 2) 0,
        p.getD (i * 4 + 3) 0] := by
    have hlen : i * 4 + 3 < p.toList.length := by
      rw [Vector.length_toList]
      omega
    rw [List.drop_eq_getElem_cons (by omega), List.drop_eq_getElem_cons (by omega),
      List.drop_eq_getElem_cons (by omega), List.drop_eq_getElem_cons hlen,
      getD_eq_getElem p (by omega), getD_eq_getElem p (by omega),
      getD_eq_getElem p (by omega), getD_eq_getElem p hlen]
    simp only [List.take_succ_cons, List.take_zero, Nat.add_assoc, Nat.reduceAdd]
  rw [be32, shifted_bytes_eq, Sha256.blockWords, List.getD_eq_getElem?_getD,
    List.getElem?_map, hblock, hbytes]
  rfl

/-- The first `k` entries of the array are those of the message schedule. -/
def Filled (words : List UInt32) (k : Nat) (w : Vector UInt32 64) : Prop :=
  ∀ t < k, w.getD t 0 = Sha256.schedule words t

theorem Filled.set {words : List UInt32} {k : Nat} {w : Vector UInt32 64}
    {x : UInt32} (hw : Filled words k w) (hk : k < 64)
    (hx : x = Sha256.schedule words k) :
    Filled words (k + 1) (w.setIfInBounds k x) := by
  intro t ht
  by_cases htk : t = k
  · subst htk
    simp [Vector.getD, hk, hx]
  · rw [← hw t (by omega)]
    simp [Vector.getD, Ne.symm htk]

/-- A loop that fills one entry after the other fills them all. -/
theorem Filled.loop {words : List UInt32}
    (body : Vector UInt32 64 → Nat → Vector UInt32 64) (n : Nat) {start : Nat} {w : Vector UInt32 64} (hw : Filled words start w)
    (hbody : ∀ i w, start ≤ i → i < start + n → Filled words i w →
      Filled words (i + 1) (body w i)) :
    Filled words (start + n) ((List.range' start n).foldl body w) := by
  induction n generalizing start w with
  | zero => exact hw
  | succ n ih =>
      have hnext := ih (hbody start w le_rfl (by omega) hw) fun i w hle hlt =>
        hbody i w (by omega) (by omega)
      rw [List.range'_succ, List.foldl_cons]
      rwa [show start + (n + 1) = start + 1 + n by omega]

theorem Filled.loadWord {p : Vector UInt8 64} {i : Nat} {w : Vector UInt32 64}
    (hi : i < 16) (hw : Filled (Sha256.blockWords p.toList) i w) :
    Filled (Sha256.blockWords p.toList) (i + 1) (loadWord p w i) := by
  apply hw.set (by omega)
  rw [be32_eq p i hi, Sha256.schedule, if_pos hi]

theorem Filled.extendWord {words : List UInt32} {i : Nat} {w : Vector UInt32 64}
    (hge : 16 ≤ i) (hlt : i < 64) (hw : Filled words i w) :
    Filled words (i + 1) (extendWord w i) := by
  apply hw.set hlt
  rw [hw (i - 15) (by omega), hw (i - 2) (by omega), hw (i - 16) (by omega),
    hw (i - 7) (by omega), Sha256.schedule.eq_def words i, if_neg (by omega)]
  simp only [rotr_eq _ 7 (by decide) (by decide), rotr_eq _ 18 (by decide) (by decide),
    rotr_eq _ 17 (by decide) (by decide), rotr_eq _ 19 (by decide) (by decide),
    shr_eq _ 3 (by decide), shr_eq _ 10 (by decide)]
  rw [show ∀ a b c d : UInt32, a + b + c + d = d + c + b + a by intros; ac_rfl]
  rfl

/-- The array holds the whole message schedule when the rounds start. -/
theorem blockSchedule_filled (p : Vector UInt8 64) :
    Filled (Sha256.blockWords p.toList) 64 (blockSchedule p) := by
  have hzero : Filled (Sha256.blockWords p.toList) 0 (Vector.replicate 64 0) :=
    fun t ht => absurd ht (by omega)
  have hload := Filled.loop (loadWord p) 16 hzero
    fun i w _ hlt hw => hw.loadWord (by omega)
  exact Filled.loop extendWord 48 hload
    fun i w hge hlt hw => hw.extendWord hge (by omega)

theorem roundBody_eq {words : List UInt32} {w : Vector UInt32 64}
    (hw : Filled words 64 w) (r : Sha256.Vars) {i : Nat} (hi : i < 64) :
    roundBody w r i =
      Sha256.round r (Sha256.roundConstants.getD i 0) (Sha256.schedule words i) := by
  simp only [roundBody, K_getD, hw i hi,
    rotr_eq _ 6 (by decide) (by decide), rotr_eq _ 11 (by decide) (by decide),
    rotr_eq _ 25 (by decide) (by decide), rotr_eq _ 2 (by decide) (by decide),
    rotr_eq _ 13 (by decide) (by decide), rotr_eq _ 22 (by decide) (by decide)]
  rfl

theorem blockRounds_eq (h : Vector UInt32 8) (p : Vector UInt8 64) :
    blockRounds h (blockSchedule p) =
      Sha256.rounds (Sha256.Vars.ofHash h) (Sha256.blockWords p.toList) := by
  apply List.foldl_ext
  intro r i hi
  exact roundBody_eq (blockSchedule_filled p) r (List.mem_range.mp hi)

theorem addWords_eq (h : Vector UInt32 8) (r : Sha256.Vars) :
    addWords h r = r.addTo h :=
  rfl

/-- `ac_sha256_block` compresses the block into the hash words and changes
nothing else. -/
theorem acSha256Block_eq (c : AcSha256Ctx) (p : Vector UInt8 64) :
    acSha256Block c p = { c with h := Sha256.compress c.h p.toList } := by
  rw [acSha256Block, blockRounds_eq, Sha256.compress, addWords_eq]

/-! ## The streaming invariant -/

/-- The copied bytes follow what the buffer held before them. -/
theorem take_memcpy {n : Nat} (buf : Vector UInt8 n) (start : Nat)
    (src : List UInt8) (h : start + src.length ≤ n) :
    (memcpy buf start src).toList.take (start + src.length) =
      buf.toList.take start ++ src := by
  apply List.ext_getElem
  · simp only [List.length_take, List.length_append, Vector.length_toList]
    omega
  · intro j hleft hright
    rw [List.length_take, Vector.length_toList] at hleft
    simp only [List.getElem_take, Vector.getElem_toList, memcpy, Vector.getElem_ofFn]
    rw [List.getElem_append]
    by_cases hj : j < start
    · rw [if_neg (by omega), dif_pos (by simp; omega)]
      simp
    · rw [if_pos (by omega), dif_neg (by simp; omega)]
      have hsrc : j - start < src.length := by omega
      simp [hsrc, show min start n = start by omega]

/-- The context has absorbed the message `m`. -/
structure Absorbed (m : List UInt8) (c : AcSha256Ctx) : Prop where
  hash : c.h = Sha256.hashBlocks m
  pending : c.buf.toList.take c.buflen = rest 64 m
  buflen : c.buflen = m.length % 64

theorem Absorbed.init (c : AcSha256Ctx) : Absorbed [] (acSha256Init c) := by
  refine ⟨?_, ?_, rfl⟩
  · rw [acSha256Init_h, Sha256.hashBlocks_nil]
  · rw [rest_of_lt (by decide)]
    rfl

theorem Absorbed.buflen_lt {m : List UInt8} {c : AcSha256Ctx} (h : Absorbed m c) :
    c.buflen < 64 := by
  rw [h.buflen]
  exact Nat.mod_lt _ (by decide)

theorem Absorbed.length_rest {m : List UInt8} {c : AcSha256Ctx} (h : Absorbed m c) :
    (rest 64 m).length = c.buflen := by
  rw [Foundation.length_rest (by decide), h.buflen]

/-- Data that does not fill the buffer is only copied. -/
theorem updateBody_short {c : AcSha256Ctx} {p : List UInt8}
    (h : c.buflen + p.length < 64) :
    updateBody c p =
      ({ c with buf := memcpy c.buf c.buflen p, buflen := c.buflen + p.length }, []) := by
  simp only [updateBody, if_pos (show 64 - c.buflen > p.length by omega),
    List.take_length, List.drop_length, if_neg h.ne]

/-- Data that fills the buffer has its first part compressed. -/
theorem updateBody_full {c : AcSha256Ctx} {p : List UInt8} (hlt : c.buflen < 64)
    (h : 64 ≤ c.buflen + p.length) :
    updateBody c p =
      ({ c with
          h := Sha256.compress c.h
            (memcpy c.buf c.buflen (p.take (64 - c.buflen))).toList
          buf := memcpy c.buf c.buflen (p.take (64 - c.buflen))
          buflen := 0 },
        p.drop (64 - c.buflen)) := by
  simp only [updateBody, if_neg (show ¬64 - c.buflen > p.length by omega),
    if_pos (show c.buflen + (64 - c.buflen) = 64 by omega), acSha256Block_eq]

/-- One pass of the update loop absorbs a nonempty part of the data. -/
theorem Absorbed.updateBody {m p : List UInt8} {c : AcSha256Ctx} (h : Absorbed m c)
    (hp : p ≠ []) :
    ∃ taken, taken ≠ [] ∧ p = taken ++ (updateBody c p).2 ∧
      Absorbed (m ++ taken) (updateBody c p).1 ∧ (updateBody c p).1.len = c.len := by
  have hlt := h.buflen_lt
  have hrest := h.length_rest
  have hmod := h.buflen
  by_cases hfill : c.buflen + p.length < 64
  · have hcopy := take_memcpy c.buf c.buflen p hfill.le
    rw [updateBody_short hfill]
    refine ⟨p, hp, (List.append_nil p).symm, ⟨?_, ?_, ?_⟩, rfl⟩
    · rw [Sha256.hashBlocks_append_of_lt (by omega)]
      exact h.hash
    · rw [rest_append, rest_of_lt (by rw [List.length_append]; omega), ← h.pending]
      exact hcopy
    · rw [List.length_append]
      dsimp only
      omega
  · have hlen : (p.take (64 - c.buflen)).length = 64 - c.buflen := by
      rw [List.length_take]
      omega
    have hblock : (memcpy c.buf c.buflen (p.take (64 - c.buflen))).toList =
        rest 64 m ++ p.take (64 - c.buflen) := by
      have hcopy := take_memcpy c.buf c.buflen (p.take (64 - c.buflen)) (by omega)
      rwa [h.pending, List.take_of_length_le (by rw [Vector.length_toList]; omega)]
        at hcopy
    have hsum : (rest 64 m ++ p.take (64 - c.buflen)).length = 64 := by
      rw [List.length_append]
      omega
    rw [updateBody_full hlt (by omega), hblock]
    refine ⟨p.take (64 - c.buflen), ?_, (List.take_append_drop _ p).symm, ⟨?_, ?_, ?_⟩, rfl⟩
    · rw [← List.length_pos_iff]
      omega
    · rw [Sha256.hashBlocks_append_of_eq (by omega), ← h.hash]
    · rw [rest_append, rest_of_length_eq (by decide) hsum]
      rfl
    · rw [List.length_append]
      dsimp only
      omega

/-- The update loop ends within one pass for each byte and absorbs the data. -/
theorem Absorbed.updateLoop {fuel : Nat} {m p : List UInt8} {c : AcSha256Ctx}
    (h : Absorbed m c) (hfuel : p.length ≤ fuel) :
    ∃ c', updateLoop fuel c p = some c' ∧ Absorbed (m ++ p) c' ∧ c'.len = c.len := by
  induction fuel generalizing m p c with
  | zero =>
      obtain rfl : p = [] := List.length_eq_zero_iff.mp (by omega)
      exact ⟨c, rfl, by rwa [List.append_nil], rfl⟩
  | succ fuel ih =>
      cases p with
      | nil => exact ⟨c, rfl, by rwa [List.append_nil], rfl⟩
      | cons b p =>
          obtain ⟨taken, htaken, hsplit, hbody, hlen⟩ :=
            h.updateBody (List.cons_ne_nil b p)
          have hshort : (Anticheat.updateBody c (b :: p)).2.length ≤ fuel := by
            have hsum := congrArg List.length hsplit
            have hpos := List.length_pos_iff.mpr htaken
            rw [List.length_append] at hsum
            omega
          obtain ⟨c', hrun, habs, hlen'⟩ := ih hbody hshort
          refine ⟨c', hrun, ?_, hlen'.trans hlen⟩
          rw [List.append_assoc, ← hsplit] at habs
          exact habs

/-- The context is what the updates with the message `m` leave. -/
structure Streamed (m : List UInt8) (c : AcSha256Ctx) : Prop extends Absorbed m c where
  len : c.len = UInt64.ofNat m.length

theorem Streamed.init (c : AcSha256Ctx) : Streamed [] (acSha256Init c) :=
  ⟨Absorbed.init c, rfl⟩

/-- An update appends its data to the message. -/
theorem Streamed.update {m : List UInt8} {c : AcSha256Ctx} (h : Streamed m c)
    (data : List UInt8) :
    ∃ c', acSha256Update c data = some c' ∧ Streamed (m ++ data) c' := by
  have hstart : Absorbed m { c with len := c.len + UInt64.ofNat data.length } :=
    ⟨h.hash, h.pending, h.buflen⟩
  obtain ⟨c', hrun, habs, hlen⟩ := hstart.updateLoop le_rfl
  refine ⟨c', hrun, habs, ?_⟩
  rw [hlen, h.len, List.length_append, UInt64.ofNat_add]

theorem Streamed.updates {m : List UInt8} {c : AcSha256Ctx} (h : Streamed m c)
    (chunks : List (List UInt8)) :
    ∃ c', acSha256Updates c chunks = some c' ∧ Streamed (m ++ chunks.flatten) c' := by
  induction chunks generalizing m c with
  | nil => exact ⟨c, rfl, by simpa using h⟩
  | cons data chunks ih =>
      obtain ⟨c1, hupdate, hc1⟩ := h.update data
      obtain ⟨c2, hupdates, hc2⟩ := ih hc1
      refine ⟨c2, ?_, by simpa using hc2⟩
      rw [acSha256Updates, List.foldlM_cons, hupdate]
      exact hupdates

/-- The padding loop stops after as many zeros as bring the buffer to 56 bytes. -/
theorem Streamed.padLoop {zeros fuel : Nat} {m : List UInt8} {c : AcSha256Ctx}
    (h : Streamed m c) (hlt : zeros < 64) (hfuel : zeros ≤ fuel)
    (hend : (m.length + zeros) % 64 = 56) :
    ∃ c', padLoop fuel c = some c' ∧ Streamed (m ++ List.replicate zeros 0) c' := by
  induction zeros generalizing fuel m c with
  | zero =>
      have hstop : c.buflen = 56 := h.buflen.trans hend
      refine ⟨c, ?_, by simpa using h⟩
      cases fuel <;> rw [Anticheat.padLoop, if_pos hstop]
  | succ zeros ih =>
      have hgo : c.buflen ≠ 56 := by
        rw [h.buflen]
        omega
      obtain ⟨c1, hupdate, hc1⟩ := h.update [0]
      cases fuel with
      | zero => omega
      | succ fuel =>
          obtain ⟨c2, hrun, hc2⟩ := ih hc1 (by omega) (Nat.le_of_succ_le_succ hfuel)
            (by rw [List.length_append, List.length_singleton]; omega)
          refine ⟨c2, ?_, ?_⟩
          · rw [Anticheat.padLoop, if_neg hgo, hupdate]
            exact hrun
          · rw [List.replicate_succ]
            simpa using hc2

/-! ## The result -/

/-- The length field holds the length in bits, modulo `2 ^ 64` as the counter does. -/
theorem lenbuf_eq (n : Nat) :
    lenbuf (UInt64.ofNat n * 8) = Sha256.beBytes 8 (8 * n) := by
  have hbits : (UInt64.ofNat n * 8).toNat = 8 * n % 2 ^ 64 := by
    simp
    omega
  unfold lenbuf Sha256.beBytes
  apply List.map_congr_left
  intro i hi
  have hi := List.mem_range.mp hi
  have hshift : (UInt64.ofNat (56 - i * 8)).toNat % 64 = 8 * (8 - 1 - i) := by
    simp
    omega
  -- the wrap drops bits above those that any of the eight bytes shows
  have hbyte : 8 * n % 2 ^ 64 / 256 ^ (8 - 1 - i) % 256 = 8 * n / 256 ^ (8 - 1 - i) % 256 := by
    have hsplit : 2 ^ 64 = 256 ^ (8 - 1 - i) * 256 ^ (i + 1) := by
      rw [← pow_add, show 8 - 1 - i + (i + 1) = 8 by omega]
      norm_num
    rw [hsplit, Nat.mod_mul_right_div_self]
    exact Nat.mod_mod_of_dvd _ (dvd_pow_self 256 (Nat.succ_ne_zero i))
  apply UInt8.toNat_inj.mp
  rw [UInt64.toNat_toUInt8, UInt64.toNat_shiftRight, hbits, hshift,
    Nat.shiftRight_eq_div_pow, pow_mul]
  exact hbyte

theorem wordBytes_eq (word : UInt32) :
    wordBytes word = Sha256.beBytes 4 word.toNat := by
  simp [wordBytes, Sha256.beBytes, List.range_succ, ← UInt8.toNat_inj, Nat.shiftRight_eq_div_pow]

/-- `ac_sha256_final` always returns, with the hash words of the padded message. -/
theorem Streamed.final_padded {m : List UInt8} {c : AcSha256Ctx} (h : Streamed m c) :
    acSha256Final c = some ((Sha256.hashBlocks (m ++ [0x80] ++
      List.replicate (Sha256.padZeros m.length) 0 ++ lenbuf (c.len * 8))).toList.flatMap
        wordBytes) := by
  obtain ⟨hlt, hend⟩ := Sha256.padZeros_spec m.length
  obtain ⟨c1, hone, hc1⟩ := h.update [0x80]
  obtain ⟨c2, hzeros, hc2⟩ := hc1.padLoop hlt hlt.le
    (by rw [List.length_append, List.length_singleton]; exact hend)
  obtain ⟨c3, hlen, hc3⟩ := hc2.update (lenbuf (c.len * 8))
  simp only [acSha256Final, hone, hzeros, hlen, Option.bind_eq_bind, Option.bind_some,
    hc3.hash]
  rfl

/-- `ac_sha256_final` returns the digest of the message. -/
theorem Streamed.final {m : List UInt8} {c : AcSha256Ctx} (h : Streamed m c) :
    acSha256Final c = some (Sha256.digest m) := by
  rw [h.final_padded, h.len, lenbuf_eq, Sha256.digest, Sha256.pad, funext wordBytes_eq]

theorem hexd_getD {d : Nat} (h : d < 16) : hexd.getD d 0 = CStr.digit d := by
  interval_cases d <;> decide

/-- The hexadecimal loop writes two lower-case digits for each byte. -/
theorem hexOut_eq (d : List UInt8) :
    hexOut d =
      d.flatMap fun b => [CStr.digit (b.toNat / 16), CStr.digit (b.toNat % 16)] := by
  unfold hexOut
  congr 1
  ext1 b
  have hb := b.toNat_lt
  have hshift : (b >>> 4).toNat = b.toNat / 16 := by
    simp [Nat.shiftRight_eq_div_pow]
  have hmask : (b &&& 0xf).toNat = b.toNat % 16 := by
    rw [UInt8.toNat_and]
    exact Nat.and_two_pow_sub_one_eq_mod b.toNat 4
  rw [hshift, hmask, hexd_getD (by omega), hexd_getD (by omega)]

/-- `ac_sha256_hex` writes the digest in lower-case hexadecimal. -/
theorem acSha256Hex_eq (m : List UInt8) :
    acSha256Hex m = some (Sha256.hexDigest m) := by
  obtain ⟨c, hupdate, hc⟩ := (Streamed.init .uninit).update m
  rw [List.nil_append] at hc
  simp only [acSha256Hex, hupdate, hc.final, Option.bind_eq_bind, Option.bind_some, hexOut_eq]
  rfl

/-- `ac_sha256_hex` always returns. -/
theorem acSha256Hex_isSome (m : List UInt8) : (acSha256Hex m).isSome = true := by
  rw [acSha256Hex_eq]
  rfl

/-- Every chunking of a message gives the digest of the message: the updates and
the finalisation end, the buffer is never full between two calls, and the one-shot
function writes the same digest in hexadecimal.  The standard is for messages of fewer
than `2 ^ 61` bytes; past that both length fields wrap alike. -/
theorem sha256_any_chunking (c : AcSha256Ctx) (m : List UInt8)
    (chunks : List (List UInt8)) (hsplit : chunks.flatten = m) :
    (∀ k, ∃ c', acSha256Updates (acSha256Init c) (chunks.take k) = some c' ∧
      c'.buflen < 64) ∧
      (acSha256Updates (acSha256Init c) chunks).bind acSha256Final =
        some (Sha256.digest m) ∧
      acSha256Hex m = some (Sha256.hexDigest m) := by
  refine ⟨fun k => ?_, ?_, acSha256Hex_eq m⟩
  · obtain ⟨c', hrun, hc'⟩ := (Streamed.init c).updates (chunks.take k)
    exact ⟨c', hrun, hc'.buflen_lt⟩
  · obtain ⟨c', hrun, hc'⟩ := (Streamed.init c).updates chunks
    rw [List.nil_append, hsplit] at hc'
    rw [hrun, Option.bind_some, hc'.final]

theorem sha256_abc_in_three_chunks :
    (acSha256Updates (acSha256Init .uninit) [[97], [], [98, 99]]).bind acSha256Final =
      some (Sha256.digest [97, 98, 99]) :=
  (sha256_any_chunking .uninit [97, 98, 99] [[97], [], [98, 99]] rfl).2.1

/-- A digest can be evaluated with the tables of the source. -/
theorem digest_eval {m : List UInt8} (bs : List (List UInt8)) (hbs : ∀ b ∈ bs, b.length = 64)
    (hpad : Sha256.pad m = bs.flatten) :
    Sha256.digest m =
      (bs.foldl (Sha256.Eval.compress (K.toList.map UInt32.toNat))
        ((acSha256Init .uninit).h.toList.map UInt32.toNat)).flatMap (Sha256.beBytes 4) := by
  rw [K_toList, acSha256Init_h, Sha256.Eval.digest_eq bs hbs hpad]

example :
    acSha256Hex (CStr.ascii "abc") = some (CStr.ascii
      "ba7816bf8f01cfea414140de5dae2223b00361a396177a9cb410ff61f20015ad") := by
  rw [acSha256Hex_eq, Sha256.hexDigest,
    digest_eval [[97, 98, 99, 0x80] ++ List.replicate 59 0 ++ [24]] (by decide) (by decide)]
  decide +kernel

end Anticheat
