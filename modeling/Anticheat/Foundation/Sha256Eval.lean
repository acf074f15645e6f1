import Anticheat.Foundation.Sha256
import Mathlib.Tactic

/-!
# Evaluating SHA-256 on natural numbers

The specification of SHA-256 is written for reading: its schedule is a recursion
and its words are machine words.  Here the same function is computed on natural
numbers, with a window of sixteen words in place of the schedule, so that digests
of concrete messages can be evaluated.

Main results:

- Theorem {lit}`Sha256.Eval.rounds_eq`: the rounds over a sliding window are the
  rounds over the schedule.
- Theorem {lit}`Sha256.Eval.digest_eq`: the evaluation of the padded message, block
  by block, is the digest.
-/

namespace Foundation
namespace Sha256
namespace Eval

/-! ## The evaluation -/

def rotr (n x : Nat) : Nat :=
  x >>> n ||| x <<< (32 - n) % 2 ^ 32

def ch (x y z : Nat) : Nat :=
  (x &&& y) ^^^ (2 ^ 32 - 1 - x &&& z)

def maj (x y z : Nat) : Nat :=
  (x &&& y) ^^^ (x &&& z) ^^^ (y &&& z)

def bigSigma0 (x : Nat) : Nat :=
  rotr 2 x ^^^ rotr 13 x ^^^ rotr 22 x

def bigSigma1 (x : Nat) : Nat :=
  rotr 6 x ^^^ rotr 11 x ^^^ rotr 25 x

def smallSigma0 (x : Nat) : Nat :=
  rotr 7 x ^^^ rotr 18 x ^^^ x >>> 3

def smallSigma1 (x : Nat) : Nat :=
  rotr 17 x ^^^ rotr 19 x ^^^ x >>> 10

/-- Addition of words. -/
def add (x y : Nat) : Nat :=
  (x + y) % 2 ^ 32

/-- The rounds with the given constants.  The list holds the next sixteen words of
the schedule; each round drops the first and appends the one after the last. -/
def rounds : List Nat → List Nat → Nat → Nat → Nat → Nat → Nat → Nat → Nat → Nat →
    List Nat
  | k :: ks, [w0, w1, w2, w3, w4, w5, w6, w7, w8, w9, w10, w11, w12, w13, w14, w15],
      a, b, c, d, e, f, g, h =>
      let t1 := add (add (add (add h (bigSigma1 e)) (ch e f g)) k) w0
      let t2 := add (bigSigma0 a) (maj a b c)
      let w16 := add (add (add (smallSigma1 w14) w9) (smallSigma0 w1)) w0
      rounds ks
        [w1, w2, w3, w4, w5, w6, w7, w8, w9, w10, w11, w12, w13, w14, w15, w16]
        (add t1 t2) a b c (add d t1) e f g
  | _, _, a, b, c, d, e, f, g, h => [a, b, c, d, e, f, g, h]

/-- The words of a string of bytes. -/
def words : List UInt8 → List Nat
  | a :: b :: c :: d :: rest =>
      (((a.toNat * 256 + b.toNat) * 256 + c.toNat) * 256 + d.toNat) :: words rest
  | _ => []

/-- The hash value after one more block. -/
def compress (ks : List Nat) (hash : List Nat) (block : List UInt8) : List Nat :=
  match hash with
  | [a, b, c, d, e, f, g, h] =>
      List.zipWith add hash (rounds ks (words block) a b c d e f g h)
  | _ => []

/-! ## The evaluation agrees with the standard -/

theorem toNat_rotr {n : Nat} (h : n < 32) (x : UInt32) :
    (Sha256.rotr n x).toNat = rotr n x.toNat := by
  rw [Sha256.rotr, UInt32.toNat_ofBitVec, BitVec.toNat_rotateRight, Nat.mod_eq_of_lt h]
  rfl

theorem toNat_add (x y : UInt32) : (x + y).toNat = add x.toNat y.toNat :=
  UInt32.toNat_add x y

theorem toNat_ch (x y z : UInt32) :
    (Sha256.ch x y z).toNat = ch x.toNat y.toNat z.toNat := by
  simp only [Sha256.ch, UInt32.toNat_xor, UInt32.toNat_and, UInt32.toNat_not]
  rfl

theorem toNat_maj (x y z : UInt32) :
    (Sha256.maj x y z).toNat = maj x.toNat y.toNat z.toNat := by
  simp only [Sha256.maj, UInt32.toNat_xor, UInt32.toNat_and]
  rfl

theorem toNat_bigSigma0 (x : UInt32) :
    (Sha256.bigSigma0 x).toNat = bigSigma0 x.toNat := by
  simp [Sha256.bigSigma0, toNat_rotr, bigSigma0]

theorem toNat_bigSigma1 (x : UInt32) :
    (Sha256.bigSigma1 x).toNat = bigSigma1 x.toNat := by
  simp [Sha256.bigSigma1, toNat_rotr, bigSigma1]

theorem toNat_shr (n : Nat) (x : UInt32) : (Sha256.shr n x).toNat = x.toNat >>> n := by
  simp [Sha256.shr]

theorem toNat_smallSigma0 (x : UInt32) :
    (Sha256.smallSigma0 x).toNat = smallSigma0 x.toNat := by
  simp [Sha256.smallSigma0, toNat_rotr, toNat_shr, smallSigma0]

theorem toNat_smallSigma1 (x : UInt32) :
    (Sha256.smallSigma1 x).toNat = smallSigma1 x.toNat := by
  simp [Sha256.smallSigma1, toNat_rotr, toNat_shr, smallSigma1]

/-- The sixteen words of the schedule from `t` on. -/
def window (ws : List UInt32) (t : Nat) : List Nat :=
  [(schedule ws t).toNat, (schedule ws (t + 1)).toNat, (schedule ws (t + 2)).toNat,
    (schedule ws (t + 3)).toNat, (schedule ws (t + 4)).toNat, (schedule ws (t + 5)).toNat,
    (schedule ws (t + 6)).toNat, (schedule ws (t + 7)).toNat, (schedule ws (t + 8)).toNat,
    (schedule ws (t + 9)).toNat, (schedule ws (t + 10)).toNat, (schedule ws (t + 11)).toNat,
    (schedule ws (t + 12)).toNat, (schedule ws (t + 13)).toNat, (schedule ws (t + 14)).toNat,
    (schedule ws (t + 15)).toNat]

/-- The working variables as numbers. -/
def values (v : Vars) : List Nat :=
  [v.a.toNat, v.b.toNat, v.c.toNat, v.d.toNat, v.e.toNat, v.f.toNat, v.g.toNat, v.h.toNat]

/-- The word after the window. -/
theorem toNat_schedule_next (ws : List UInt32) (t : Nat) :
    (schedule ws (t + 16)).toNat =
      add (add (add (smallSigma1 (schedule ws (t + 14)).toNat) (schedule ws (t + 9)).toNat)
        (smallSigma0 (schedule ws (t + 1)).toNat)) (schedule ws t).toNat := by
  rw [schedule.eq_def ws (t + 16), if_neg (by omega)]
  simp only [toNat_add, toNat_smallSigma0, toNat_smallSigma1]
  rfl

/-- The rounds over a sliding window are the rounds over the schedule. -/
theorem rounds_eq (ws : List UInt32) (ks : List UInt32) (t : Nat) (v : Vars)
    (hks : roundConstants.drop t = ks) :
    rounds (ks.map UInt32.toNat) (window ws t) v.a.toNat v.b.toNat v.c.toNat v.d.toNat
        v.e.toNat v.f.toNat v.g.toNat v.h.toNat =
      values ((List.range' t ks.length).foldl
        (fun v t => round v (roundConstants.getD t 0) (schedule ws t)) v) := by
  induction ks generalizing t v with
  | nil => rfl
  | cons k ks ih =>
      have hk : roundConstants.getD t 0 = k := by
        have hget := congrArg (fun l : List UInt32 => l[0]?) hks
        simp only [List.getElem?_drop, Nat.add_zero, List.getElem?_cons_zero] at hget
        rw [List.getD_eq_getElem?_getD, hget, Option.getD_some]
      have hrest : roundConstants.drop (t + 1) = ks := by
        rw [← List.drop_drop, hks, List.drop_one, List.tail_cons]
      have hstep := ih (t + 1) (round v k (schedule ws t)) hrest
      rw [List.length_cons, List.range'_succ, List.foldl_cons, hk, ← hstep]
      simp only [List.map_cons, window, rounds, round, toNat_add, toNat_ch, toNat_maj,
        toNat_bigSigma0, toNat_bigSigma1, ← toNat_schedule_next, Nat.add_assoc, Nat.reduceAdd]

theorem blocks_four (a b c d : UInt8) (rest : List UInt8) :
    blocks 4 (a :: b :: c :: d :: rest) = [a, b, c, d] :: blocks 4 rest := by
  rw [blocks, if_pos ⟨by decide, by simp⟩]
  rfl

theorem toNat_ofNat_beNat (a b c d : UInt8) :
    (UInt32.ofNat (beNat [a, b, c, d])).toNat =
      ((a.toNat * 256 + b.toNat) * 256 + c.toNat) * 256 + d.toNat := by
  have ha := a.toNat_lt
  have hb := b.toNat_lt
  have hc := c.toNat_lt
  have hd := d.toNat_lt
  simp [beNat]
  omega

theorem blockWords_eq (block : List UInt8) :
    (blockWords block).map UInt32.toNat = words block := by
  fun_induction words block with
  | case1 a b c d rest ih =>
      rw [blockWords, blocks_four, List.map_cons, List.map_cons, toNat_ofNat_beNat, ← ih,
        blockWords]
  | case2 block hshort =>
      have hlen : block.length < 4 := by
        match block with
        | [] | [_] | [_, _] | [_, _, _] => simp
        | a :: b :: c :: d :: rest => exact absurd rfl (hshort a b c d rest)
      rw [blockWords, blocks_of_lt hlen]
      rfl

/-- The words of a block start the schedule. -/
theorem window_zero {ws : List UInt32} (hws : ws.length = 16) :
    window ws 0 = ws.map UInt32.toNat := by
  have hget : ∀ t < 16, schedule ws t = ws.getD t 0 := by
    intro t ht
    rw [schedule, if_pos ht]
  match ws, hws with
  | [_, _, _, _, _, _, _, _, _, _, _, _, _, _, _, _], _ => simp [window, hget]

theorem length_roundConstants : roundConstants.length = 64 := by
  rw [roundConstants, firstPrimes_eq]
  rfl

/-- One block of the evaluation is one block of the standard. -/
theorem compress_eq (hash : Vector UInt32 8) {block : List UInt8} (hblock : block.length = 64) :
    (Sha256.compress hash block).toList.map UInt32.toNat =
      compress (roundConstants.map UInt32.toNat) (hash.toList.map UInt32.toNat) block := by
  have hwords : (blockWords block).length = 16 := by
    rw [blockWords, List.length_map, length_blocks (by decide), hblock]
  have hrounds := rounds_eq (blockWords block) roundConstants 0 (Vars.ofHash hash) rfl
  rw [window_zero hwords, blockWords_eq, length_roundConstants, ← List.range_eq_range'] at hrounds
  rw [hash_toList hash]
  simp only [List.map_cons, List.map_nil, compress]
  have hvars : rounds (roundConstants.map UInt32.toNat) (words block) hash[0].toNat
      hash[1].toNat hash[2].toNat hash[3].toNat hash[4].toNat hash[5].toNat hash[6].toNat
      hash[7].toNat = values (Sha256.rounds (Vars.ofHash hash) (blockWords block)) := hrounds
  rw [hvars, Sha256.compress]
  generalize Sha256.rounds (Vars.ofHash hash) (blockWords block) = v
  simp only [Vars.addTo, values, ← toNat_add, List.zipWith_cons_cons, List.zipWith_nil_left,
    Vector.toList_mk, List.map_cons, List.map_nil]

/-- The evaluation of a list of blocks is the hash value of the blocks. -/
theorem hashBlocks_eq (bs : List (List UInt8)) (hbs : ∀ b ∈ bs, b.length = 64) :
    (hashBlocks bs.flatten).toList.map UInt32.toNat =
      bs.foldl (compress (roundConstants.map UInt32.toNat))
        (initial.toList.map UInt32.toNat) := by
  induction bs using List.reverseRecOn with
  | nil => rw [List.flatten_nil, hashBlocks_nil, List.foldl_nil]
  | append_singleton bs b ih =>
      have hb : b.length = 64 := hbs b (by simp)
      have hlengths : bs.map List.length = bs.map fun _ => 64 :=
        List.map_congr_left fun b' hb' => hbs b' (by simp [hb'])
      have hrest : (rest 64 bs.flatten).length = 0 := by
        rw [length_rest (by decide), List.length_flatten, hlengths]
        simp
      rw [List.flatten_append, List.flatten_singleton, hashBlocks_append_of_eq (by omega),
        List.length_eq_zero_iff.mp hrest, List.nil_append, compress_eq _ hb,
        ih fun b' hb' => hbs b' (by simp [hb']), List.foldl_append, List.foldl_cons,
        List.foldl_nil]

/-- The digest of a message whose padding is cut into blocks. -/
theorem digest_eq {m : List UInt8} (bs : List (List UInt8)) (hbs : ∀ b ∈ bs, b.length = 64)
    (hpad : pad m = bs.flatten) :
    digest m =
      (bs.foldl (compress (roundConstants.map UInt32.toNat))
        (initial.toList.map UInt32.toNat)).flatMap (beBytes 4) := by
  rw [digest, hpad, ← hashBlocks_eq bs hbs, List.flatMap_map]

end Eval
end Sha256
end Foundation
