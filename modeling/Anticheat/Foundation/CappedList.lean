import Mathlib.Data.List.TakeDrop

/-!
# Collecting into a bounded buffer

A loop that appends what it finds to a buffer and stops when the buffer is full.  What
it leaves is a front part of what a loop without the bound would leave, also when
several loops share one buffer.

Main results:

- Theorem {lit}`collectUpTo_eq`: what one loop leaves.
- Theorem {lit}`foldl_collectUpTo`: what several loops over one buffer leave.
- Theorem {lit}`filter_take_eq_filter_iff`: when filtering the front part gives as much
  as filtering everything.
- Theorem {lit}`countP_not_eq_iff`: when two tests fail equally often.
-/

namespace Foundation

variable {α β γ : Type} {cap : Nat}

/-- Append what is found to a buffer as long as there is room. -/
def collectUpTo (cap : Nat) (f : α → Option β) : List α → List β → List β
  | [], out => out
  | x :: xs, out =>
      if out.length < cap then collectUpTo cap f xs (out ++ (f x).toList) else out

theorem collectUpTo_eq (f : α → Option β) (xs : List α) {out : List β}
    (hout : out.length ≤ cap) :
    collectUpTo cap f xs out = (out ++ xs.filterMap f).take cap := by
  induction xs generalizing out with
  | nil => rw [collectUpTo, List.filterMap_nil, List.append_nil, List.take_of_length_le hout]
  | cons x xs ih =>
      rw [collectUpTo]
      split
      · rename_i hroom
        have hnext : (out ++ (f x).toList).length ≤ cap := by
          cases f x with
          | none => simpa using hout
          | some y =>
              rw [Option.toList_some, List.length_append, List.length_singleton]
              exact hroom
        rw [ih hnext, List.append_assoc]
        cases hf : f x with
        | none => rw [List.filterMap_cons_none hf, Option.toList_none, List.nil_append]
        | some y =>
            rw [List.filterMap_cons_some hf, Option.toList_some, List.singleton_append]
      · rename_i hfull
        exact (List.take_left' (by omega)).symm

/-- A bound that is met twice is met once. -/
theorem take_take_append (n : Nat) (xs ys : List α) :
    (xs.take n ++ ys).take n = (xs ++ ys).take n := by
  rw [List.take_append, List.take_append, List.take_take, Nat.min_self, List.length_take]
  congr 2
  omega

/-- Several loops over one buffer leave a front part of what all of them find. -/
theorem foldl_collectUpTo (f : γ → α → Option β) (xs : γ → List α) (ds : List γ) {out : List β}
    (hout : out.length ≤ cap) :
    ds.foldl (fun out d => collectUpTo cap (f d) (xs d) out) out =
      (out ++ ds.flatMap fun d => (xs d).filterMap (f d)).take cap := by
  induction ds generalizing out with
  | nil => rw [List.foldl_nil, List.flatMap_nil, List.append_nil, List.take_of_length_le hout]
  | cons d ds ih =>
      rw [List.foldl_cons, collectUpTo_eq (f d) (xs d) hout, ih (List.length_take_le _ _),
        take_take_append, List.flatMap_cons, List.append_assoc]

/-- Filtering a front part by a weaker test gives all that passes the stronger one exactly
if nothing in the front part passes only the weaker one and nothing behind it passes. -/
theorem filter_take_eq_filter_iff {p q : α → Bool} (hqp : ∀ x, q x = true → p x = true)
    (n : Nat) (xs : List α) :
    (xs.take n).filter p = xs.filter q ↔
      (∀ x ∈ xs.take n, q x = false → p x = false) ∧ ∀ x ∈ xs.drop n, q x = false := by
  have hsplit : xs.filter q = (xs.take n).filter q ++ (xs.drop n).filter q := by
    rw [← List.filter_append, List.take_append_drop]
  have hcongr (hfront : ∀ x ∈ xs.take n, q x = false → p x = false) :
      (xs.take n).filter p = (xs.take n).filter q := by
    apply List.filter_congr
    intro x hx
    cases hq : q x with
    | true => exact hqp x hq
    | false => exact hfront x hx hq
  constructor
  · intro heq
    have hfront : ∀ x ∈ xs.take n, q x = false → p x = false := by
      intro x hx hq
      by_contra hp
      have hmem : x ∈ (xs.take n).filter p :=
        List.mem_filter.mpr ⟨hx, (Bool.not_eq_false _).mp hp⟩
      rw [heq, List.mem_filter, hq] at hmem
      exact Bool.false_ne_true hmem.2
    rw [hsplit, hcongr hfront, List.self_eq_append_right, List.filter_eq_nil_iff] at heq
    exact ⟨hfront, fun x hx => (Bool.not_eq_true _).mp (heq x hx)⟩
  · rintro ⟨hfront, hback⟩
    rw [hsplit, hcongr hfront, List.self_eq_append_right, List.filter_eq_nil_iff]
    exact fun x hx => (Bool.not_eq_true _).mpr (hback x hx)

/-- Two tests fail equally often exactly if as many entries pass only the one as pass
only the other. -/
theorem countP_not_eq_iff (p q : α → Prop) [DecidablePred p] [DecidablePred q]
    (l : List α) :
    l.countP (fun x => decide (¬p x)) = l.countP (fun x => decide (¬q x)) ↔
      l.countP (fun x => decide (p x ∧ ¬q x)) = l.countP fun x => decide (q x ∧ ¬p x) := by
  have hsum : l.countP (fun x => decide (¬p x)) + l.countP (fun x => decide (p x ∧ ¬q x)) =
      l.countP (fun x => decide (¬q x)) + l.countP fun x => decide (q x ∧ ¬p x) := by
    induction l with
    | nil => rfl
    | cons x l ih =>
        simp only [List.countP_cons, decide_eq_true_eq]
        by_cases hp : p x
        · by_cases hq : q x
          · simp only [hp, hq, not_true_eq_false, and_false, if_false]
            omega
          · simp only [hp, hq, not_true_eq_false, not_false_eq_true, and_self, if_true, if_false]
            omega
        · by_cases hq : q x
          · simp only [hp, hq, not_true_eq_false, not_false_eq_true, and_self, if_true, if_false]
            omega
          · simp only [hp, hq, not_false_eq_true, false_and, if_true, if_false]
            omega
  omega

end Foundation
