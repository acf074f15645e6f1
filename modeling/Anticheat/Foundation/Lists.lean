import Mathlib.Tactic

/-!
# Lists that change at one place

A system keeps its parties, calls or requests in a list.  A step replaces one of them, or one
more comes to the end; every other stays where it was.  This module has what the proofs about
such systems need beside the library: who stands at an index afterwards, which element has a
key, and how lists made from two related lists compare.

Main results:

- Theorems {lit}`getElem?_set_cases` and {lit}`getElem?_concat_cases`: who stands at an index
  after one has moved, or one has come.
- Theorem {lit}`filter_eq_singleton`: distinct keys select one element.
- Theorem {lit}`theOne_eq_some`: the one thing with a property is found.
- Theorem {lit}`length_eq_of_length_flatMap_eq`: parts that are smaller one by one add up to as
  much only if none is smaller.
-/

namespace Foundation

variable {α β γ : Type}

/-! ## One element moves, or one comes -/

theorem getElem?_set_cases {l : List α} {i j : Nat} {y z : α}
    (h : (l.set i y)[j]? = some z) : (j = i ∧ z = y) ∨ (j ≠ i ∧ l[j]? = some z) := by
  rw [List.getElem?_set] at h
  split_ifs at h with hij
  · exact Or.inl ⟨hij.symm, (Option.some.inj h).symm⟩
  · exact Or.inr ⟨Ne.symm hij, h⟩

theorem getElem?_concat_cases {l : List α} {j : Nat} {x z : α}
    (h : (l ++ [x])[j]? = some z) : l[j]? = some z ∨ (j = l.length ∧ z = x) := by
  rw [List.getElem?_append] at h
  split at h
  · exact Or.inl h
  · rw [List.getElem?_singleton] at h
    split at h
    · exact Or.inr ⟨by omega, (Option.some.inj h).symm⟩
    · contradiction

theorem getElem?_concat_some {l : List α} {j : Nat} {z : α} (h : l[j]? = some z)
    (x : α) : (l ++ [x])[j]? = some z := by
  rw [List.getElem?_append_left (List.getElem?_eq_some_iff.1 h).1, h]

/-- An update of one element that a function does not see. -/
theorem map_set_of_eq {l : List α} {i : Nat} {x y : α} {g : α → β}
    (hx : l[i]? = some x) (h : g y = g x) : (l.set i y).map g = l.map g := by
  rcases List.getElem?_eq_some_iff.1 hx with ⟨hi, rfl⟩
  rw [List.map_set, h, ← List.getElem_map g (h := by simpa using hi)]
  exact List.set_getElem_self _

/-! ## The only one -/

/-- The only element with its key. -/
theorem filter_eq_singleton [DecidableEq β] {l : List α} {key : α → β} {x : α}
    (hnodup : (l.map key).Nodup) (hx : x ∈ l) : (l.filter fun y => key y = key x) = [x] := by
  rcases List.append_of_mem hx with ⟨a, b, rfl⟩
  simp only [List.map_append, List.map_cons, List.nodup_append, List.nodup_cons] at hnodup
  have ha : ∀ y ∈ a, key y ≠ key x := fun y hy => hnodup.2.2 _ (List.mem_map_of_mem hy) _ (by simp)
  have hb : ∀ y ∈ b, key y ≠ key x := fun y hy heq =>
    hnodup.2.1.1 (heq ▸ List.mem_map_of_mem hy)
  rw [List.filter_append, List.filter_cons_of_pos (by simp),
    List.filter_eq_nil_iff.2 (by simpa using ha), List.filter_eq_nil_iff.2 (by simpa using hb)]
  rfl

open Classical in
/-- The one thing that has a property, if there is one. -/
noncomputable def theOne (P : α → Prop) : Option α :=
  if h : ∃ a, P a then some h.choose else none

theorem theOne_eq_some {P : α → Prop} {a : α} (h : P a) (hunique : ∀ b, P b → b = a) :
    theOne P = some a := by
  have hex : ∃ a, P a := ⟨a, h⟩
  rw [theOne, dif_pos hex, hunique _ hex.choose_spec]

theorem theOne_eq_none {P : α → Prop} (h : ∀ a, ¬P a) : theOne P = none :=
  dif_neg fun ⟨a, ha⟩ => h a ha

/-! ## Counting by position -/

theorem countP_range_getElem? (p : α → Bool) (l : List α) :
    (List.range l.length).countP (fun i => l[i]?.any p) = l.countP p := by
  induction l with
  | nil => rfl
  | cons a l ih =>
      rw [List.length_cons, List.range_succ_eq_map, List.countP_cons, List.countP_map,
        List.countP_cons, ← ih]
      rfl

/-- Distinct positions among which all those with the property are count them. -/
theorem countP_positions {p : α → Bool} {l : List α} {positions : List Nat}
    (hdistinct : positions.Nodup)
    (hall : ∀ i a, l[i]? = some a → p a = true → i ∈ positions) :
    positions.countP (fun i => l[i]?.any p) = l.countP p := by
  have hperm : (positions.filter fun i => l[i]?.any p).Perm
      ((List.range l.length).filter fun i => l[i]?.any p) := by
    apply (List.perm_ext_iff_of_nodup (hdistinct.filter _) (List.nodup_range.filter _)).2
    intro i
    simp only [List.mem_filter, List.mem_range, and_congr_left_iff, Option.any_eq_true]
    rintro ⟨a, ha, hp⟩
    exact iff_of_true (hall i a ha hp) (List.getElem?_eq_some_iff.1 ha).1
  rw [List.countP_eq_length_filter, hperm.length_eq, ← List.countP_eq_length_filter,
    countP_range_getElem?]

/-! ## Two lists element by element -/

theorem exists_of_forall₂ {R : α → β → Prop} {l : List α} {l' : List β}
    (h : List.Forall₂ R l l') {a : α} (ha : a ∈ l) : ∃ b ∈ l', R a b := by
  induction h with
  | nil => contradiction
  | cons hab _ ih =>
      rcases List.mem_cons.1 ha with rfl | ha
      · exact ⟨_, List.mem_cons_self, hab⟩
      · rcases ih ha with ⟨b, hb, hR⟩
        exact ⟨b, List.mem_cons_of_mem _ hb, hR⟩

theorem flatMap_eq_of_forall₂ {R : α → β → Prop} {l : List α} {l' : List β}
    (h : List.Forall₂ R l l') {f : α → List γ} {g : β → List γ}
    (hfg : ∀ a ∈ l, ∀ b, R a b → f a = g b) : l.flatMap f = l'.flatMap g := by
  induction h with
  | nil => rfl
  | cons hab _ ih =>
      rw [List.flatMap_cons, List.flatMap_cons, hfg _ List.mem_cons_self _ hab,
        ih fun a ha => hfg a (List.mem_cons_of_mem _ ha)]

theorem length_flatMap_le {l : List α} {f g : α → List β}
    (h : ∀ a ∈ l, (f a).length ≤ (g a).length) :
    (l.flatMap f).length ≤ (l.flatMap g).length := by
  rw [List.length_flatMap, List.length_flatMap]
  exact List.sum_le_sum h

/-- Sums of terms that are smaller one by one are equal only if the terms are. -/
theorem length_eq_of_length_flatMap_eq {l : List α} {f g : α → List β}
    (h : ∀ a ∈ l, (f a).length ≤ (g a).length)
    (heq : (l.flatMap f).length = (l.flatMap g).length) :
    ∀ a ∈ l, (f a).length = (g a).length := by
  induction l with
  | nil => exact fun a ha => absurd ha List.not_mem_nil
  | cons a l ih =>
      have hfirst := h a List.mem_cons_self
      have hrest : ∀ b ∈ l, (f b).length ≤ (g b).length :=
        fun b hb => h b (List.mem_cons_of_mem _ hb)
      have hle := length_flatMap_le hrest
      rw [List.flatMap_cons, List.flatMap_cons, List.length_append, List.length_append] at heq
      intro b hb
      rcases List.mem_cons.1 hb with rfl | hb
      · omega
      · exact ih hrest (by omega) b hb

end Foundation
