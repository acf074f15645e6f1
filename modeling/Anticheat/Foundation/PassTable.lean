import Anticheat.Foundation.History
import Anticheat.Foundation.SlotTable

/-!
# Tables that follow a list of keys

A monitor is handed, pass after pass, a list of the keys that it has to watch.  In
each pass it frees the slots of the keys that are no longer listed and then visits
the listed keys one by one.  A visit reads what the table holds for the key, emits
messages, and may store a value.

As long as no list has more keys than the table has slots, the table never runs out
of room: after every pass its keys are listed keys.  What it holds for a key is then
determined by the past passes alone.

Main results:

- Theorem {lit}`PassTable.run_refines`: after every sequence of passes the table is
  the partial map that the passes prescribe.
- Theorem {lit}`PassTable.remembered_eq_some_iff`: that map holds a value for a key exactly
  when some pass stored it and the key has been listed ever since without another store.
- Theorem {lit}`PassTable.pass_messages`: what a pass emits, in terms of that map.
-/

namespace Foundation

variable {P ι S σ κ ν μ : Type} {n : Nat}

/-- A loop that collects what its body emits. -/
def collect (body : ι → S → List μ × S) : List ι → S → List μ × S
  | [], s => ([], s)
  | i :: rest, s =>
      let (out, s) := body i s
      let (later, s) := collect body rest s
      (out ++ later, s)

/-- A table with `n` slots that follows a list of keys.  The fields say which key
occupies a slot and with which value, what a pass visits, what a visit stores and
emits, and that the two operations on the table do so. -/
structure PassTable (P ι σ κ ν μ : Type) (n : Nat) [DecidableEq κ] where
  slotKey : σ → Option κ
  slotVal : σ → ν
  empty : σ
  items : P → List ι
  itemKey : ι → κ
  stores : ι → Option ν
  emits : ι → Option ν → List μ
  forget : P → SlotTable σ n → SlotTable σ n
  visit : ι → SlotTable σ n → List μ × SlotTable σ n
  empty_free : slotKey empty = none
  distinct : ∀ p, ((items p).map itemKey).Nodup
  few : ∀ p, (items p).length ≤ n
  forget_refines : ∀ {t m}, SlotTable.Refines slotKey slotVal t m → ∀ p,
    SlotTable.Refines slotKey slotVal (forget p t)
      fun k => if k ∈ (items p).map itemKey then m k else none
  visit_refines : ∀ {t m}, SlotTable.Refines slotKey slotVal t m → ∀ i,
    (m (itemKey i) = none → (t.occupied slotKey).length ≠ n) →
    (visit i t).1 = emits i (m (itemKey i)) ∧
      SlotTable.Refines slotKey slotVal (visit i t).2
        (Function.update m (itemKey i) ((stores i).or (m (itemKey i))))

namespace PassTable

variable [DecidableEq κ] (T : PassTable P ι σ κ ν μ n)

/-- One pass. -/
def pass (p : P) (t : SlotTable σ n) : List μ × SlotTable σ n :=
  collect T.visit (T.items p) (T.forget p t)

/-- The table after a sequence of passes. -/
def run (ps : List P) : SlotTable σ n :=
  ps.foldl (fun t p => (T.pass p t).2) (SlotTable.replicate n T.empty)

/-- What a pass does for a key: nothing if it is not listed, otherwise a store or a
visit without a store. -/
def outcome (p : P) (k : κ) : Option (Option ν) :=
  ((T.items p).find? fun i => T.itemKey i = k).map T.stores

/-- What the map holds for a key after a pass. -/
def follow (m : κ → Option ν) (p : P) : κ → Option ν := fun k =>
  match T.outcome p k with
  | none => none
  | some none => m k
  | some (some v) => some v

/-- The map that a sequence of passes prescribes. -/
def remembered (ps : List P) : κ → Option ν :=
  ps.foldl T.follow fun _ => none

/-- A pass lists a key. -/
def Lists (p : P) (k : κ) : Prop :=
  k ∈ (T.items p).map T.itemKey

/-! ## The map -/

theorem outcome_of_mem {p : P} {i : ι} (hi : i ∈ T.items p) :
    T.outcome p (T.itemKey i) = some (T.stores i) := by
  have hfind : (T.items p).find? (fun j => T.itemKey j = T.itemKey i) = some i := by
    have hinj := List.inj_on_of_nodup_map (T.distinct p)
    cases hj : (T.items p).find? (fun j => T.itemKey j = T.itemKey i) with
    | none =>
        rw [List.find?_eq_none] at hj
        simpa using hj i hi
    | some j =>
        have hkey := List.find?_some hj
        rw [hinj (List.mem_of_find?_eq_some hj) hi (by simpa using hkey)]
  rw [outcome, hfind]
  rfl

theorem outcome_eq_none_iff {p : P} {k : κ} : T.outcome p k = none ↔ ¬T.Lists p k := by
  simp [outcome, Lists, List.find?_eq_none]

theorem remembered_concat (ps : List P) (p : P) :
    T.remembered (ps ++ [p]) = T.follow (T.remembered ps) p := by
  rw [remembered, List.foldl_append]
  rfl

/-- The map holds a value for a key exactly when some pass stored it and the key was
listed in all later passes, which stored nothing for it. -/
theorem remembered_eq_some_iff (ps : List P) (k : κ) (v : ν) :
    T.remembered ps k = some v ↔
      Since (fun p => T.outcome p k = some (some v)) (fun p => T.outcome p k = some none) ps := by
  induction ps using List.reverseRecOn with
  | nil => simp [remembered]
  | append_singleton ps p ih =>
      rw [remembered_concat, since_concat, ← ih, follow]
      rcases T.outcome p k with _ | _ | w
      · simp
      · simp
      · simp

/-- Only keys of the last pass are left. -/
theorem lists_of_remembered {ps : List P} {p : P} {k : κ} (h : T.remembered (ps ++ [p]) k ≠ none) :
    T.Lists p k := by
  by_contra hnot
  rw [remembered_concat, follow, (T.outcome_eq_none_iff).2 hnot] at h
  exact h rfl

/-! ## One pass -/

/-- Visiting listed keys, each once, in a table whose keys are all listed. -/
theorem collect_visit {keys : List κ} (hkeys : keys.length ≤ n) {t : SlotTable σ n}
    {m : κ → Option ν} (hr : SlotTable.Refines T.slotKey T.slotVal t m)
    (hm : ∀ k, m k ≠ none → k ∈ keys) {items : List ι} (hmem : ∀ i ∈ items, T.itemKey i ∈ keys)
    (hnodup : (items.map T.itemKey).Nodup) :
    (collect T.visit items t).1 = items.flatMap (fun i => T.emits i (m (T.itemKey i))) ∧
      SlotTable.Refines T.slotKey T.slotVal (collect T.visit items t).2 fun k =>
        ((items.find? fun i => T.itemKey i = k).bind T.stores).or (m k) := by
  induction items generalizing t m with
  | nil => exact ⟨rfl, hr⟩
  | cons i items ih =>
      have hi := hmem i List.mem_cons_self
      rcases T.visit_refines hr i (hr.room hm hkeys hi) with ⟨hemits, hvisit⟩
      rw [List.map_cons, List.nodup_cons] at hnodup
      -- the store of this visit changes nothing for the keys still to be visited
      have hother : ∀ j ∈ items, T.itemKey j ≠ T.itemKey i := by
        intro j hj hkey
        exact hnodup.1 (hkey ▸ List.mem_map_of_mem hj)
      have hlisted : ∀ k, Function.update m (T.itemKey i)
          ((T.stores i).or (m (T.itemKey i))) k ≠ none → k ∈ keys := by
        intro k hk
        by_cases hki : k = T.itemKey i
        · rw [hki]
          exact hi
        · rw [Function.update_of_ne hki] at hk
          exact hm k hk
      rcases ih hvisit hlisted (fun j hj => hmem j (List.mem_cons_of_mem _ hj)) hnodup.2
        with ⟨hlater, hrest⟩
      constructor
      · rw [List.flatMap_cons, ← hemits]
        simp only [collect]
        rw [hlater]
        congr 1
        apply List.flatMap_congr
        intro j hj
        rw [Function.update_of_ne (hother j hj)]
      · refine ⟨hrest.nodup, hrest.map_eq.trans ?_⟩
        funext k
        by_cases hki : T.itemKey i = k
        · have hnone : items.find? (fun j => T.itemKey j = k) = none := by
            rw [List.find?_eq_none]
            intro j hj
            simpa [← hki] using hother j hj
          rw [hnone, List.find?_cons_of_pos (by simpa using hki), ← hki, Function.update_self]
          rfl
        · rw [List.find?_cons_of_neg (by simpa using hki), Function.update_of_ne (Ne.symm hki)]

/-- One pass emits what the map says and leaves the map that it prescribes. -/
theorem pass_refines {t : SlotTable σ n} {m : κ → Option ν}
    (hr : SlotTable.Refines T.slotKey T.slotVal t m) (p : P) :
    (T.pass p t).1 = (T.items p).flatMap (fun i => T.emits i (m (T.itemKey i))) ∧
      SlotTable.Refines T.slotKey T.slotVal (T.pass p t).2 (T.follow m p) := by
  have hlisted : ∀ k, (if k ∈ (T.items p).map T.itemKey then m k else none) ≠ none →
      k ∈ (T.items p).map T.itemKey := by
    intro k hk
    by_contra hnot
    rw [if_neg hnot] at hk
    exact hk rfl
  have hlen : ((T.items p).map T.itemKey).length ≤ n := by
    rw [List.length_map]
    exact T.few p
  rcases T.collect_visit hlen (T.forget_refines hr p) hlisted
    (fun i hi => List.mem_map_of_mem hi) (T.distinct p) with ⟨hmsgs, href⟩
  constructor
  · rw [pass, hmsgs]
    apply List.flatMap_congr
    intro i hi
    rw [if_pos (List.mem_map_of_mem hi)]
  · refine ⟨href.nodup, href.map_eq.trans ?_⟩
    funext k
    rw [follow]
    cases hfind : (T.items p).find? (fun i => T.itemKey i = k) with
    | none =>
        have hnone : T.outcome p k = none := by
          rw [outcome, hfind]
          rfl
        have hnot : k ∉ (T.items p).map T.itemKey := T.outcome_eq_none_iff.1 hnone
        rw [hnone, if_neg hnot]
        rfl
    | some i =>
        have hkey : T.itemKey i = k := by simpa using List.find?_some hfind
        have hmem : k ∈ (T.items p).map T.itemKey :=
          hkey ▸ List.mem_map_of_mem (List.mem_of_find?_eq_some hfind)
        rw [outcome, hfind, if_pos hmem]
        cases hst : T.stores i with
        | none => simp [hst]
        | some v => simp [hst]

/-! ## Whole runs -/

/-- After every sequence of passes, the table is the map that the passes prescribe. -/
theorem run_refines (ps : List P) :
    SlotTable.Refines T.slotKey T.slotVal (T.run ps) (T.remembered ps) := by
  refine foldl_history (I := fun ps t => SlotTable.Refines T.slotKey T.slotVal t (T.remembered ps))
    (SlotTable.Refines.replicate_free T.empty_free) ?_ ps
  intro ps t p ht
  rw [remembered_concat]
  exact (T.pass_refines ht p).2

/-- What a pass emits after a sequence of passes. -/
theorem pass_messages (ps : List P) (p : P) :
    (T.pass p (T.run ps)).1 =
      (T.items p).flatMap fun i => T.emits i (T.remembered ps (T.itemKey i)) :=
  (T.pass_refines (T.run_refines ps) p).1

/-- Every stored value is in the table. -/
theorem run_stores (ps : List P) {p : P} {i : ι} (hi : i ∈ T.items p) {v : ν}
    (hv : T.stores i = some v) :
    (T.run (ps ++ [p])).toMap T.slotKey T.slotVal (T.itemKey i) = some v := by
  rw [(T.run_refines _).map_eq, remembered_concat, follow, T.outcome_of_mem hi, hv]

/-- The table holds only keys of the last pass. -/
theorem lists_of_occupied (ps : List P) {p : P} {k : κ}
    (h : k ∈ (T.run (ps ++ [p])).occupied T.slotKey) : T.Lists p k := by
  rw [← SlotTable.toMap_isSome_iff T.slotKey T.slotVal, (T.run_refines _).map_eq,
    Option.isSome_iff_ne_none] at h
  exact T.lists_of_remembered h

end PassTable
end Foundation
