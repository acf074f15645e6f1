import Mathlib.Data.List.Nodup
import Mathlib.Data.List.Perm.Basic
import Mathlib.Logic.Function.Basic
import Mathlib.Tactic

/-!
# Fixed-width slot tables

A slot table is an array of a fixed number of slots, each of which is either
free or occupied by a key.  C code walks such an array once, remembering the
first free slot while it looks for the key; slots are freed in place and
refilled in any order, so the occupied slots need not be contiguous.

The library is generic in the slot type: a projection {lit}`key` says which key
occupies a slot, if any, and a second projection {lit}`val` says what the table
stores for it.

Main results:

- Theorems {lit}`scan_hit` and {lit}`scan_miss`: the one-pass search returns
  the slot of the key, or else the first free slot.
- Theorem {lit}`scan_eq_miss_none_iff`: the search reports a full table exactly
  when every slot belongs to some other key.
- Theorems {lit}`Refines.insert`, {lit}`Refines.update` and
  {lit}`Refines.delete`: writing the slot found by the search is insertion,
  update and deletion of a finite partial map.
- Theorem {lit}`Refines.upsert`: in a table with room, a search followed by either
  write sets the value of a key.
- Theorem {lit}`Refines.restrict`: freeing slots in one sweep restricts the map.
- Theorem {lit}`Holds.push`: a table can also be filled from the front.
-/

namespace Foundation

/-- A table with exactly `n` slots. -/
structure SlotTable (σ : Type) (n : Nat) where
  slots : List σ
  length_slots : slots.length = n
deriving DecidableEq

namespace SlotTable

variable {σ κ ν : Type} {n : Nat}

/-- The table in which every slot holds the same value. -/
def replicate (n : Nat) (s : σ) : SlotTable σ n where
  slots := List.replicate n s
  length_slots := List.length_replicate

/-- Overwrite one slot. -/
def set (t : SlotTable σ n) (i : Nat) (s : σ) : SlotTable σ n where
  slots := t.slots.set i s
  length_slots := by rw [List.length_set, t.length_slots]

/-- Change one slot in place. -/
def modify (t : SlotTable σ n) (i : Nat) (f : σ → σ) : SlotTable σ n where
  slots := t.slots.modify i f
  length_slots := by rw [List.length_modify, t.length_slots]

/-- Change every slot in place. -/
def map (t : SlotTable σ n) (f : σ → σ) : SlotTable σ n where
  slots := t.slots.map f
  length_slots := by rw [List.length_map, t.length_slots]

/-- The keys of the occupied slots, in slot order. -/
def occupied (key : σ → Option κ) (t : SlotTable σ n) : List κ :=
  t.slots.filterMap key

/-- What a walk over the table for one key finds. -/
inductive Scan where
  | hit (i : Nat)
  | miss (free : Option Nat)
deriving DecidableEq, Repr

@[simp]
theorem set_slots (t : SlotTable σ n) (i : Nat) (s : σ) :
    (t.set i s).slots = t.slots.set i s :=
  rfl

@[simp]
theorem modify_slots (t : SlotTable σ n) (i : Nat) (f : σ → σ) :
    (t.modify i f).slots = t.slots.modify i f :=
  rfl

@[simp]
theorem map_slots (t : SlotTable σ n) (f : σ → σ) :
    (t.map f).slots = t.slots.map f :=
  rfl

theorem occupied_length_le (key : σ → Option κ) (t : SlotTable σ n) :
    (t.occupied key).length ≤ n := by
  have h := List.length_filterMap_le key t.slots
  rwa [t.length_slots] at h

/-- Splitting the occupied keys at one slot. -/
theorem occupied_split (key : σ → Option κ) {t : SlotTable σ n}
    {pre post : List σ} {s : σ} (h : t.slots = pre ++ s :: post) :
    t.occupied key = pre.filterMap key ++ ((key s).toList ++ post.filterMap key) := by
  rw [occupied, h, List.filterMap_append, List.filterMap_cons]
  cases key s with
  | none => rfl
  | some k => rfl

theorem set_split {t : SlotTable σ n} {pre post : List σ} {s : σ} (s' : σ)
    (h : t.slots = pre ++ s :: post) :
    (t.set pre.length s').slots = pre ++ s' :: post := by
  rw [set_slots, h]
  simp

theorem modify_split {t : SlotTable σ n} {pre post : List σ} {s : σ} {f : σ → σ}
    (h : t.slots = pre ++ s :: post) :
    (t.modify pre.length f).slots = pre ++ f s :: post := by
  rw [modify_slots, h, List.modify_eq_take_drop]
  simp

/-- What holds of every slot and of the value written holds after the write. -/
theorem forall_set {P : σ → Prop} {t : SlotTable σ n} (h : ∀ x ∈ t.slots, P x) {i : Nat}
    {s : σ} (hs : P s) : ∀ x ∈ (t.set i s).slots, P x := by
  intro x hx
  rcases List.mem_or_eq_of_mem_set hx with hold | rfl
  · exact h x hold
  · exact hs

/-- What a change in place keeps of every slot holds after it. -/
theorem forall_modify {P : σ → Prop} {t : SlotTable σ n} (h : ∀ x ∈ t.slots, P x) {i : Nat}
    {f : σ → σ} (hf : ∀ x, P x → P (f x)) : ∀ x ∈ (t.modify i f).slots, P x := by
  intro x hx
  rcases List.mem_iff_getElem?.1 hx with ⟨j, hj⟩
  rw [modify_slots, List.getElem?_modify] at hj
  rcases Option.map_eq_some_iff.1 hj with ⟨y, hy, rfl⟩
  have hold := h y (List.mem_of_getElem? hy)
  split
  · exact hf y hold
  · exact hold

theorem not_mem_filterMap_cons {key : σ → Option κ} {k : κ} {s : σ} {l : List σ}
    (hs : key s ≠ some k) (hl : k ∉ l.filterMap key) :
    k ∉ (s :: l).filterMap key := by
  rw [List.filterMap_cons]
  cases hk : key s with
  | none => simpa using hl
  | some k' =>
      rw [hk] at hs
      have hne : k ≠ k' := fun h => hs (by rw [h])
      simp only [List.mem_cons, not_or]
      exact ⟨hne, hl⟩

section Search

variable [DecidableEq κ]

/-- The walk itself, from index `i` on, with the first free slot seen so far. -/
def scanFrom (key : σ → Option κ) (k : κ) : Nat → Option Nat → List σ → Scan
  | _, free, [] => .miss free
  | i, free, s :: rest =>
      if key s = some k then
        .hit i
      else if key s = none ∧ free = none then
        scanFrom key k (i + 1) (some i) rest
      else
        scanFrom key k (i + 1) free rest

/-- One pass over the whole table. -/
def scan (key : σ → Option κ) (k : κ) (t : SlotTable σ n) : Scan :=
  scanFrom key k 0 none t.slots

/-- The slot occupied by a key. -/
def lookup (key : σ → Option κ) (k : κ) (t : SlotTable σ n) : Option σ :=
  t.slots.find? fun s => key s = some k

/-- The partial map that the occupied slots represent. -/
def toMap (key : σ → Option κ) (val : σ → ν) (t : SlotTable σ n) :
    κ → Option ν :=
  fun k => (t.lookup key k).map val

/-- What the table stores for a key, read off the slot that the walk hits. -/
def valueOf (key : σ → Option κ) (val : σ → ν) (k : κ) (t : SlotTable σ n) : Option ν :=
  match t.scan key k with
  | .hit i => t.slots[i]?.map val
  | .miss _ => none

/-- Change the slot of a key, or else fill the first free slot. -/
def upsert (key : σ → Option κ) (k : κ) (f : σ → σ) (new : σ) (t : SlotTable σ n) :
    SlotTable σ n :=
  match t.scan key k with
  | .hit i => t.modify i f
  | .miss (some i) => t.set i new
  | .miss none => t

/-- Free the slots of the keys that are not kept. -/
def release (key : σ → Option κ) (free : σ → σ) (keep : κ → Bool) (t : SlotTable σ n) :
    SlotTable σ n :=
  t.map fun s =>
    match key s with
    | some k => if keep k then s else free s
    | none => s

/-! ## What the walk finds -/

theorem scanFrom_hit {key : σ → Option κ} {k : κ} {l : List σ} {i j : Nat}
    {free : Option Nat} (h : scanFrom key k i free l = .hit j) :
    ∃ pre s post, l = pre ++ s :: post ∧ i + pre.length = j ∧
      key s = some k ∧ k ∉ pre.filterMap key := by
  induction l generalizing i free with
  | nil => simp [scanFrom] at h
  | cons s rest ih =>
      simp only [scanFrom] at h
      split at h
      · rename_i hs
        cases h
        exact ⟨[], s, rest, rfl, rfl, hs, by simp⟩
      · rename_i hs
        have hrest : ∃ free', scanFrom key k (i + 1) free' rest = .hit j := by
          split at h
          · exact ⟨_, h⟩
          · exact ⟨_, h⟩
        rcases hrest with ⟨free', hrest⟩
        rcases ih hrest with ⟨pre, s', post, rfl, hlen, hkey, hpre⟩
        refine ⟨s :: pre, s', post, rfl, ?_, hkey, ?_⟩
        · rw [List.length_cons]
          omega
        · exact not_mem_filterMap_cons hs hpre

theorem scanFrom_miss {key : σ → Option κ} {k : κ} {l : List σ} {i : Nat}
    {free out : Option Nat} (h : scanFrom key k i free l = .miss out) :
    k ∉ l.filterMap key ∧
      ((free ≠ none ∧ out = free) ∨
        (free = none ∧ out = none ∧ (l.filterMap key).length = l.length) ∨
        (free = none ∧ ∃ pre s post, l = pre ++ s :: post ∧
          out = some (i + pre.length) ∧ key s = none)) := by
  induction l generalizing i free with
  | nil =>
      simp only [scanFrom, Scan.miss.injEq] at h
      subst out
      cases free with
      | none => simp
      | some j => simp
  | cons s rest ih =>
      simp only [scanFrom] at h
      split at h
      · contradiction
      · rename_i hs
        split at h
        · rename_i hfree
          rcases hfree with ⟨hnone, rfl⟩
          rcases ih h with ⟨hk, hout | hout | hout⟩
          · refine ⟨by simpa [hnone] using hk, Or.inr (Or.inr ⟨rfl, ?_⟩)⟩
            exact ⟨[], s, rest, rfl, by simpa using hout.2, hnone⟩
          · exact absurd hout.1 (by simp)
          · exact absurd hout.1 (by simp)
        · rename_i hfree
          rcases ih h with ⟨hk, hout⟩
          refine ⟨not_mem_filterMap_cons hs hk, ?_⟩
          rcases hout with hout | ⟨rfl, rfl, hfull⟩ | ⟨rfl, pre, s', post, rfl, hout, hnone⟩
          · exact Or.inl hout
          · refine Or.inr (Or.inl ⟨rfl, rfl, ?_⟩)
            cases hk' : key s with
            | none => exact absurd ⟨hk', rfl⟩ hfree
            | some k' => simp [hk', hfull]
          · refine Or.inr (Or.inr ⟨rfl, s :: pre, s', post, rfl, ?_, hnone⟩)
            rw [hout, List.length_cons]
            congr 1
            omega

/-- A hit names the first slot that the key occupies. -/
theorem scan_hit {key : σ → Option κ} {k : κ} {t : SlotTable σ n} {i : Nat}
    (h : t.scan key k = .hit i) :
    ∃ pre s post, t.slots = pre ++ s :: post ∧ pre.length = i ∧
      key s = some k ∧ k ∉ pre.filterMap key := by
  rcases scanFrom_hit h with ⟨pre, s, post, hslots, hlen, hkey, hpre⟩
  exact ⟨pre, s, post, hslots, by omega, hkey, hpre⟩

/-- A miss means that the key occupies no slot; the reported slot, if any, is
free. -/
theorem scan_miss {key : σ → Option κ} {k : κ} {t : SlotTable σ n} {i : Nat}
    (h : t.scan key k = .miss (some i)) :
    k ∉ t.occupied key ∧
      ∃ pre s post, t.slots = pre ++ s :: post ∧ pre.length = i ∧ key s = none := by
  rcases scanFrom_miss h with ⟨hk, hout | hout | hout⟩
  · exact absurd rfl hout.1
  · exact absurd hout.2.1 (by simp)
  · rcases hout with ⟨-, pre, s, post, hslots, hi, hnone⟩
    simp only [Nat.zero_add, Option.some.injEq] at hi
    exact ⟨hk, pre, s, post, hslots, hi.symm, hnone⟩

/-- A miss without a free slot means that other keys fill the table. -/
theorem scan_miss_none {key : σ → Option κ} {k : κ} {t : SlotTable σ n}
    (h : t.scan key k = .miss none) :
    k ∉ t.occupied key ∧ (t.occupied key).length = n := by
  rcases scanFrom_miss h with ⟨hk, hout | hout | hout⟩
  · exact absurd rfl hout.1
  · refine ⟨hk, ?_⟩
    rw [occupied, hout.2.2, t.length_slots]
  · rcases hout with ⟨-, pre, s, post, -, hi, -⟩
    exact absurd hi (by simp)

/-- The walk hits exactly the keys that occupy a slot. -/
theorem scan_hit_iff (key : σ → Option κ) (k : κ) (t : SlotTable σ n) :
    (∃ i, t.scan key k = .hit i) ↔ k ∈ t.occupied key := by
  constructor
  · rintro ⟨i, h⟩
    rcases scan_hit h with ⟨pre, s, post, hslots, -, hkey, -⟩
    rw [occupied, hslots]
    simp [hkey]
  · intro hk
    cases h : t.scan key k with
    | hit i => exact ⟨i, rfl⟩
    | miss free =>
        cases free with
        | none => exact absurd hk (scan_miss_none h).1
        | some i => exact absurd hk (scan_miss h).1

/-- The walk finds no room exactly when every slot belongs to another key. -/
theorem scan_eq_miss_none_iff (key : σ → Option κ) (k : κ) (t : SlotTable σ n) :
    t.scan key k = .miss none ↔
      k ∉ t.occupied key ∧ (t.occupied key).length = n := by
  constructor
  · exact scan_miss_none
  · rintro ⟨hk, hlen⟩
    cases h : t.scan key k with
    | hit i => exact absurd ((scan_hit_iff key k t).1 ⟨i, h⟩) hk
    | miss free =>
        cases free with
        | none => rfl
        | some i =>
            rcases scan_miss h with ⟨-, pre, s, post, hslots, -, hnone⟩
            have hpre := List.length_filterMap_le key pre
            have hpost := List.length_filterMap_le key post
            have hn : pre.length + (post.length + 1) = n := by
              rw [← t.length_slots, hslots]
              simp
            rw [occupied, hslots] at hlen
            simp only [List.filterMap_append, List.filterMap_cons, hnone,
              List.length_append] at hlen
            omega

/-! ## Lookup and membership -/

theorem lookup_eq_none_iff (key : σ → Option κ) (k : κ) (t : SlotTable σ n) :
    t.lookup key k = none ↔ k ∉ t.occupied key := by
  simp [lookup, occupied, List.find?_eq_none, List.mem_filterMap]

/-- The represented map is defined exactly on the occupied keys. -/
theorem toMap_isSome_iff (key : σ → Option κ) (val : σ → ν) (k : κ)
    (t : SlotTable σ n) :
    (t.toMap key val k).isSome ↔ k ∈ t.occupied key := by
  have h := lookup_eq_none_iff key k t
  cases hlk : t.lookup key k with
  | none => simpa [toMap, hlk] using h.1 hlk
  | some s =>
      have : k ∈ t.occupied key := by
        by_contra hk
        rw [h.2 hk] at hlk
        contradiction
      simpa [toMap, hlk] using this

/-- What the represented map holds for a key stands in a slot of the key. -/
theorem exists_slot_of_toMap {key : σ → Option κ} {val : σ → ν} {t : SlotTable σ n} {k : κ}
    {v : ν} (h : t.toMap key val k = some v) : ∃ s ∈ t.slots, key s = some k ∧ val s = v := by
  rw [toMap, Option.map_eq_some_iff] at h
  rcases h with ⟨s, hs, hv⟩
  exact ⟨s, List.mem_of_find?_eq_some hs, by simpa using List.find?_some hs, hv⟩

/-- Looking a key up in a table split at one slot. -/
theorem find?_split (key : σ → Option κ) (k : κ) (pre post : List σ) (s : σ) :
    ((pre ++ s :: post).find? fun s => key s = some k) =
      if k ∈ pre.filterMap key then pre.find? fun s => key s = some k
      else if key s = some k then some s
      else post.find? fun s => key s = some k := by
  rw [List.find?_append]
  by_cases hpre : k ∈ pre.filterMap key
  · rw [if_pos hpre]
    cases hf : pre.find? (fun s => key s = some k) with
    | some s' => rfl
    | none =>
        rw [List.find?_eq_none] at hf
        rcases List.mem_filterMap.1 hpre with ⟨s', hs', hk⟩
        exact absurd hk (by simpa using hf s' hs')
  · rw [if_neg hpre]
    have hf : pre.find? (fun s => key s = some k) = none := by
      rw [List.find?_eq_none]
      intro s' hs' hk
      exact hpre (List.mem_filterMap.2 ⟨s', hs', by simpa using hk⟩)
    rw [hf]
    by_cases hs : key s = some k
    · simp [hs]
    · simp [hs]

/-! ## Writing the slot that the walk found -/

/-- The table represents the partial map `m`, one slot for each key. -/
structure Refines (key : σ → Option κ) (val : σ → ν) (t : SlotTable σ n)
    (m : κ → Option ν) : Prop where
  nodup : (t.occupied key).Nodup
  map_eq : t.toMap key val = m

/-- A table of free slots represents the empty map. -/
theorem Refines.replicate_free {key : σ → Option κ} {val : σ → ν} {s : σ}
    (hs : key s = none) :
    Refines key val (SlotTable.replicate n s) fun _ => none := by
  have hocc : (SlotTable.replicate n s).occupied key = [] := by
    simp only [occupied, SlotTable.replicate, List.filterMap_eq_nil_iff]
    intro s' hs'
    rw [(List.mem_replicate.1 hs').2]
    exact hs
  refine ⟨by rw [hocc]; exact List.nodup_nil, ?_⟩
  funext k
  have h := (lookup_eq_none_iff key k (SlotTable.replicate n s)).2 (by simp [hocc])
  simp [toMap, h]

/-- A table whose keys all come from a list no longer than the table has room for a key
of the list that it does not hold. -/
theorem Refines.room {key : σ → Option κ} {val : σ → ν} {t : SlotTable σ n}
    {m : κ → Option ν} (hr : Refines key val t m) {keys : List κ}
    (hkeys : ∀ k, m k ≠ none → k ∈ keys) (hlen : keys.length ≤ n) {k : κ} (hk : k ∈ keys)
    (hnew : m k = none) : (t.occupied key).length ≠ n := by
  have hsub : t.occupied key ⊆ keys.erase k := by
    intro k' hk'
    rw [← toMap_isSome_iff key val, hr.map_eq, Option.isSome_iff_ne_none] at hk'
    have hne : k' ≠ k := by
      rintro rfl
      exact hk' hnew
    exact (List.mem_erase_of_ne hne).2 (hkeys k' hk')
  have hle := (hr.nodup.subperm hsub).length_le
  rw [List.length_erase_of_mem hk] at hle
  have hpos := List.length_pos_of_mem hk
  omega

/-- Filling the free slot that a miss reported inserts the key. -/
theorem Refines.insert {key : σ → Option κ} {val : σ → ν} {t : SlotTable σ n}
    {m : κ → Option ν} (hr : Refines key val t m) {k : κ} {i : Nat} (s' : σ)
    (hscan : t.scan key k = .miss (some i)) (hkey : key s' = some k) :
    Refines key val (t.set i s') (Function.update m k (some (val s'))) := by
  rcases scan_miss hscan with ⟨hk, pre, s, post, hslots, rfl, hnone⟩
  have hset := set_split s' hslots
  have hocc := occupied_split key hslots
  rw [hnone] at hocc
  simp only [Option.toList_none, List.nil_append] at hocc
  refine ⟨?_, ?_⟩
  · rw [occupied_split key hset, hkey]
    have hperm : (pre.filterMap key ++ ((some k).toList ++ post.filterMap key)).Perm
        (k :: t.occupied key) := by
      rw [hocc]
      exact List.perm_middle
    exact hperm.nodup_iff.2 (List.nodup_cons.2 ⟨hk, hr.nodup⟩)
  · rw [← hr.map_eq]
    funext k'
    rw [hocc, List.mem_append, not_or] at hk
    by_cases hkk : k' = k
    · subst k'
      simp only [toMap, lookup, Function.update_self]
      rw [hset, find?_split, if_neg hk.1, if_pos hkey]
      rfl
    · have hne : key s' ≠ some k' := by
        rw [hkey]
        exact fun h => hkk (Option.some.inj h).symm
      have hne' : key s ≠ some k' := by
        rw [hnone]
        exact fun h => by contradiction
      rw [Function.update_of_ne hkk]
      simp only [toMap, lookup]
      rw [hset, hslots, find?_split, find?_split, if_neg hne, if_neg hne']

/-- Changing the value of the slot that a hit reported updates the key. -/
theorem Refines.update {key : σ → Option κ} {val : σ → ν} {t : SlotTable σ n}
    {m : κ → Option ν} (hr : Refines key val t m) {k : κ} {i : Nat} {f : σ → σ}
    {v : ν} (hscan : t.scan key k = .hit i)
    (hkey : ∀ s, key (f s) = key s) (hval : ∀ s, val (f s) = v) :
    Refines key val (t.modify i f) (Function.update m k (some v)) ∧
      (t.modify i f).occupied key = t.occupied key := by
  rcases scan_hit hscan with ⟨pre, s, post, hslots, rfl, hs, hpre⟩
  have hmod := modify_split (f := f) hslots
  have hocc : (t.modify pre.length f).occupied key = t.occupied key := by
    rw [occupied_split key hmod, occupied_split key hslots, hkey]
  refine ⟨⟨by rw [hocc]; exact hr.nodup, ?_⟩, hocc⟩
  rw [← hr.map_eq]
  funext k'
  by_cases hkk : k' = k
  · subst k'
    simp only [toMap, lookup, Function.update_self]
    rw [hmod, find?_split, if_neg hpre, if_pos ((hkey s).trans hs)]
    simp [hval]
  · have hne : key s ≠ some k' := by
      rw [hs]
      exact fun h => hkk (Option.some.inj h).symm
    rw [Function.update_of_ne hkk]
    simp only [toMap, lookup]
    rw [hmod, hslots, find?_split, find?_split, hkey, if_neg hne, if_neg hne]

/-- The walk reads the represented map. -/
theorem Refines.valueOf {key : σ → Option κ} {val : σ → ν} {t : SlotTable σ n}
    {m : κ → Option ν} (hr : Refines key val t m) (k : κ) : t.valueOf key val k = m k := by
  rw [← hr.map_eq, toMap, SlotTable.valueOf]
  cases hscan : t.scan key k with
  | hit i =>
      rcases scan_hit hscan with ⟨pre, s, post, hslots, rfl, hs, hpre⟩
      rw [lookup, hslots, find?_split, if_neg hpre, if_pos hs]
      simp
  | miss free =>
      have hnot : k ∉ t.occupied key := by
        rw [← scan_hit_iff, hscan]
        simp
      rw [(lookup_eq_none_iff key k t).2 hnot]
      rfl

/-- In a table that has room for a new key, writing the slot that the walk found sets
the value of the key. -/
theorem Refines.upsert {key : σ → Option κ} {val : σ → ν} {t : SlotTable σ n}
    {m : κ → Option ν} (hr : Refines key val t m) {k : κ} {f : σ → σ} {new : σ}
    (hkey : ∀ s, key (f s) = key s) (hval : ∀ s, val (f s) = val new)
    (hnew : key new = some k) (hroom : m k = none → (t.occupied key).length ≠ n) :
    Refines key val (t.upsert key k f new) (Function.update m k (some (val new))) := by
  unfold SlotTable.upsert
  cases hscan : t.scan key k with
  | hit i => exact (hr.update hscan hkey hval).1
  | miss free =>
      cases free with
      | some i => exact hr.insert new hscan hnew
      | none =>
          rcases scan_miss_none hscan with ⟨hnot, hfull⟩
          have hnone : m k = none := by
            rw [← hr.map_eq, toMap, (lookup_eq_none_iff key k t).2 hnot]
            rfl
          exact absurd hfull (hroom hnone)

/-- Freeing the slot that a hit reported deletes the key. -/
theorem Refines.delete {key : σ → Option κ} {val : σ → ν} {t : SlotTable σ n}
    {m : κ → Option ν} (hr : Refines key val t m) {k : κ} {i : Nat} {f : σ → σ}
    (hscan : t.scan key k = .hit i) (hfree : ∀ s, key (f s) = none) :
    Refines key val (t.modify i f) (Function.update m k none) ∧
      (t.occupied key).Perm (k :: (t.modify i f).occupied key) := by
  rcases scan_hit hscan with ⟨pre, s, post, hslots, rfl, hs, hpre⟩
  have hmod := modify_split (f := f) hslots
  have hocc := occupied_split key hslots
  have hocc' := occupied_split key hmod
  rw [hs] at hocc
  rw [hfree] at hocc'
  simp only [Option.toList_none, List.nil_append] at hocc'
  have hperm : (t.occupied key).Perm (k :: (t.modify pre.length f).occupied key) := by
    rw [hocc, hocc']
    exact List.perm_middle
  have hcons := hperm.nodup_iff.1 hr.nodup
  refine ⟨⟨hcons.of_cons, ?_⟩, hperm⟩
  rw [← hr.map_eq]
  funext k'
  by_cases hkk : k' = k
  · subst k'
    have hgone := (lookup_eq_none_iff key k (t.modify pre.length f)).2
      (List.nodup_cons.1 hcons).1
    simp [toMap, hgone]
  · have hne : key s ≠ some k' := by
      rw [hs]
      exact fun h => hkk (Option.some.inj h).symm
    have hne' : key (f s) ≠ some k' := by
      rw [hfree]
      exact fun h => by contradiction
    rw [Function.update_of_ne hkk]
    simp only [toMap, lookup]
    rw [hmod, hslots, find?_split, find?_split, if_neg hne, if_neg hne']

omit [DecidableEq κ] in
/-- Freeing the slots whose key is not kept leaves the kept keys. -/
theorem occupied_map_filter {key : σ → Option κ} {f : σ → σ} {keep : κ → Bool}
    (hkeep : ∀ s k, key s = some k → keep k = true → f s = s)
    (hdrop : ∀ s k, key s = some k → keep k = false → key (f s) = none)
    (hfree : ∀ s, key s = none → key (f s) = none) (t : SlotTable σ n) :
    (t.map f).occupied key = (t.occupied key).filter keep := by
  simp only [occupied, map_slots]
  induction t.slots with
  | nil => rfl
  | cons s l ih =>
      rw [List.map_cons, List.filterMap_cons, List.filterMap_cons]
      cases hk : key s with
      | none => simpa [hfree s hk] using ih
      | some k =>
          cases hkk : keep k with
          | true => simpa [hkeep s k hk hkk, hk, hkk] using ih
          | false => simpa [hdrop s k hk hkk, hkk] using ih

/-- A kept key is found where it was. -/
theorem lookup_map_of_keep {key : σ → Option κ} {f : σ → σ} {keep : κ → Bool}
    (hkeep : ∀ s k, key s = some k → keep k = true → f s = s)
    (hdrop : ∀ s k, key s = some k → keep k = false → key (f s) = none)
    (hfree : ∀ s, key s = none → key (f s) = none) (t : SlotTable σ n) {k : κ}
    (hk : keep k = true) : (t.map f).lookup key k = t.lookup key k := by
  simp only [lookup, map_slots]
  induction t.slots with
  | nil => rfl
  | cons s l ih =>
      rw [List.map_cons, List.find?_cons, List.find?_cons]
      by_cases hs : key s = some k
      · rw [hkeep s k hs hk]
        simp [hs]
      · -- a slot that did not hold the key does not hold it when it is freed
        have hfs : key (f s) ≠ some k := by
          cases hks : key s with
          | none =>
              rw [hfree s hks]
              exact fun h => by contradiction
          | some k' =>
              cases hk' : keep k' with
              | true =>
                  rw [hkeep s k' hks hk']
                  exact hs
              | false =>
                  rw [hdrop s k' hks hk']
                  exact fun h => by contradiction
        simpa [hs, hfs] using ih

/-- Freeing every slot whose key is not kept. -/
theorem Refines.restrict {key : σ → Option κ} {val : σ → ν} {t : SlotTable σ n}
    {m : κ → Option ν} (hr : Refines key val t m) {f : σ → σ} {keep : κ → Bool}
    (hkeep : ∀ s k, key s = some k → keep k = true → f s = s)
    (hdrop : ∀ s k, key s = some k → keep k = false → key (f s) = none)
    (hfree : ∀ s, key s = none → key (f s) = none) :
    Refines key val (t.map f) (fun k => if keep k then m k else none) ∧
      (t.map f).occupied key = (t.occupied key).filter keep := by
  have hocc := occupied_map_filter hkeep hdrop hfree t
  refine ⟨⟨by rw [hocc]; exact hr.nodup.filter _, ?_⟩, hocc⟩
  rw [← hr.map_eq]
  ext1 k
  cases hkk : keep k with
  | false =>
      have hgone : k ∉ (t.map f).occupied key := by
        rw [hocc, List.mem_filter]
        exact fun hmem => by simp [hkk] at hmem
      simp [toMap, (lookup_eq_none_iff key k (t.map f)).2 hgone]
  | true =>
      simp only [toMap, lookup_map_of_keep hkeep hdrop hfree t hkk, if_true]

/-- Releasing slots restricts the map to the keys that are kept. -/
theorem Refines.release {key : σ → Option κ} {val : σ → ν} {t : SlotTable σ n}
    {m : κ → Option ν} (hr : Refines key val t m) {free : σ → σ}
    (hfree : ∀ s, key (free s) = none) (keep : κ → Bool) :
    Refines key val (t.release key free keep) fun k => if keep k then m k else none := by
  refine (hr.restrict ?_ ?_ ?_).1
  · intro s k hs hkeep
    simp [hs, hkeep]
  · intro s k hs hkeep
    simp [hs, hkeep, hfree]
  · intro s hs
    simp [hs]

/-- Filling a free slot adds exactly one occupied key. -/
theorem occupied_set_perm {key : σ → Option κ} {t : SlotTable σ n} {k : κ}
    {i : Nat} (s' : σ) (hscan : t.scan key k = .miss (some i))
    (hkey : key s' = some k) :
    ((t.set i s').occupied key).Perm (k :: t.occupied key) := by
  rcases scan_miss hscan with ⟨-, pre, s, post, hslots, rfl, hnone⟩
  rw [occupied_split key (set_split s' hslots), occupied_split key hslots, hkey, hnone]
  exact List.perm_middle

end Search

/-! ## Tables filled from the front -/

/-- The first cells hold the given values; the others were never written. -/
def Holds {α : Type} {n : Nat} (t : SlotTable (Option α) n) (l : List α) : Prop :=
  t.slots.take l.length = l.map some

theorem Holds.nil {α : Type} {n : Nat} (t : SlotTable (Option α) n) : t.Holds [] := by
  simp [Holds]

/-- Writing the next cell appends a value. -/
theorem Holds.push {α : Type} {n : Nat} {t : SlotTable (Option α) n} {l : List α}
    (h : t.Holds l) (hlt : l.length < n) (a : α) :
    (t.set l.length (some a)).Holds (l ++ [a]) := by
  have hlen : l.length < t.slots.length := by
    rw [t.length_slots]
    exact hlt
  unfold Holds at h ⊢
  rw [set_slots, List.length_append, List.length_singleton, List.take_add_one,
    List.getElem?_set_self hlen, List.take_set_of_le (Nat.le_refl _), h]
  simp

/-- Each value can be read back from its cell. -/
theorem Holds.get {α : Type} {n : Nat} {t : SlotTable (Option α) n} {l : List α}
    (h : t.Holds l) {i : Nat} (hi : i < l.length) : t.slots[i]? = some l[i]? := by
  have hget := congrArg (fun cells => cells[i]?) h
  simpa [List.getElem?_take, hi] using hget

end SlotTable
end Foundation
