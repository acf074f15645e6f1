import Mathlib.Tactic

/-!
# Bounded rings

A ring is an array of fixed capacity with three redundant cursors: the slot to
write next, the slot to read next and the number of elements in between.  Its
operations are the ones a C ring buffer performs: put an element at the head,
and drop the oldest element at the tail.

Main results:

- Theorem {lit}`Ring.Wf.put` and {lit}`Ring.Wf.dropOldest`: the cursors stay
  consistent.
- Theorem {lit}`Ring.contents_put`: a put appends to the pending elements.
- Theorem {lit}`Ring.contents_dropOldest`: a drop removes the first pending
  element.
- Theorems {lit}`Ring.map_put` and {lit}`Ring.map_oldest`: the operations commute with
  taking images of the elements.
-/

namespace Foundation

/-- A ring of capacity `cap`.  Nothing is assumed about the cursors. -/
structure Ring (α : Type) (cap : Nat) where
  cells : List α
  head : Nat
  tail : Nat
  count : Nat
deriving DecidableEq

namespace Ring

variable {α : Type} [Inhabited α] {cap : Nat}

/-- The zero-initialised ring. -/
def empty (α : Type) [Inhabited α] (cap : Nat) : Ring α cap where
  cells := List.replicate cap default
  head := 0
  tail := 0
  count := 0

/-- Store an element at the head and advance the head. -/
def put (r : Ring α cap) (a : α) : Ring α cap :=
  { r with
    cells := r.cells.set r.head a
    head := (r.head + 1) % cap
    count := r.count + 1 }

/-- Advance the tail over the oldest element. -/
def dropOldest (r : Ring α cap) : Ring α cap :=
  { r with
    tail := (r.tail + 1) % cap
    count := r.count - 1 }

/-- The element at the tail. -/
def oldest (r : Ring α cap) : α :=
  r.cells.getD r.tail default

/-- The pending elements, oldest first. -/
def contents (r : Ring α cap) : List α :=
  (List.range r.count).map fun i => r.cells.getD ((r.tail + i) % cap) default

/-- The cursors agree with each other and lie inside the array. -/
structure Wf (r : Ring α cap) : Prop where
  length_cells : r.cells.length = cap
  tail_lt : r.tail < cap
  head_eq : r.head = (r.tail + r.count) % cap
  count_le : r.count ≤ cap

omit [Inhabited α] in
theorem Wf.head_lt {r : Ring α cap} (h : r.Wf) : r.head < cap := by
  rw [h.head_eq]
  exact Nat.mod_lt _ (Nat.zero_lt_of_lt h.tail_lt)

@[simp]
theorem length_contents (r : Ring α cap) : r.contents.length = r.count := by
  simp [contents]

theorem Wf.empty (hcap : 0 < cap) : (Ring.empty α cap).Wf where
  length_cells := List.length_replicate
  tail_lt := hcap
  head_eq := by simp [Ring.empty]
  count_le := Nat.zero_le _

@[simp]
theorem contents_empty : (Ring.empty α cap).contents = [] := by
  simp [contents, Ring.empty]

omit [Inhabited α] in
theorem Wf.put {r : Ring α cap} (h : r.Wf) (hroom : r.count < cap) (a : α) :
    (r.put a).Wf where
  length_cells := by simp [Ring.put, h.length_cells]
  tail_lt := h.tail_lt
  head_eq := by
    simp only [Ring.put]
    rw [h.head_eq, Nat.mod_add_mod, Nat.add_assoc]
  count_le := hroom

omit [Inhabited α] in
theorem Wf.dropOldest {r : Ring α cap} (h : r.Wf) (hpos : 0 < r.count) :
    r.dropOldest.Wf where
  length_cells := h.length_cells
  tail_lt := Nat.mod_lt _ (Nat.zero_lt_of_lt h.tail_lt)
  head_eq := by
    have hsum : r.tail + 1 + (r.count - 1) = r.tail + r.count := by omega
    simp only [Ring.dropOldest]
    rw [Nat.mod_add_mod, hsum, h.head_eq]
  count_le := by
    have := h.count_le
    simp only [Ring.dropOldest]
    omega

/-- Within one capacity of the tail, distinct offsets are distinct slots. -/
theorem offset_ne {tail i j : Nat} (hij : i < j) (hj : j < cap) :
    (tail + i) % cap ≠ (tail + j) % cap := by
  intro h
  have hmod : tail + i ≡ tail + j [MOD cap] := h
  have hdvd := (Nat.modEq_iff_dvd' (by omega)).1 hmod
  have hle := Nat.le_of_dvd (by omega) hdvd
  omega

/-- Putting an element appends it to the pending ones. -/
theorem contents_put {r : Ring α cap} (h : r.Wf) (hroom : r.count < cap) (a : α) :
    (r.put a).contents = r.contents ++ [a] := by
  have hhead := h.head_lt
  simp only [contents, put]
  rw [List.range_succ, List.map_append, List.map_singleton]
  congr 1
  · apply List.map_congr_left
    intro i hi
    have hne : r.head ≠ (r.tail + i) % cap := by
      rw [h.head_eq]
      exact (offset_ne (List.mem_range.1 hi) hroom).symm
    rw [List.getD_eq_getElem?_getD, List.getD_eq_getElem?_getD,
      List.getElem?_set_ne hne]
  · rw [← h.head_eq, List.getD_eq_getElem?_getD,
      List.getElem?_set_self (by rw [h.length_cells]; exact hhead)]
    rfl

/-- Dropping the oldest element removes the first pending one. -/
theorem contents_dropOldest {r : Ring α cap} (h : r.Wf) (hpos : 0 < r.count) :
    r.contents = r.oldest :: r.dropOldest.contents := by
  rcases Nat.exists_eq_succ_of_ne_zero hpos.ne' with ⟨n, hn⟩
  simp only [contents, oldest, dropOldest]
  rw [hn, List.range_succ_eq_map, List.map_cons, List.map_map, Nat.add_zero,
    Nat.mod_eq_of_lt h.tail_lt]
  congr 1
  apply List.map_congr_left
  intro i _
  have hidx : r.tail + (i + 1) = r.tail + 1 + i := by omega
  simp only [Function.comp_apply, Nat.succ_eq_add_one, Nat.mod_add_mod]
  rw [hidx]

/-! ## Rings of images -/

section Map

variable {β : Type} [Inhabited β]

/-- The ring whose cells hold the images of the cells. -/
def map (f : α → β) (r : Ring α cap) : Ring β cap where
  cells := r.cells.map f
  head := r.head
  tail := r.tail
  count := r.count

omit [Inhabited α] [Inhabited β] in
theorem map_put (f : α → β) (r : Ring α cap) (a : α) :
    (r.put a).map f = (r.map f).put (f a) := by
  simp [map, put, List.map_set]

theorem map_oldest {f : α → β} (hf : f default = default) (r : Ring α cap) :
    (r.map f).oldest = f r.oldest := by
  simp [map, oldest, ← hf]

theorem map_empty {f : α → β} (hf : f default = default) :
    (Ring.empty α cap).map f = Ring.empty β cap := by
  simp [map, empty, hf]

end Map

end Ring
end Foundation
