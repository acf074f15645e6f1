import Mathlib.Data.List.Infix

/-!
# Records in a stream of bytes

A sender writes records of one size, one after another, and a receiver gets the bytes in
pieces.  Where a record ends cannot be seen from the pieces, only from the number of
bytes.  A stream is cut into records in one way only, and a longer stream has the records
of a shorter one first.

Main results:

- Theorem {lit}`IsCut.isPrefix`: the records of a prefix come first.
- Theorem {lit}`IsCut.blocks_eq`: the records of a stream are unique.
- Theorems {lit}`IsCut.complete` and {lit}`IsCut.more`: what a piece adds to the records.
-/

namespace Foundation

variable {α : Type} {size : Nat} {bytes bytes' rest rest' piece : List α}
  {blocks blocks' : List (List α)}

/-- The bytes are whole blocks and a rest that is shorter than a block. -/
structure IsCut (size : Nat) (bytes : List α) (blocks : List (List α)) (rest : List α) :
    Prop where
  bytes_eq : bytes = blocks.flatten ++ rest
  length_eq : ∀ b ∈ blocks, b.length = size
  rest_lt : rest.length < size

theorem isCut_nil (h : 0 < size) : IsCut size ([] : List α) [] [] :=
  ⟨rfl, by simp, h⟩

theorem isCut_of_short (h : rest.length < size) : IsCut size rest [] rest :=
  ⟨rfl, by simp, h⟩

theorem IsCut.cons (h : IsCut size bytes blocks rest) {b : List α} (hb : b.length = size) :
    IsCut size (b ++ bytes) (b :: blocks) rest where
  bytes_eq := by rw [h.bytes_eq, List.flatten_cons, List.append_assoc]
  length_eq := List.forall_mem_cons.2 ⟨hb, h.length_eq⟩
  rest_lt := h.rest_lt

theorem IsCut.of_cons {b : List α} (h : IsCut size bytes (b :: blocks) rest) :
    b.length = size ∧ ∃ tail, bytes = b ++ tail ∧ IsCut size tail blocks rest := by
  have hlength := List.forall_mem_cons.1 h.length_eq
  refine ⟨hlength.1, blocks.flatten ++ rest, ?_, rfl, hlength.2, h.rest_lt⟩
  rw [h.bytes_eq, List.flatten_cons, List.append_assoc]

/-- The records of a prefix come first. -/
theorem IsCut.isPrefix (h : IsCut size bytes blocks rest) (h' : IsCut size bytes' blocks' rest')
    (hbytes : bytes <+: bytes') : blocks <+: blocks' := by
  induction blocks generalizing blocks' bytes bytes' with
  | nil => exact List.nil_prefix
  | cons b blocks ih =>
      rcases h.of_cons with ⟨hb, tail, rfl, htail⟩
      cases blocks' with
      | nil =>
          -- the longer stream has no whole block, but the shorter one has
          have hlong := hbytes.length_le
          have hshort := h'.rest_lt
          rw [h'.bytes_eq, List.flatten_nil, List.nil_append, List.length_append] at hlong
          omega
      | cons b' blocks' =>
          rcases h'.of_cons with ⟨hb', tail', rfl, htail'⟩
          rcases hbytes with ⟨t, ht⟩
          rw [List.append_assoc] at ht
          rcases List.append_inj ht (hb.trans hb'.symm) with ⟨rfl, htails⟩
          exact List.cons_prefix_cons.2 ⟨rfl, ih htail htail' ⟨t, htails⟩⟩

/-- The records of a stream are unique. -/
theorem IsCut.blocks_eq (h : IsCut size bytes blocks rest) (h' : IsCut size bytes blocks' rest') :
    blocks = blocks' := by
  have hle := (h'.isPrefix h (List.prefix_refl bytes)).length_le
  exact (h.isPrefix h' (List.prefix_refl bytes)).eq_of_length_le hle

/-- A piece that ends a record. -/
theorem IsCut.complete (h : IsCut size bytes blocks rest)
    (hpiece : rest.length + piece.length = size) :
    IsCut size (bytes ++ piece) (blocks ++ [rest ++ piece]) [] where
  bytes_eq := by simp [h.bytes_eq]
  length_eq := by
    intro b hb
    rcases List.mem_append.1 hb with hb | hb
    · exact h.length_eq b hb
    · rw [List.mem_singleton.1 hb, List.length_append, hpiece]
  rest_lt := Nat.lt_of_le_of_lt (Nat.zero_le _) h.rest_lt

/-- A piece that leaves the last record open. -/
theorem IsCut.more (h : IsCut size bytes blocks rest)
    (hpiece : rest.length + piece.length < size) :
    IsCut size (bytes ++ piece) blocks (rest ++ piece) where
  bytes_eq := by rw [h.bytes_eq, List.append_assoc]
  length_eq := h.length_eq
  rest_lt := by rw [List.length_append]; exact hpiece

end Foundation
