import Mathlib.Data.List.TakeWhile
import Anticheat.Foundation.CText
import Anticheat.Foundation.SlotTable

/-!
# Memory as C code finds it

An object that C code is handed out by an allocator, or declares on its stack,
holds arbitrary contents until it is written.  The library has the operations
that write such objects: clearing, copying a string into a character array, and
copying a whole object in from elsewhere.

An array that is filled step by step is described by what is known of it: a table
that has a value for every cell that was written since the allocation, and nothing
for the others.

Main results:

- Theorem {lit}`CharArray.str_strscpy`: the string in an array after a copy does not
  depend on what the array held before.
- Theorem {lit}`Agrees.set`: writing a cell of an array and of what is known of it
  keeps the two in agreement.
-/

namespace Foundation

/-! ## Clearing -/

/-- Objects with a representation in which all bytes are zero. -/
class Clear (α : Type) where
  zero : α

instance : Clear UInt8 := ⟨0⟩

instance {α : Type} [Clear α] {n : Nat} : Clear (SlotTable α n) :=
  ⟨SlotTable.replicate n Clear.zero⟩

/-- `memset(dst, 0, sizeof(*dst))` -/
def memset {α : Type} [Clear α] (_dst : α) : α :=
  Clear.zero

/-- A copy of a whole object from outside, which may fault. -/
def copyFromUser {α : Type} (_dst : α) (user : Option α) : Option α :=
  user

/-! ## Character arrays -/

/-- `char a[n]` -/
abbrev CharArray (n : Nat) := SlotTable UInt8 n

namespace CharArray

variable {n : Nat}

/-- Overwrite the first bytes. -/
def write (dst : CharArray n) (bytes : List UInt8) : CharArray n where
  slots := (bytes ++ dst.slots.drop bytes.length).take n
  length_slots := by
    rw [List.length_take, List.length_append, List.length_drop, dst.length_slots]
    omega

/-- Overwrite the bytes from an offset on. -/
def writeFrom (dst : CharArray n) (off : Nat) (bytes : List UInt8) : CharArray n where
  slots := (dst.slots.take off ++ bytes ++ dst.slots.drop (off + bytes.length)).take n
  length_slots := by
    rw [List.length_take, List.length_append, List.length_append, List.length_take,
      List.length_drop, dst.length_slots]
    omega

/-- What stands before the bytes is kept. -/
theorem take_writeFrom (dst : CharArray n) {off : Nat} {bytes : List UInt8}
    (h : off + bytes.length ≤ n) :
    (dst.writeFrom off bytes).slots.take (off + bytes.length) = dst.slots.take off ++ bytes := by
  have hlen : (dst.slots.take off ++ bytes).length = off + bytes.length := by
    rw [List.length_append, List.length_take, dst.length_slots]
    omega
  rw [writeFrom, List.take_take, Nat.min_eq_left h]
  exact List.take_left' hlen

/-- `strscpy` and `snprintf`: the string is cut to the array, a NUL follows, and the
bytes after it are kept. -/
def strscpy (dst : CharArray n) (src : CStr) : CharArray n :=
  dst.write (CStr.bounded n src ++ [0])

/-- The string that an array holds. -/
def str (a : CharArray n) : CStr :=
  a.slots.takeWhile (· != 0)

/-- The array that was cleared before a string was copied to it. -/
def ofStr (src : CStr) : CharArray n :=
  strscpy Clear.zero src

theorem ofStr_nil (hn : 0 < n) : (ofStr [] : CharArray n) = Clear.zero := by
  rcases Nat.exists_eq_succ_of_ne_zero hn.ne' with ⟨m, rfl⟩
  have hslots : (ofStr [] : CharArray (m + 1)).slots = List.replicate (m + 1) 0 := by
    simp [ofStr, strscpy, write, CStr.bounded, Clear.zero, SlotTable.replicate,
      List.replicate_succ]
  cases hofStr : (ofStr [] : CharArray (m + 1)) with
  | mk slots length_slots =>
      rw [hofStr] at hslots
      cases hslots
      rfl

theorem strscpy_bounded (dst : CharArray n) (src : CStr) :
    dst.strscpy (CStr.bounded n src) = dst.strscpy src := by
  rw [strscpy, strscpy, CStr.bounded, CStr.bounded, List.take_take, Nat.min_self]

/-- Reading a string stops at a NUL. -/
theorem takeWhile_nul (s rest : List UInt8) :
    (s ++ 0 :: rest).takeWhile (· != 0) = s.takeWhile (· != 0) := by
  rw [List.takeWhile_append]
  split
  · rename_i hall
    rw [List.takeWhile_cons_of_neg (by decide), List.append_nil]
    exact ((List.takeWhile_prefix _).eq_of_length hall).symm
  · rfl

theorem str_strscpy (hn : 0 < n) (dst : CharArray n) (src : CStr) :
    (dst.strscpy src).str = (CStr.bounded n src).takeWhile (· != 0) := by
  have hlen : (CStr.bounded n src ++ [0]).length ≤ n := by
    rw [List.length_append, CStr.bounded, List.length_take, List.length_singleton]
    omega
  simp only [str, strscpy, write]
  rw [List.take_append, List.take_of_length_le hlen, List.append_assoc, List.singleton_append,
    takeWhile_nul]

/-- A string without a NUL is read back, as far as it fits. -/
theorem str_ofStr (hn : 0 < n) {src : CStr} (hsrc : ∀ b ∈ src, b ≠ 0) :
    (ofStr src : CharArray n).str = CStr.bounded n src := by
  rw [ofStr, str_strscpy hn, List.takeWhile_eq_self_iff]
  intro b hb
  simpa using hsrc b (List.mem_of_mem_take hb)

/-- The string that the array holds ends in a NUL inside the array. -/
def Terminated (a : CharArray n) : Prop :=
  a.slots[a.str.length]? = some 0

/-- An array with a NUL in it is terminated. -/
theorem terminated_of_mem {a : CharArray n} (h : 0 ∈ a.slots) : a.Terminated := by
  have hslots : ∀ l : List UInt8, 0 ∈ l → l[(l.takeWhile (· != 0)).length]? = some 0 := by
    intro l hl
    induction l with
    | nil => contradiction
    | cons b l ih =>
        by_cases hb : b = 0
        · subst hb
          rfl
        · rw [List.takeWhile_cons, bne_iff_ne.2 hb, if_pos rfl, List.length_cons,
            List.getElem?_cons_succ]
          exact ih (List.mem_of_ne_of_mem (Ne.symm hb) hl)
  exact hslots a.slots h

/-- A terminated string is shorter than its array. -/
theorem Terminated.length_lt {a : CharArray n} (h : a.Terminated) : a.str.length < n := by
  have hlt := (List.getElem?_eq_some_iff.1 h).1
  rw [a.length_slots] at hlt
  exact hlt

end CharArray

/-! ## Arrays of images -/

section Image

variable {α β : Type} {n : Nat}

/-- The array whose cells hold the images of the cells. -/
def SlotTable.image (f : α → β) (t : SlotTable α n) : SlotTable β n where
  slots := t.slots.map f
  length_slots := by rw [List.length_map, t.length_slots]

theorem SlotTable.image_set (f : α → β) (t : SlotTable α n) (i : Nat) (a : α) :
    (t.set i a).image f = (t.image f).set i (f a) := by
  simp [SlotTable.image, SlotTable.set, List.map_set]

/-- Changing a cell in place is overwriting it with what it becomes. -/
theorem SlotTable.modify_eq_set {t : SlotTable α n} {i : Nat} {a : α}
    (h : t.slots[i]? = some a) (f : α → α) : t.modify i f = t.set i (f a) := by
  have hslots : t.slots.modify i f = t.slots.set i (f a) := by
    rw [List.modify_eq_set_getElem?, h]
    rfl
  simp only [SlotTable.modify, SlotTable.set, hslots]

theorem SlotTable.image_replicate (f : α → β) (a : α) :
    (SlotTable.replicate n a).image f = SlotTable.replicate n (f a) := by
  simp [SlotTable.image, SlotTable.replicate]

end Image

/-! ## Arrays that are known in part -/

section Known

variable {α β : Type} {n : Nat} {image : α → β}

/-- Every cell whose value is known holds the image of that value. -/
def Agrees (image : α → β) (known : SlotTable (Option α) n) (t : SlotTable β n) : Prop :=
  ∀ (i : Nat) (v : α), known.slots[i]? = some (some v) → t.slots[i]? = some (image v)

/-- Nothing is known of an array that was just allocated. -/
theorem Agrees.unwritten (image : α → β) (t : SlotTable β n) :
    Agrees image (SlotTable.replicate n none) t := by
  intro i v h
  rw [SlotTable.replicate, List.getElem?_replicate] at h
  split at h <;> simp at h

/-- Writing a cell makes it known. -/
theorem Agrees.set {known : SlotTable (Option α) n} {t : SlotTable β n}
    (h : Agrees image known t) (i : Nat) (v : α) :
    Agrees image (known.set i (some v)) (t.set i (image v)) := by
  intro j w hj
  rw [SlotTable.set_slots, List.getElem?_set, known.length_slots] at hj
  rw [SlotTable.set_slots, List.getElem?_set, t.length_slots]
  by_cases hij : i = j
  · rw [if_pos hij] at hj ⊢
    split at hj
    · rename_i hlt
      cases hj
      rw [if_pos hlt]
    · contradiction
  · rw [if_neg hij] at hj ⊢
    exact h j w hj

/-- The same for an array behind a pointer, which may be NULL. -/
def PointsTo (image : α → β) :
    Option (SlotTable (Option α) n) → Option (SlotTable β n) → Prop
  | none, none => True
  | some known, some t => Agrees image known t
  | _, _ => False

theorem PointsTo.set {known : Option (SlotTable (Option α) n)} {t : Option (SlotTable β n)}
    (h : PointsTo image known t) (i : Nat) (v : α) :
    PointsTo image (known.map fun k => k.set i (some v)) (t.map fun t => t.set i (image v)) := by
  cases known with
  | none =>
      cases t with
      | none => exact trivial
      | some t => exact h.elim
  | some known =>
      cases t with
      | none => exact h.elim
      | some t => exact Agrees.set h i v

end Known

end Foundation
