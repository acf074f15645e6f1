import Anticheat.Foundation.Lists
import Anticheat.Foundation.StepRun

/-!
# Objects with a lock each

Any number of calls work on shared objects.  A call takes the lock of its object, runs a
piece of code one statement at a time, and releases the lock; the statements of calls on
different objects, and of calls that wait, interleave in any way.  An object can be disposed
of when no call uses it.

Beside the data, a state keeps for each object the data it had when its lock was last
released.  This is what the object is to everyone who does not hold the lock.

Main results:

- Theorem {lit}`System.step_cases`: what one step can do.
- Theorem {lit}`System.Inv.step`: every step keeps the lock with one holder, and the holder
  on its way from the saved data to what its operation makes of it.
- Theorem {lit}`System.Inv.commits`: when a call releases the lock, its operation has been
  applied to the saved data, all at once.
-/

namespace Foundation
namespace LockedObjects

variable {O D Op K R A : Type}

/-- The code that runs under the lock: where an operation starts, what one statement does,
and where it is over; and what becomes of the data of an object that is disposed of. -/
structure Code (D Op K R : Type) where
  start : Op → K
  next : D → K → D × K
  result : K → Option R
  dispose : D → D

inductive Phase (K R : Type) where
  | waiting
  | inside (k : K)
  | returned (r : R)

structure Call (O Op K R : Type) where
  object : O
  op : Op
  phase : Phase K R

/-- The call is over. -/
def Phase.isReturned : Phase K R → Bool
  | .returned _ => true
  | .waiting | .inside _ => false

structure System (O D Op K R : Type) where
  /-- the call that holds the lock of the object -/
  lock : O → Option Nat
  data : O → D
  /-- the data when the lock was last released -/
  saved : O → D
  disposed : O → Bool
  calls : List (Call O Op K R)

inductive Step (O Op : Type) where
  | enter (object : O) (op : Op)
  | advance (call : Nat)
  | dispose (object : O)

/-- No call has been made; every object has the same data. -/
def System.initial (d : D) : System O D Op K R where
  lock := fun _ => none
  data := fun _ => d
  saved := fun _ => d
  disposed := fun _ => false
  calls := []

/-- The call `i` goes on to another phase. -/
def System.goOn (s : System O D Op K R) (i : Nat) (c : Call O Op K R) (phase : Phase K R) :
    System O D Op K R :=
  { s with calls := s.calls.set i { c with phase := phase } }

/-- No call on the object is under way. -/
def System.idle [DecidableEq O] (s : System O D Op K R) (o : O) : Bool :=
  s.calls.all fun c => decide (c.object ≠ o) || c.phase.isReturned

section Steps

variable [DecidableEq O]

def System.acquire (s : System O D Op K R) (o : O) (i : Nat) : System O D Op K R :=
  { s with lock := Function.update s.lock o (some i) }

def System.setData (s : System O D Op K R) (o : O) (d : D) : System O D Op K R :=
  { s with data := Function.update s.data o d }

def System.release (s : System O D Op K R) (o : O) : System O D Op K R :=
  { s with
    lock := Function.update s.lock o none
    saved := Function.update s.saved o (s.data o) }

def System.dispose (code : Code D Op K R) (s : System O D Op K R) (o : O) :
    System O D Op K R :=
  { s with
    data := Function.update s.data o (code.dispose (s.data o))
    disposed := Function.update s.disposed o true }

/-- One step.  A call sleeps while another one holds the lock of its object; nothing is
called on an object that has been disposed of. -/
def System.step (code : Code D Op K R) (s : System O D Op K R) :
    Step O Op → Option (System O D Op K R)
  | .enter o op =>
      if s.disposed o then none
      else some { s with calls := s.calls ++ [⟨o, op, .waiting⟩] }
  | .advance i =>
      match s.calls[i]? with
      | none => none
      | some c =>
          match c.phase with
          | .waiting =>
              if s.lock c.object = none then
                some ((s.acquire c.object i).goOn i c (.inside (code.start c.op)))
              else none
          | .inside k =>
              match code.result k with
              | none =>
                  some ((s.setData c.object (code.next (s.data c.object) k).1).goOn i c
                    (.inside (code.next (s.data c.object) k).2))
              | some r => some ((s.release c.object).goOn i c (.returned r))
          | .returned _ => none
  | .dispose o =>
      if s.idle o && !s.disposed o then some (s.dispose code o) else none

/-! ## One step -/

/-- What a step of the call `i` does. -/
inductive System.Move (code : Code D Op K R) (s : System O D Op K R) (i : Nat)
    (c : Call O Op K R) : System O D Op K R → Prop where
  | locks : c.phase = .waiting → s.lock c.object = none →
      Move code s i c ((s.acquire c.object i).goOn i c (.inside (code.start c.op)))
  | works {k : K} : c.phase = .inside k → code.result k = none →
      Move code s i c
        ((s.setData c.object (code.next (s.data c.object) k).1).goOn i c
          (.inside (code.next (s.data c.object) k).2))
  | unlocks {k : K} {r : R} : c.phase = .inside k → code.result k = some r →
      Move code s i c ((s.release c.object).goOn i c (.returned r))

theorem System.step_cases {code : Code D Op K R} {s s' : System O D Op K R} {l : Step O Op}
    (h : s.step code l = some s') :
    (∃ o op, l = .enter o op ∧ s.disposed o = false ∧
      s' = { s with calls := s.calls ++ [⟨o, op, .waiting⟩] }) ∨
    (∃ i c, l = .advance i ∧ s.calls[i]? = some c ∧ s.Move code i c s') ∨
    (∃ o, l = .dispose o ∧ s.idle o = true ∧ s.disposed o = false ∧ s' = s.dispose code o) := by
  cases l with
  | enter o op =>
      rw [System.step] at h
      split_ifs at h with hlive
      cases h
      exact Or.inl ⟨o, op, rfl, by simpa using hlive, rfl⟩
  | advance i =>
      right
      left
      cases hc : s.calls[i]? with
      | none => simp [System.step, hc] at h
      | some c =>
          refine ⟨i, c, rfl, hc, ?_⟩
          simp only [System.step, hc] at h
          split at h
          · rename_i hphase
            split_ifs at h with hfree
            cases h
            exact .locks hphase hfree
          · rename_i k hphase
            split at h
            · rename_i hgoes
              cases h
              exact .works hphase hgoes
            · rename_i r hover
              cases h
              exact .unlocks hphase hover
          · cases h
  | dispose o =>
      rw [System.step] at h
      split_ifs at h with hidle
      cases h
      rw [Bool.and_eq_true, Bool.not_eq_true'] at hidle
      exact Or.inr (Or.inr ⟨o, rfl, hidle.1, hidle.2, rfl⟩)

end Steps

/-! ## The code refines an operation that is applied at once -/

/-- The code under the lock computes `apply`: `todo` says what is left to do at each place
of the code, and a statement does not change what comes out in the end. -/
structure Refinement (code : Code D Op K R) (apply : Op → A → R × A) where
  view : D → A
  /-- holds of the data while nobody has the lock -/
  Good : D → Prop
  /-- holds of the data at a place of the code -/
  At : K → D → Prop
  todo : K → A → R × A
  at_start : ∀ op d, Good d → At (code.start op) d
  todo_start : ∀ op a, todo (code.start op) a = apply op a
  at_next : ∀ k d, At k d → code.result k = none → At (code.next d k).2 (code.next d k).1
  todo_next : ∀ k d, At k d → code.result k = none →
    todo (code.next d k).2 (view (code.next d k).1) = todo k (view d)
  good_result : ∀ k d r, At k d → code.result k = some r → Good d
  todo_result : ∀ k d r, At k d → code.result k = some r → todo k (view d) = (r, view d)

variable {code : Code D Op K R} {apply : Op → A → R × A}

/-- The lock of an object has one holder, the call inside its code. -/
structure System.Inv (ref : Refinement code apply) (s : System O D Op K R) : Prop where
  held : ∀ o i, s.lock o = some i → ∃ c k, s.calls[i]? = some c ∧ c.object = o ∧
    c.phase = .inside k
  holder : ∀ (i : Nat) (c : Call O Op K R) (k : K), s.calls[i]? = some c →
    c.phase = .inside k → s.lock c.object = some i
  free : ∀ o, s.disposed o = false → s.lock o = none →
    ref.Good (s.data o) ∧ s.saved o = s.data o
  within : ∀ (i : Nat) (c : Call O Op K R) (k : K), s.calls[i]? = some c →
    c.phase = .inside k → ref.At k (s.data c.object) ∧
      ref.todo k (ref.view (s.data c.object)) = apply c.op (ref.view (s.saved c.object))
  gone : ∀ (i : Nat) (c : Call O Op K R), s.calls[i]? = some c →
    s.disposed c.object = true → c.phase.isReturned = true

theorem System.inv_initial {ref : Refinement code apply} {d : D} (hd : ref.Good d) :
    (System.initial d : System O D Op K R).Inv ref where
  held := by simp [System.initial]
  holder := by simp [System.initial]
  free := by simp [System.initial, hd]
  within := by simp [System.initial]
  gone := by simp [System.initial]

section

variable {ref : Refinement code apply} {s s' : System O D Op K R} {i : Nat}
  {c : Call O Op K R}

/-- A call that releases the lock has done its operation on the saved data. -/
theorem System.Inv.commits (h : s.Inv ref) (hc : s.calls[i]? = some c) {k : K} {r : R}
    (hphase : c.phase = .inside k) (hover : code.result k = some r) :
    apply c.op (ref.view (s.saved c.object)) = (r, ref.view (s.data c.object)) := by
  rcases h.within i c k hc hphase with ⟨hat, htodo⟩
  rw [← htodo]
  exact ref.todo_result k _ r hat hover

theorem System.Inv.enter (h : s.Inv ref) {o : O} (hlive : s.disposed o = false) (op : Op) :
    System.Inv ref { s with calls := s.calls ++ [⟨o, op, .waiting⟩] } := by
  have hold : ∀ {j : Nat} {other : Call O Op K R},
      (s.calls ++ [⟨o, op, .waiting⟩])[j]? = some other →
      s.calls[j]? = some other ∨ other = ⟨o, op, .waiting⟩ := by
    intro j other hj
    rw [List.getElem?_append] at hj
    split_ifs at hj with hlt
    · exact Or.inl hj
    · have hmem := List.mem_of_getElem? hj
      exact Or.inr (List.mem_singleton.1 hmem)
  refine ⟨?_, ?_, h.free, ?_, ?_⟩
  · intro o' j hj
    rcases h.held o' j hj with ⟨other, k, hother, hobject, hphase⟩
    refine ⟨other, k, ?_, hobject, hphase⟩
    rw [List.getElem?_append_left (List.getElem?_eq_some_iff.1 hother).1]
    exact hother
  · intro j other k hj hphase
    rcases hold hj with hj | rfl
    · exact h.holder j other k hj hphase
    · cases hphase
  · intro j other k hj hphase
    rcases hold hj with hj | rfl
    · exact h.within j other k hj hphase
    · cases hphase
  · intro j other hj hgone
    rcases hold hj with hj | rfl
    · exact h.gone j other hj hgone
    · rw [hlive] at hgone
      cases hgone

/-- Two calls cannot be inside the code of one object. -/
theorem System.Inv.object_ne (h : s.Inv ref) {j : Nat} {other : Call O Op K R} {k : K}
    (hj : s.calls[j]? = some other) (hphase : other.phase = .inside k) (hij : j ≠ i)
    (hlock : s.lock c.object = some i ∨ s.lock c.object = none) : other.object ≠ c.object := by
  intro heq
  have hholds := h.holder j other k hj hphase
  rw [heq] at hholds
  rcases hlock with hlock | hlock
  · rw [hlock, Option.some.injEq] at hholds
    exact hij hholds.symm
  · rw [hlock] at hholds
    cases hholds

variable [DecidableEq O]

theorem System.Inv.locks (h : s.Inv ref) (hc : s.calls[i]? = some c)
    (hphase : c.phase = .waiting) (hfree : s.lock c.object = none) :
    System.Inv ref ((s.acquire c.object i).goOn i c (.inside (code.start c.op))) := by
  have hi := (List.getElem?_eq_some_iff.1 hc).1
  have hlive : s.disposed c.object = false := by
    by_contra hgone
    have hreturned := h.gone i c hc (by simpa using hgone)
    rw [hphase] at hreturned
    cases hreturned
  rcases h.free c.object hlive hfree with ⟨hgood, hsaved⟩
  refine ⟨?_, ?_, ?_, ?_, ?_⟩
  · intro o j hj
    by_cases ho : o = c.object
    · subst ho
      change Function.update s.lock c.object (some i) c.object = some j at hj
      rw [Function.update_self, Option.some.injEq] at hj
      subst hj
      exact ⟨_, _, List.getElem?_set_self hi, rfl, rfl⟩
    · change Function.update s.lock c.object (some i) o = some j at hj
      rw [Function.update_of_ne ho] at hj
      rcases h.held o j hj with ⟨other, k, hother, hobject, hinside⟩
      refine ⟨other, k, ?_, hobject, hinside⟩
      have hne : i ≠ j := by
        rintro rfl
        rw [hc, Option.some.injEq] at hother
        rw [← hother] at hobject
        exact ho hobject.symm
      change (s.calls.set i _)[j]? = some other
      rw [List.getElem?_set_ne hne]
      exact hother
  · intro j other k hj hinside
    rcases getElem?_set_cases hj with ⟨rfl, rfl⟩ | ⟨hij, hj⟩
    · exact Function.update_self ..
    · have hne := h.object_ne hj hinside hij (Or.inr hfree)
      change Function.update s.lock c.object (some i) other.object = some j
      rw [Function.update_of_ne hne]
      exact h.holder j other k hj hinside
  · intro o hgone hnone
    by_cases ho : o = c.object
    · subst ho
      change Function.update s.lock c.object (some i) c.object = none at hnone
      rw [Function.update_self] at hnone
      cases hnone
    · change Function.update s.lock c.object (some i) o = none at hnone
      rw [Function.update_of_ne ho] at hnone
      exact h.free o hgone hnone
  · intro j other k hj hinside
    rcases getElem?_set_cases hj with ⟨rfl, rfl⟩ | ⟨hij, hj⟩
    · cases hinside
      refine ⟨ref.at_start c.op _ hgood, ?_⟩
      change ref.todo (code.start c.op) (ref.view (s.data c.object)) =
        apply c.op (ref.view (s.saved c.object))
      rw [ref.todo_start, hsaved]
    · exact h.within j other k hj hinside
  · intro j other hj hgone
    rcases getElem?_set_cases hj with ⟨rfl, rfl⟩ | ⟨-, hj⟩
    · change s.disposed c.object = true at hgone
      rw [hlive] at hgone
      cases hgone
    · exact h.gone j other hj hgone

theorem System.Inv.works (h : s.Inv ref) (hc : s.calls[i]? = some c) {k : K}
    (hphase : c.phase = .inside k) (hgoes : code.result k = none) :
    System.Inv ref ((s.setData c.object (code.next (s.data c.object) k).1).goOn i c
      (.inside (code.next (s.data c.object) k).2)) := by
  have hi := (List.getElem?_eq_some_iff.1 hc).1
  have hlock := h.holder i c k hc hphase
  rcases h.within i c k hc hphase with ⟨hat, htodo⟩
  refine ⟨?_, ?_, ?_, ?_, ?_⟩
  · intro o j hj
    rcases h.held o j hj with ⟨other, k', hother, hobject, hinside⟩
    by_cases hij : i = j
    · subst hij
      rw [hc, Option.some.injEq] at hother
      refine ⟨_, _, List.getElem?_set_self hi, ?_, rfl⟩
      rw [← hobject, ← hother]
    · refine ⟨other, k', ?_, hobject, hinside⟩
      change (s.calls.set i _)[j]? = some other
      rw [List.getElem?_set_ne hij]
      exact hother
  · intro j other k' hj hinside
    rcases getElem?_set_cases hj with ⟨rfl, rfl⟩ | ⟨-, hj⟩
    · exact hlock
    · exact h.holder j other k' hj hinside
  · intro o hgone hnone
    have ho : o ≠ c.object := by
      rintro rfl
      change s.lock c.object = none at hnone
      rw [hlock] at hnone
      cases hnone
    change ref.Good (Function.update s.data c.object _ o) ∧
      s.saved o = Function.update s.data c.object _ o
    rw [Function.update_of_ne ho]
    exact h.free o hgone hnone
  · intro j other k' hj hinside
    rcases getElem?_set_cases hj with ⟨rfl, rfl⟩ | ⟨hij, hj⟩
    · cases hinside
      change ref.At _ (Function.update s.data c.object _ c.object) ∧
        ref.todo _ (ref.view (Function.update s.data c.object _ c.object)) = _
      rw [Function.update_self]
      exact ⟨ref.at_next k _ hat hgoes, (ref.todo_next k _ hat hgoes).trans htodo⟩
    · have hne := h.object_ne hj hinside hij (Or.inl hlock)
      change ref.At k' (Function.update s.data c.object _ other.object) ∧
        ref.todo k' (ref.view (Function.update s.data c.object _ other.object)) = _
      rw [Function.update_of_ne hne]
      exact h.within j other k' hj hinside
  · intro j other hj hgone
    rcases getElem?_set_cases hj with ⟨rfl, rfl⟩ | ⟨-, hj⟩
    · have hreturned := h.gone j c hc hgone
      rw [hphase] at hreturned
      cases hreturned
    · exact h.gone j other hj hgone

theorem System.Inv.unlocks (h : s.Inv ref) (hc : s.calls[i]? = some c) {k : K} {r : R}
    (hphase : c.phase = .inside k) (hover : code.result k = some r) :
    System.Inv ref ((s.release c.object).goOn i c (.returned r)) := by
  have hlock := h.holder i c k hc hphase
  have hat := (h.within i c k hc hphase).1
  refine ⟨?_, ?_, ?_, ?_, ?_⟩
  · intro o j hj
    change Function.update s.lock c.object none o = some j at hj
    by_cases ho : o = c.object
    · subst ho
      rw [Function.update_self] at hj
      cases hj
    · rw [Function.update_of_ne ho] at hj
      rcases h.held o j hj with ⟨other, k', hother, hobject, hinside⟩
      have hne : i ≠ j := by
        rintro rfl
        rw [hc, Option.some.injEq] at hother
        rw [← hother] at hobject
        exact ho hobject.symm
      refine ⟨other, k', ?_, hobject, hinside⟩
      change (s.calls.set i _)[j]? = some other
      rw [List.getElem?_set_ne hne]
      exact hother
  · intro j other k' hj hinside
    rcases getElem?_set_cases hj with ⟨rfl, rfl⟩ | ⟨hij, hj⟩
    · cases hinside
    · change Function.update s.lock c.object none other.object = some j
      rw [Function.update_of_ne (h.object_ne hj hinside hij (Or.inl hlock))]
      exact h.holder j other k' hj hinside
  · intro o hgone hnone
    change ref.Good (s.data o) ∧ Function.update s.saved c.object _ o = s.data o
    by_cases ho : o = c.object
    · subst ho
      rw [Function.update_self]
      exact ⟨ref.good_result k _ r hat hover, rfl⟩
    · change Function.update s.lock c.object none o = none at hnone
      rw [Function.update_of_ne ho] at hnone ⊢
      exact h.free o hgone hnone
  · intro j other k' hj hinside
    rcases getElem?_set_cases hj with ⟨rfl, rfl⟩ | ⟨hij, hj⟩
    · cases hinside
    · change ref.At k' (s.data other.object) ∧ ref.todo k' (ref.view (s.data other.object)) =
        apply other.op (ref.view (Function.update s.saved c.object _ other.object))
      rw [Function.update_of_ne (h.object_ne hj hinside hij (Or.inl hlock))]
      exact h.within j other k' hj hinside
  · intro j other hj hgone
    rcases getElem?_set_cases hj with ⟨rfl, rfl⟩ | ⟨-, hj⟩
    · rfl
    · exact h.gone j other hj hgone

omit ref in
theorem System.idle_iff {o : O} :
    s.idle o = true ↔ ∀ c ∈ s.calls, c.object = o → c.phase.isReturned = true := by
  simp only [System.idle, List.all_eq_true, Bool.or_eq_true, decide_eq_true_eq]
  exact forall₂_congr fun c _ => by rw [ne_eq, imp_iff_not_or]

theorem System.Inv.dispose (h : s.Inv ref) {o : O} (hidle : s.idle o = true) :
    (s.dispose code o).Inv ref := by
  rw [System.idle_iff] at hidle
  have hne : ∀ {j : Nat} {other : Call O Op K R} {k : K}, s.calls[j]? = some other →
      other.phase = .inside k → other.object ≠ o := by
    intro j other k hj hinside ho
    have hreturned := hidle other (List.mem_of_getElem? hj) ho
    rw [hinside] at hreturned
    cases hreturned
  refine ⟨h.held, h.holder, ?_, ?_, ?_⟩
  · intro o' hgone hnone
    change Function.update s.disposed o true o' = false at hgone
    change ref.Good (Function.update s.data o _ o') ∧ s.saved o' = Function.update s.data o _ o'
    by_cases ho : o' = o
    · rw [ho, Function.update_self] at hgone
      cases hgone
    · rw [Function.update_of_ne ho] at hgone ⊢
      exact h.free o' hgone hnone
  · intro j other k hj hinside
    change ref.At k (Function.update s.data o _ other.object) ∧
      ref.todo k (ref.view (Function.update s.data o _ other.object)) = _
    rw [Function.update_of_ne (hne hj hinside)]
    exact h.within j other k hj hinside
  · intro j other hj hgone
    change Function.update s.disposed o true other.object = true at hgone
    by_cases ho : other.object = o
    · exact hidle other (List.mem_of_getElem? hj) ho
    · rw [Function.update_of_ne ho] at hgone
      exact h.gone j other hj hgone

theorem System.Inv.move (h : s.Inv ref) (hc : s.calls[i]? = some c) (hmove : s.Move code i c s') :
    s'.Inv ref := by
  cases hmove with
  | locks hphase hfree => exact h.locks hc hphase hfree
  | works hphase hgoes => exact h.works hc hphase hgoes
  | unlocks hphase hover => exact h.unlocks hc hphase hover

/-- Every step keeps the invariant. -/
theorem System.Inv.step (h : s.Inv ref) {l : Step O Op} (hstep : s.step code l = some s') :
    s'.Inv ref := by
  rcases System.step_cases hstep with ⟨o, op, -, hlive, rfl⟩ | ⟨i, c, -, hc, hmove⟩ |
    ⟨o, -, hidle, -, rfl⟩
  · exact h.enter hlive op
  · exact h.move hc hmove
  · exact h.dispose hidle

end

end LockedObjects
end Foundation
