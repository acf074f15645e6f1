import Anticheat.Foundation.Lists
import Anticheat.Foundation.StepRun
import Anticheat.Kernel.SnapshotIoctl

/-!
# First use of an open file

The state of an open file is allocated by the first BEGIN on it.  `ac_get_fd_state` looks
at the pointer without a lock, and only if there is none it takes the global lock, looks
again, allocates and publishes.  Each of these is one step of a call, and nothing but the
lock keeps the steps of different calls apart.

A state of the system knows which step every call takes next.  Beside the memory it keeps
the record of what has been published, and for which file a state was allocated.

Main results:

- Theorem {lit}`acGetFdState_steps`: what a call does that no other call interrupts.
- Theorem {lit}`FdSystem.step_refines`: for each file, every step of every call is a call
  that runs at once.
- Theorem {lit}`FdSystem.Inv.step`: the lock has one holder, and only the holder has a state
  that is not published.
- Theorem {lit}`first_use_unique`: over every interleaving, a file gets one state at most,
  every call returns this one, fully initialised, and no state is lost.
-/

namespace Anticheat

open Foundation

/-! ## The steps of a call -/

/-- A `struct ac_fd_state` in memory: the file it was allocated for, its contents, and
whether its lock has been set up. -/
structure FdObject (File : Type) where
  file : File
  state : AcFdState := {}
  lockInit : Bool := false

/-- The step that a call of `ac_get_fd_state` takes next, or what it has returned.  A
pointer is the number of the allocation. -/
inductive FdPhase where
  | loadAcquire
  | mutexLock
  | reload
  | kzalloc
  | mutexInit (st : Nat)
  | storeRelease (st : Nat)
  | mutexUnlock (st : Option Nat)
  | returned (st : Option Nat)
deriving DecidableEq

structure FdCall (File : Type) where
  file : File
  phase : FdPhase

/-- The open files, `ac_fd_state_alloc_lock` with the call that holds it, the states that
have been allocated, and the calls so far. -/
structure FdSystem (File : Type) where
  privateData : File → Option Nat
  allocLock : Option Nat
  heap : List (FdObject File)
  calls : List (FdCall File)
  /-- the record of the pointers that have been stored -/
  published : List (File × Nat)

/-- What can happen: a call is made on a file, or a call takes its next step.  Whether
`kzalloc` succeeds is up to the memory. -/
inductive FdStep (File : Type) where
  | enter (file : File)
  | advance (call : Nat) (alloc : Bool)

variable {File : Type}

/-- No file has been used: `ac_open` sets the pointer to NULL. -/
def FdSystem.initial : FdSystem File where
  privateData := fun _ => none
  allocLock := none
  heap := []
  calls := []
  published := []

/-- The call `i` goes on to another phase. -/
def FdSystem.goOn (s : FdSystem File) (i : Nat) (call : FdCall File) (phase : FdPhase) :
    FdSystem File :=
  { s with calls := s.calls.set i { call with phase := phase } }

/-- A successful `kzalloc`, for a call on the file. -/
def FdSystem.kzalloc (s : FdSystem File) (file : File) : FdSystem File :=
  { s with heap := s.heap ++ [{ file := file }] }

/-- `mutex_init(&st->lock)` -/
def FdSystem.mutexInit (s : FdSystem File) (st : Nat) : FdSystem File :=
  { s with heap := s.heap.modify st fun o => { o with lockInit := true } }

/-- `smp_store_release(&file->private_data, st)` -/
def FdSystem.storeRelease [DecidableEq File] (s : FdSystem File) (file : File) (st : Nat) :
    FdSystem File :=
  { s with
    privateData := Function.update s.privateData file (some st)
    published := s.published ++ [(file, st)] }

/-- The lock is taken by a call or released. -/
def FdSystem.setLock (s : FdSystem File) (holder : Option Nat) : FdSystem File :=
  { s with allocLock := holder }

/-- One step of `ac_get_fd_state`. -/
def FdSystem.step [DecidableEq File] (s : FdSystem File) : FdStep File → Option (FdSystem File)
  | .enter file => some { s with calls := s.calls ++ [⟨file, .loadAcquire⟩] }
  | .advance i alloc =>
      match s.calls[i]? with
      | none => none
      | some call =>
          match call.phase with
          | .loadAcquire =>
              match s.privateData call.file with
              | some st => some (s.goOn i call (.returned (some st)))
              | none => some (s.goOn i call .mutexLock)
          | .mutexLock =>
              -- a call sleeps while another one holds the lock
              if s.allocLock = none then some ((s.setLock (some i)).goOn i call .reload)
              else none
          | .reload =>
              match s.privateData call.file with
              | some st => some (s.goOn i call (.mutexUnlock (some st)))
              | none => some (s.goOn i call .kzalloc)
          | .kzalloc =>
              if alloc then
                some ((s.kzalloc call.file).goOn i call (.mutexInit s.heap.length))
              else some (s.goOn i call (.mutexUnlock none))
          | .mutexInit st =>
              some ((s.mutexInit st).goOn i call (.storeRelease st))
          | .storeRelease st =>
              some ((s.storeRelease call.file st).goOn i call (.mutexUnlock (some st)))
          | .mutexUnlock st => some ((s.setLock none).goOn i call (.returned st))
          | .returned _ => none

/-! ## One step -/

/-- What a step of the call `i` does. -/
inductive FdSystem.Move [DecidableEq File] (s : FdSystem File) (i : Nat) (call : FdCall File) :
    FdSystem File → Prop where
  | found {st : Nat} : call.phase = .loadAcquire → s.privateData call.file = some st →
      Move s i call (s.goOn i call (.returned (some st)))
  | missed : call.phase = .loadAcquire → s.privateData call.file = none →
      Move s i call (s.goOn i call .mutexLock)
  | locks : call.phase = .mutexLock → s.allocLock = none →
      Move s i call ((s.setLock (some i)).goOn i call .reload)
  | foundLocked {st : Nat} : call.phase = .reload → s.privateData call.file = some st →
      Move s i call (s.goOn i call (.mutexUnlock (some st)))
  | missedLocked : call.phase = .reload → s.privateData call.file = none →
      Move s i call (s.goOn i call .kzalloc)
  | allocates : call.phase = .kzalloc →
      Move s i call ((s.kzalloc call.file).goOn i call (.mutexInit s.heap.length))
  | allocFails : call.phase = .kzalloc → Move s i call (s.goOn i call (.mutexUnlock none))
  | inits {st : Nat} : call.phase = .mutexInit st →
      Move s i call ((s.mutexInit st).goOn i call (.storeRelease st))
  | publishes {st : Nat} : call.phase = .storeRelease st →
      Move s i call ((s.storeRelease call.file st).goOn i call (.mutexUnlock (some st)))
  | unlocks {st : Option Nat} : call.phase = .mutexUnlock st →
      Move s i call ((s.setLock none).goOn i call (.returned st))

/-- A step is a new call, or a step of a call. -/
theorem FdSystem.step_cases [DecidableEq File] {s s' : FdSystem File} {l : FdStep File}
    (h : s.step l = some s') :
    (∃ file, l = .enter file ∧ s' = { s with calls := s.calls ++ [⟨file, .loadAcquire⟩] }) ∨
    ∃ i alloc call, l = .advance i alloc ∧ s.calls[i]? = some call ∧ s.Move i call s' := by
  cases l with
  | enter file =>
      cases h
      exact Or.inl ⟨file, rfl, rfl⟩
  | advance i alloc =>
      right
      cases hcall : s.calls[i]? with
      | none => simp [FdSystem.step, hcall] at h
      | some call =>
          refine ⟨i, alloc, call, rfl, hcall, ?_⟩
          simp only [FdSystem.step, hcall] at h
          split at h
          · rename_i hphase
            split at h
            · rename_i st hdata
              cases h
              exact .found hphase hdata
            · rename_i hdata
              cases h
              exact .missed hphase hdata
          · rename_i hphase
            split_ifs at h with hfree
            cases h
            exact .locks hphase hfree
          · rename_i hphase
            split at h
            · rename_i st hdata
              cases h
              exact .foundLocked hphase hdata
            · rename_i hdata
              cases h
              exact .missedLocked hphase hdata
          · rename_i hphase
            split_ifs at h
            · cases h
              exact .allocates hphase
            · cases h
              exact .allocFails hphase
          · rename_i st hphase
            cases h
            exact .inits hphase
          · rename_i st hphase
            cases h
            exact .publishes hphase
          · rename_i st hphase
            cases h
            exact .unlocks hphase
          · contradiction

/-! ## The invariant -/

/-- The call holds the lock. -/
def FdPhase.locked : FdPhase → Bool
  | .loadAcquire | .mutexLock | .returned _ => false
  | .reload | .kzalloc | .mutexInit _ | .storeRelease _ | .mutexUnlock _ => true

/-- The state that the call has allocated and not published yet. -/
def FdPhase.unpublished : FdPhase → Option Nat
  | .mutexInit st | .storeRelease st => some st
  | .loadAcquire | .mutexLock | .reload | .kzalloc | .mutexUnlock _ | .returned _ => none

/-- What a call knows about the memory at its phase. -/
def FdSystem.Knows (s : FdSystem File) (call : FdCall File) : Prop :=
  match call.phase with
  | .loadAcquire | .mutexLock | .reload => True
  | .kzalloc => s.privateData call.file = none
  | .mutexInit st => s.privateData call.file = none ∧ s.heap[st]? = some { file := call.file }
  | .storeRelease st => s.privateData call.file = none ∧
      s.heap[st]? = some { file := call.file, lockInit := true }
  | .mutexUnlock st | .returned st => ∀ p, st = some p → s.privateData call.file = some p

/-- The lock is held by the one call that is between taking and releasing it. -/
structure FdSystem.CallsInv (s : FdSystem File) : Prop where
  held : ∀ i, s.allocLock = some i → i < s.calls.length
  holder : ∀ (i : Nat) (call : FdCall File), s.calls[i]? = some call →
    (call.phase.locked = true ↔ s.allocLock = some i)
  knows : ∀ (i : Nat) (call : FdCall File), s.calls[i]? = some call → s.Knows call

structure FdSystem.Inv (s : FdSystem File) : Prop extends s.CallsInv where
  /-- a pointer that was stored is not replaced -/
  stored : ∀ f st, s.privateData f = some st ↔ (f, st) ∈ s.published
  once : (s.published.map Prod.fst).Nodup
  initialised : ∀ f st, (f, st) ∈ s.published →
    s.heap[st]? = some { file := f, lockInit := true }
  /-- a state is published, or it belongs to a call that is about to publish it -/
  kept : ∀ st < s.heap.length, (∃ f, (f, st) ∈ s.published) ∨
    ∃ (i : Nat) (call : FdCall File), s.calls[i]? = some call ∧ call.phase.unpublished = some st

theorem FdSystem.inv_initial : (FdSystem.initial : FdSystem File).Inv where
  held := by simp [FdSystem.initial]
  holder := by simp [FdSystem.initial]
  knows := by simp [FdSystem.initial]
  stored := by simp [FdSystem.initial]
  once := by simp [FdSystem.initial]
  initialised := by simp [FdSystem.initial]
  kept := by simp [FdSystem.initial]

/-- Without the lock a call knows only the pointer that it returned, and pointers stay. -/
theorem FdSystem.Knows.of_unlocked {s s' : FdSystem File} {call : FdCall File}
    (h : s.Knows call) (hunlocked : call.phase.locked = false)
    (hdata : ∀ f st, s.privateData f = some st → s'.privateData f = some st) :
    s'.Knows call := by
  unfold FdSystem.Knows at h ⊢
  cases hphase : call.phase with
  | loadAcquire => trivial
  | mutexLock => trivial
  | returned st =>
      rw [hphase] at h
      exact fun p hp => hdata _ _ (h p hp)
  | reload | kzalloc | mutexInit _ | storeRelease _ | mutexUnlock _ =>
      rw [hphase] at hunlocked
      contradiction

section

variable {s s' : FdSystem File} {i : Nat} {call : FdCall File} {phase : FdPhase}

theorem FdSystem.Inv.unlocked_of_ne (h : s.Inv) (hlock : s.allocLock = some i) {j : Nat}
    {other : FdCall File} (hj : s.calls[j]? = some other) (hne : j ≠ i) :
    other.phase.locked = false := by
  by_contra hlocked
  rw [Bool.not_eq_false] at hlocked
  have hholder := (h.holder j other hj).1 hlocked
  rw [hlock, Option.some.injEq] at hholder
  exact hne hholder.symm

/-- The calls after a step of the call `i`: the memory is as it was, or the call holds the
lock and no pointer is replaced. -/
theorem FdSystem.Inv.calls_of (h : s.Inv) (hcall : s.calls[i]? = some call)
    (hcalls : s'.calls = s.calls.set i { call with phase := phase })
    (hlock : phase.locked = true ↔ s'.allocLock = some i)
    (hothers : ∀ j, j ≠ i → (s'.allocLock = some j ↔ s.allocLock = some j))
    (hknows : s'.Knows { call with phase := phase })
    (hmemory : (s'.privateData = s.privateData ∧ s'.heap = s.heap) ∨
      (s.allocLock = some i ∧
        ∀ f st, s.privateData f = some st → s'.privateData f = some st)) :
    s'.CallsInv := by
  have hi := (List.getElem?_eq_some_iff.1 hcall).1
  refine ⟨?_, ?_, ?_⟩
  · intro j hj
    rw [hcalls, List.length_set]
    by_cases hij : j = i
    · rw [hij]
      exact hi
    · exact h.held j ((hothers j hij).1 hj)
  · intro j other hj
    rw [hcalls] at hj
    rcases getElem?_set_cases hj with ⟨rfl, rfl⟩ | ⟨hij, hj⟩
    · exact hlock
    · rw [hothers j hij]
      exact h.holder j other hj
  · intro j other hj
    rw [hcalls] at hj
    rcases getElem?_set_cases hj with ⟨rfl, rfl⟩ | ⟨hij, hj⟩
    · exact hknows
    · have hold := h.knows j other hj
      rcases hmemory with ⟨hdata, hheap⟩ | ⟨hown, hdata⟩
      · unfold FdSystem.Knows at hold ⊢
        rw [hdata, hheap]
        exact hold
      · exact hold.of_unlocked (h.unlocked_of_ne hown hj hij) hdata

/-- A step loses no state if what the call had, it still has or has published. -/
theorem FdSystem.Inv.kept_of (h : s.Inv) (hcall : s.calls[i]? = some call)
    (hcalls : s'.calls = s.calls.set i { call with phase := phase })
    (hpublished : s.published ⊆ s'.published)
    (hheap : ∀ st < s'.heap.length, st < s.heap.length ∨ phase.unpublished = some st)
    (hown : ∀ st, call.phase.unpublished = some st →
      phase.unpublished = some st ∨ ∃ f, (f, st) ∈ s'.published) :
    ∀ st < s'.heap.length, (∃ f, (f, st) ∈ s'.published) ∨
      ∃ (j : Nat) (other : FdCall File), s'.calls[j]? = some other ∧
        other.phase.unpublished = some st := by
  have hi := (List.getElem?_eq_some_iff.1 hcall).1
  have hself : s'.calls[i]? = some { call with phase := phase } := by
    rw [hcalls, List.getElem?_set_self hi]
  intro st hst
  rcases hheap st hst with hst | hnew
  · rcases h.kept st hst with ⟨f, hf⟩ | ⟨j, other, hj, hother⟩
    · exact Or.inl ⟨f, hpublished hf⟩
    · by_cases hij : j = i
      · subst hij
        rw [hcall, Option.some.injEq] at hj
        rw [← hj] at hother
        rcases hown st hother with hkeeps | hgone
        · exact Or.inr ⟨j, _, hself, hkeeps⟩
        · exact Or.inl hgone
      · refine Or.inr ⟨j, other, ?_, hother⟩
        rw [hcalls, List.getElem?_set_ne (Ne.symm hij)]
        exact hj
  · exact Or.inr ⟨i, _, hself, hnew⟩

/-- A step that leaves the memory as it is. -/
theorem FdSystem.Inv.quiet (h : s.Inv) (hcall : s.calls[i]? = some call) {lock : Option Nat}
    (hbefore : call.phase.unpublished = none)
    (hlock : phase.locked = true ↔ lock = some i)
    (hothers : ∀ j, j ≠ i → (lock = some j ↔ s.allocLock = some j))
    (hknows : s.Knows { call with phase := phase }) :
    FdSystem.Inv ((s.setLock lock).goOn i call phase) := by
  refine ⟨h.calls_of hcall rfl hlock hothers hknows (Or.inl ⟨rfl, rfl⟩), h.stored, h.once,
    h.initialised, ?_⟩
  refine h.kept_of hcall rfl (List.Subset.refl _) (fun _ hst => Or.inl hst) ?_
  rw [hbefore]
  simp

/-- A step that leaves the lock as it is, too. -/
theorem FdSystem.Inv.silent (h : s.Inv) (hcall : s.calls[i]? = some call)
    (hbefore : call.phase.unpublished = none) (hlocked : phase.locked = call.phase.locked)
    (hknows : s.Knows { call with phase := phase }) : (s.goOn i call phase).Inv := by
  refine h.quiet hcall hbefore ?_ (fun _ _ => Iff.rfl) hknows
  rw [hlocked]
  exact h.holder i call hcall

/-- A new state belongs to the call that allocated it. -/
theorem FdSystem.Inv.allocates (h : s.Inv) (hcall : s.calls[i]? = some call)
    (hphase : call.phase = .kzalloc) :
    FdSystem.Inv ((s.kzalloc call.file).goOn i call (.mutexInit s.heap.length)) := by
  have hlock : s.allocLock = some i := (h.holder i call hcall).1 (by rw [hphase]; rfl)
  have habsent : s.privateData call.file = none := by
    have hknows := h.knows i call hcall
    rw [FdSystem.Knows, hphase] at hknows
    exact hknows
  refine ⟨h.calls_of hcall rfl (iff_of_true rfl hlock) (fun _ _ => Iff.rfl)
    ⟨habsent, List.getElem?_concat_length⟩ (Or.inr ⟨hlock, fun _ _ => id⟩),
    h.stored, h.once, ?_, ?_⟩
  · intro f st hst
    have hold := h.initialised f st hst
    change (s.heap ++ [({ file := call.file } : FdObject File)])[st]? = _
    rw [List.getElem?_append_left (List.getElem?_eq_some_iff.1 hold).1]
    exact hold
  · refine h.kept_of hcall rfl (List.Subset.refl _) ?_ ?_
    · intro st hst
      rw [FdSystem.goOn, FdSystem.kzalloc, List.length_append, List.length_singleton] at hst
      rcases Nat.lt_succ_iff_lt_or_eq.1 hst with hlt | rfl
      · exact Or.inl hlt
      · exact Or.inr rfl
    · rw [hphase]
      simp [FdPhase.unpublished]

/-- The lock of a state is set up by the call that allocated it. -/
theorem FdSystem.Inv.inits (h : s.Inv) (hcall : s.calls[i]? = some call) {st : Nat}
    (hphase : call.phase = .mutexInit st) :
    FdSystem.Inv ((s.mutexInit st).goOn i call (.storeRelease st)) := by
  have hlock : s.allocLock = some i := (h.holder i call hcall).1 (by rw [hphase]; rfl)
  have hknows := h.knows i call hcall
  rw [FdSystem.Knows, hphase] at hknows
  have hready : (s.mutexInit st).heap[st]? = some { file := call.file, lockInit := true } := by
    rw [FdSystem.mutexInit, List.getElem?_modify_eq, hknows.2]
    rfl
  refine ⟨h.calls_of hcall rfl (iff_of_true rfl hlock) (fun _ _ => Iff.rfl)
    ⟨hknows.1, hready⟩ (Or.inr ⟨hlock, fun _ _ => id⟩), h.stored, h.once, ?_, ?_⟩
  · -- setting up a lock does not undo that of another state
    intro f st' hst'
    change (s.heap.modify st _)[st']? = _
    rw [List.getElem?_modify, h.initialised f st' hst']
    split <;> rfl
  · refine h.kept_of hcall rfl (List.Subset.refl _) ?_ ?_
    · intro st' hst'
      change st' < (s.heap.modify st _).length at hst'
      rw [List.length_modify] at hst'
      exact Or.inl hst'
    · rw [hphase]
      exact fun _ hst' => Or.inl hst'

/-- The pointer is stored where there was none. -/
theorem FdSystem.Inv.publishes [DecidableEq File] (h : s.Inv) (hcall : s.calls[i]? = some call)
    {st : Nat} (hphase : call.phase = .storeRelease st) :
    FdSystem.Inv ((s.storeRelease call.file st).goOn i call (.mutexUnlock (some st))) := by
  have hlock : s.allocLock = some i := (h.holder i call hcall).1 (by rw [hphase]; rfl)
  have hknows := h.knows i call hcall
  rw [FdSystem.Knows, hphase] at hknows
  rcases hknows with ⟨habsent, hready⟩
  have hnew : ∀ p, (call.file, p) ∉ s.published := by
    intro p hp
    rw [← h.stored, habsent] at hp
    contradiction
  have hgrows : ∀ f p, s.privateData f = some p →
      Function.update s.privateData call.file (some st) f = some p := by
    intro f p hp
    rw [Function.update_of_ne]
    · exact hp
    · rintro rfl
      rw [habsent] at hp
      contradiction
  refine ⟨h.calls_of hcall rfl (iff_of_true rfl hlock) (fun _ _ => Iff.rfl)
    (fun p hp => by rw [← hp]; exact Function.update_self ..) (Or.inr ⟨hlock, hgrows⟩),
    ?_, ?_, ?_, ?_⟩
  · intro f p
    change Function.update s.privateData call.file (some st) f = some p ↔
      (f, p) ∈ s.published ++ [(call.file, st)]
    by_cases hf : f = call.file
    · subst hf
      simp [hnew, eq_comm]
    · simp [hf, h.stored]
  · rw [FdSystem.goOn, FdSystem.storeRelease, List.map_append, List.nodup_append]
    refine ⟨h.once, List.nodup_singleton _, ?_⟩
    rintro f hf f' hf' rfl
    rw [List.map_singleton, List.mem_singleton] at hf'
    rcases List.mem_map.1 hf with ⟨⟨f'', p⟩, hp, rfl⟩
    have hsame : f'' = call.file := hf'
    rw [hsame] at hp
    exact hnew p hp
  · intro f p hp
    rcases List.mem_append.1 hp with hp | hp
    · exact h.initialised f p hp
    · rw [List.mem_singleton, Prod.mk.injEq] at hp
      rw [hp.1, hp.2]
      exact hready
  · refine h.kept_of hcall rfl (List.subset_append_left _ _) (fun _ hst => Or.inl hst) ?_
    rw [hphase]
    intro p hp
    rw [FdPhase.unpublished, Option.some.injEq] at hp
    rw [← hp]
    exact Or.inr ⟨call.file, List.mem_concat_self⟩

/-- A step of a call keeps the invariant. -/
theorem FdSystem.Inv.move [DecidableEq File] (h : s.Inv) (hcall : s.calls[i]? = some call)
    (hmove : s.Move i call s') : s'.Inv := by
  have hknows := h.knows i call hcall
  cases hmove with
  | found hphase hdata =>
      refine h.silent hcall (by rw [hphase]; rfl) (by rw [hphase]; rfl) ?_
      rintro p ⟨⟩
      exact hdata
  | missed hphase _ => exact h.silent hcall (by rw [hphase]; rfl) (by rw [hphase]; rfl) trivial
  | locks hphase hfree =>
      refine h.quiet hcall (by rw [hphase]; rfl) (iff_of_true rfl rfl) ?_ trivial
      intro j hj
      rw [hfree]
      simp [hj.symm]
  | foundLocked hphase hdata =>
      refine h.silent hcall (by rw [hphase]; rfl) (by rw [hphase]; rfl) ?_
      rintro p ⟨⟩
      exact hdata
  | missedLocked hphase hdata =>
      exact h.silent hcall (by rw [hphase]; rfl) (by rw [hphase]; rfl) hdata
  | allocates hphase => exact h.allocates hcall hphase
  | allocFails hphase =>
      refine h.silent hcall (by rw [hphase]; rfl) (by rw [hphase]; rfl) ?_
      rintro p ⟨⟩
  | inits hphase => exact h.inits hcall hphase
  | publishes hphase => exact h.publishes hcall hphase
  | unlocks hphase =>
      rw [FdSystem.Knows, hphase] at hknows
      have hlock : s.allocLock = some i := (h.holder i call hcall).1 (by rw [hphase]; rfl)
      refine h.quiet hcall (by rw [hphase]; rfl) (iff_of_false (by simp [FdPhase.locked]) (by simp))
        ?_ hknows
      intro j hj
      rw [hlock]
      simp [hj.symm]

theorem FdSystem.Inv.enter (h : s.Inv) (file : File) :
    FdSystem.Inv { s with calls := s.calls ++ [⟨file, .loadAcquire⟩] } := by
  -- the new call is behind the others, and it is not the holder of the lock
  have hcases : ∀ (j : Nat) (other : FdCall File),
      (s.calls ++ [⟨file, .loadAcquire⟩])[j]? = some other →
        s.calls[j]? = some other ∨ (j = s.calls.length ∧ other = ⟨file, .loadAcquire⟩) := by
    intro j other hj
    rcases lt_trichotomy j s.calls.length with hlt | rfl | hgt
    · rw [List.getElem?_append_left hlt] at hj
      exact Or.inl hj
    · rw [List.getElem?_concat_length, Option.some.injEq] at hj
      exact Or.inr ⟨rfl, hj.symm⟩
    · rw [List.getElem?_eq_none (by simp; omega)] at hj
      contradiction
  refine ⟨⟨?_, ?_, ?_⟩, h.stored, h.once, h.initialised, ?_⟩
  · intro j hj
    rw [List.length_append]
    exact Nat.lt_add_right _ (h.held j hj)
  · intro j other hj
    rcases hcases j other hj with hj | ⟨rfl, rfl⟩
    · exact h.holder j other hj
    · refine iff_of_false (by simp [FdPhase.locked]) ?_
      intro hlock
      exact lt_irrefl _ (h.held _ hlock)
  · intro j other hj
    rcases hcases j other hj with hj | ⟨rfl, rfl⟩
    · exact h.knows j other hj
    · trivial
  · intro st hst
    rcases h.kept st hst with hf | ⟨j, other, hj, hother⟩
    · exact Or.inl hf
    · refine Or.inr ⟨j, other, ?_, hother⟩
      rw [List.getElem?_append_left (List.getElem?_eq_some_iff.1 hj).1]
      exact hj

end

/-- Every step keeps the invariant. -/
theorem FdSystem.Inv.step [DecidableEq File] {s s' : FdSystem File} {l : FdStep File}
    (h : s.Inv) (hstep : s.step l = some s') : s'.Inv := by
  rcases FdSystem.step_cases hstep with ⟨file, -, rfl⟩ | ⟨i, alloc, call, -, hcall, hmove⟩
  · exact h.enter file
  · exact h.move hcall hmove

/-! ## Calls that run at once -/

/-- What the pointer of a file points to. -/
def FdSystem.contents (s : FdSystem File) (f : File) : Option AcFdState :=
  (s.privateData f).bind fun st => s.heap[st]?.map FdObject.state

theorem FdSystem.Inv.contents_of_stored {s : FdSystem File} (h : s.Inv) {f : File} {st : Nat}
    (hdata : s.privateData f = some st) : s.contents f = some {} := by
  rw [FdSystem.contents, hdata, Option.bind_some, h.initialised f st ((h.stored f st).1 hdata)]
  rfl

theorem FdSystem.contents_of_absent {s : FdSystem File} {f : File}
    (hdata : s.privateData f = none) : s.contents f = none := by
  rw [FdSystem.contents, hdata]
  rfl

theorem acGetFdState_false_eq (priv : Option AcFdState) : acGetFdState false priv = priv := by
  cases priv <;> rfl

/-- A call whose steps follow one another does what `acGetFdState` says, and returns the
pointer of the file. -/
theorem acGetFdState_steps [DecidableEq File] {s : FdSystem File} (h : s.Inv)
    (hfree : s.allocLock = none) (file : File) (alloc : Bool) :
    ∃ k s', StepRun.run FdSystem.step s
        (.enter file :: List.replicate k (.advance s.calls.length alloc)) = some s' ∧
      s'.allocLock = none ∧ s'.contents file = acGetFdState alloc (s.contents file) ∧
      s'.calls = s.calls ++ [⟨file, .returned (s'.privateData file)⟩] := by
  cases hdata : s.privateData file with
  | some st =>
      refine ⟨1, { s with calls := s.calls ++ [⟨file, .returned (some st)⟩] }, ?_, hfree, ?_, ?_⟩
      · simp [StepRun.run, FdSystem.step, FdSystem.goOn, hdata]
      · rw [h.contents_of_stored hdata]
        exact h.contents_of_stored hdata
      · rw [hdata]
  | none =>
      rw [FdSystem.contents_of_absent hdata]
      cases alloc with
      | false =>
          refine ⟨5, { s with calls := s.calls ++ [⟨file, .returned none⟩] }, ?_, hfree,
            FdSystem.contents_of_absent hdata, by rw [hdata]⟩
          simp [StepRun.run, FdSystem.step, FdSystem.goOn, FdSystem.setLock, hdata, hfree]
      | true =>
          refine ⟨7, {
            privateData := Function.update s.privateData file (some s.heap.length)
            allocLock := none
            heap := s.heap ++ [{ file := file, lockInit := true }]
            calls := s.calls ++ [⟨file, .returned (some s.heap.length)⟩]
            published := s.published ++ [(file, s.heap.length)] }, ?_, rfl, ?_, ?_⟩
          · have hinit : (s.heap ++ [({ file := file } : FdObject File)]).modify s.heap.length
                (fun o => { o with lockInit := true }) =
                  s.heap ++ [{ file := file, lockInit := true }] := by
              rw [List.modify_eq_set_getElem?]
              simp
            simp [StepRun.run, FdSystem.step, FdSystem.goOn, FdSystem.setLock,
              FdSystem.kzalloc, FdSystem.mutexInit, FdSystem.storeRelease, hdata, hfree, hinit]
          · simp [FdSystem.contents, acGetFdState]
          · simp

/-- For each file, a step of any call is a call that runs at once, or leaves the file as it
is. -/
theorem FdSystem.step_refines [DecidableEq File] {s s' : FdSystem File} {l : FdStep File}
    (h : s.Inv) (hstep : s.step l = some s') (f : File) :
    ∃ alloc, s'.contents f = acGetFdState alloc (s.contents f) := by
  have hsame : s'.privateData f = s.privateData f → ∃ alloc,
      s'.contents f = acGetFdState alloc (s.contents f) := by
    intro hdata
    refine ⟨false, ?_⟩
    rw [acGetFdState_false_eq]
    cases hold : s.privateData f with
    | none =>
        rw [FdSystem.contents_of_absent hold, FdSystem.contents_of_absent (hdata.trans hold)]
    | some st =>
        rw [h.contents_of_stored hold, (h.step hstep).contents_of_stored (hdata.trans hold)]
  rcases FdSystem.step_cases hstep with ⟨file, -, rfl⟩ | ⟨i, alloc, call, -, hcall, hmove⟩
  · exact hsame rfl
  · cases hmove with
    | @publishes st hphase =>
        by_cases hf : f = call.file
        · have hknows := h.knows i call hcall
          rw [FdSystem.Knows, hphase] at hknows
          subst hf
          refine ⟨true, ?_⟩
          rw [FdSystem.contents_of_absent hknows.1]
          exact (h.step hstep).contents_of_stored (Function.update_self ..)
        · exact hsame (Function.update_of_ne hf ..)
    | found | missed | locks | foundLocked | missedLocked | allocates | allocFails | inits
    | unlocks => exact hsame rfl

/-! ## Runs -/

/-- The first use of a file. -/
structure FdSystem.FirstUse [DecidableEq File] (s : FdSystem File) (f : File) : Prop where
  /-- at most one state is ever published -/
  once : s.published.countP (fun p => p.1 = f) ≤ 1
  /-- every call that returned a state returned the published one, zeroed and with its lock
  set up -/
  same : ∀ call ∈ s.calls, call.file = f → ∀ st, call.phase = .returned (some st) →
    (f, st) ∈ s.published ∧ s.heap[st]? = some { file := f, state := {}, lockInit := true }
  /-- every state that was allocated is published, unless the call that allocated it is about
  to do so -/
  kept : ∀ (st : Nat) (o : FdObject File), s.heap[st]? = some o → o.file = f →
    (f, st) ∈ s.published ∨
      ∃ call ∈ s.calls, call.file = f ∧ call.phase.unpublished = some st
  /-- and that call is not blocked: its own steps publish the state -/
  completes : ∀ (i st : Nat) (call : FdCall File), s.calls[i]? = some call → call.file = f →
    call.phase.unpublished = some st → ∀ alloc, ∃ k s',
      StepRun.run FdSystem.step s (List.replicate k (.advance i alloc)) = some s' ∧
        (f, st) ∈ s'.published

/-- If all calls on a file have returned, all its states are published. -/
theorem FdSystem.FirstUse.published_of_returned [DecidableEq File] {s : FdSystem File} {f : File}
    (h : s.FirstUse f)
    (hreturned : ∀ call ∈ s.calls, call.file = f → ∃ st, call.phase = .returned st)
    {st : Nat} {o : FdObject File} (ho : s.heap[st]? = some o) (hf : o.file = f) :
    (f, st) ∈ s.published := by
  rcases h.kept st o ho hf with hpublished | ⟨call, hcall, hfile, hphase⟩
  · exact hpublished
  · rcases hreturned call hcall hfile with ⟨r, hr⟩
    rw [hr] at hphase
    contradiction

/-- A call that is about to publish a state is not blocked. -/
theorem FdSystem.publishes_unpublished [DecidableEq File] {s : FdSystem File} {i st : Nat}
    {call : FdCall File} (hcall : s.calls[i]? = some call)
    (hst : call.phase.unpublished = some st) (alloc : Bool) :
    ∃ k s', StepRun.run FdSystem.step s (List.replicate k (.advance i alloc)) = some s' ∧
      (call.file, st) ∈ s'.published := by
  have hstore : ∀ (s : FdSystem File) (call : FdCall File), s.calls[i]? = some call →
      call.phase = .storeRelease st → ∃ s', s.step (.advance i alloc) = some s' ∧
        (call.file, st) ∈ s'.published := by
    intro s call hcall hphase
    refine ⟨(s.storeRelease call.file st).goOn i call (.mutexUnlock (some st)), ?_,
      List.mem_concat_self⟩
    simp only [FdSystem.step, hcall, hphase]
  cases hphase : call.phase with
  | mutexInit p =>
      rw [hphase, FdPhase.unpublished, Option.some.injEq] at hst
      subst hst
      have hi := (List.getElem?_eq_some_iff.1 hcall).1
      have hinit : s.step (.advance i alloc) =
          some ((s.mutexInit p).goOn i call (.storeRelease p)) := by
        simp only [FdSystem.step, hcall, hphase]
      rcases hstore ((s.mutexInit p).goOn i call (.storeRelease p))
        { call with phase := .storeRelease p } (List.getElem?_set_self hi) rfl with
        ⟨s', hs', hpublished⟩
      refine ⟨2, s', ?_, hpublished⟩
      rw [List.replicate_succ, StepRun.run_cons hinit, List.replicate_one, StepRun.run_cons hs',
        StepRun.run_nil]
  | storeRelease p =>
      rw [hphase, FdPhase.unpublished, Option.some.injEq] at hst
      subst hst
      rcases hstore s call hcall hphase with ⟨s', hs', hpublished⟩
      refine ⟨1, s', ?_, hpublished⟩
      rw [List.replicate_one, StepRun.run_cons hs', StepRun.run_nil]
  | loadAcquire | mutexLock | reload | kzalloc | mutexUnlock _ | returned _ =>
      rw [hphase] at hst
      contradiction

theorem FdSystem.Inv.firstUse [DecidableEq File] {s : FdSystem File} (h : s.Inv) (f : File) :
    s.FirstUse f where
  once := by
    have hcount := List.nodup_iff_count_le_one.1 h.once f
    rw [List.count_eq_countP, List.countP_map] at hcount
    exact hcount
  same := by
    intro call hmem hfile st hphase
    rcases List.getElem?_of_mem hmem with ⟨i, hcall⟩
    have hknows := h.knows i call hcall
    rw [FdSystem.Knows, hphase] at hknows
    have hpublished := (h.stored _ _).1 (hknows st rfl)
    rw [hfile] at hpublished
    exact ⟨hpublished, h.initialised f st hpublished⟩
  kept := by
    intro st o ho hfile
    rcases h.kept st (List.getElem?_eq_some_iff.1 ho).1 with ⟨f', hf'⟩ | ⟨i, call, hcall, hst⟩
    · left
      have hready := h.initialised f' st hf'
      rw [ho, Option.some.injEq] at hready
      rw [hready] at hfile
      rw [← hfile]
      exact hf'
    · refine Or.inr ⟨call, List.mem_of_getElem? hcall, ?_, hst⟩
      have hknows := h.knows i call hcall
      have hcell : s.heap[st]?.map FdObject.file = some call.file := by
        unfold FdSystem.Knows at hknows
        cases hphase : call.phase with
        | mutexInit p | storeRelease p =>
            rw [hphase] at hst hknows
            rw [FdPhase.unpublished, Option.some.injEq] at hst
            rw [← hst, hknows.2]
            rfl
        | loadAcquire | mutexLock | reload | kzalloc | mutexUnlock _ | returned _ =>
            rw [hphase] at hst
            contradiction
      rw [ho, Option.map_some, Option.some.injEq] at hcell
      rw [← hcell]
      exact hfile
  completes := by
    intro i st call hcall hfile hst alloc
    subst hfile
    exact FdSystem.publishes_unpublished hcall hst alloc

/-- Over every interleaving of any number of calls, with every allocation succeeding or
failing: a file gets at most one state, every call that returns a state returns this one,
fully initialised, and no state that was allocated is lost. -/
theorem first_use_unique [DecidableEq File] (steps : List (FdStep File)) :
    StepRun.Always FdSystem.step (fun s => ∀ f, s.FirstUse f) FdSystem.initial steps := by
  have hinv : StepRun.Always FdSystem.step FdSystem.Inv (FdSystem.initial : FdSystem File) steps :=
    StepRun.always_of_step (fun _ _ _ h hstep => h.step hstep) FdSystem.inv_initial steps
  exact hinv.mono fun _ h => h.firstUse

/-- Two calls miss the pointer; the second one takes the lock first, and the first one
finds its state. -/
example : ((StepRun.run FdSystem.step (FdSystem.initial : FdSystem Nat)
    ([.enter 3, .enter 3, .advance 0 true, .advance 1 true] ++
      List.replicate 6 (.advance 1 true) ++ List.replicate 3 (.advance 0 true))).map fun s =>
        s.calls.map FdCall.phase) = some [.returned (some 0), .returned (some 0)] := by
  decide

end Anticheat
