import Anticheat.Kernel.FirstUse
import Anticheat.Kernel.SnapshotLock

/-!
# Concurrent snapshot calls

An open file can be shared, so any number of calls of the snapshot ioctls are under way at
once, on one file or on several.  A call checks the capability, copies its argument in, gets
the state of the file, works on it under its lock and copies its answer out; `ac_release`
frees the state when the last reference to the file goes away.  Each of these is one or more
steps, and the steps of different calls interleave in any way.

A state of the system is made of the calls of `ac_get_fd_state`, the states with their locks,
and the place where every ioctl stands.  Beside that it keeps the record of the ioctls in the
order in which they took effect.

Main results:

- Definition {lit}`SnapSystem.step`: one step.
- Theorem {lit}`SnapSystem.step_cases`: what one step can do.
- Theorem {lit}`SnapSystem.fdAdvance`: what a step of `ac_get_fd_state` changes.
-/

namespace Anticheat

open Foundation

/-! ## The steps of a call -/

/-- The call with the outcome of the allocation of the file's state. -/
def SnapCall.withAlloc (fdAlloc : Bool) : SnapCall → SnapCall
  | .scanBegin _ env pid emitEvents => .scanBegin fdAlloc env pid emitEvents
  | .modsBegin _ alloc walk => .modsBegin fdAlloc alloc walk
  | .scanGet index => .scanGet index
  | .scanEnd => .scanEnd
  | .modsGet index => .modsGet index
  | .modsEnd => .modsEnd

def SnapCall.isBegin : SnapCall → Bool
  | .scanBegin _ _ _ _ | .modsBegin _ _ _ => true
  | .scanGet _ | .scanEnd | .modsGet _ | .modsEnd => false

def SnapCall.isGet : SnapCall → Bool
  | .scanGet _ | .modsGet _ => true
  | .scanBegin _ _ _ _ | .modsBegin _ _ _ | .scanEnd | .modsEnd => false

/-- `MODS_BEGIN` reads no argument. -/
def SnapCall.isModsBegin : SnapCall → Bool
  | .modsBegin _ _ _ => true
  | .scanBegin _ _ _ _ | .scanGet _ | .scanEnd | .modsGet _ | .modsEnd => false

/-- `ac_get_fd_state` is going to return NULL. -/
def FdPhase.failed : FdPhase → Bool
  | .mutexUnlock none | .returned none => true
  | _ => false

def FdPhase.isReturned : FdPhase → Bool
  | .returned _ => true
  | _ => false

/-- Where a call of `ac_ioctl` stands.  A GET has loaded the pointer of the file before it
copies its argument in. -/
inductive SnapStage where
  | entry
  | load
  | copyIn (st : Option Nat)
  | getState (j : Nat)
  | locked (j : Nat)
  | copyOut (reply : SnapReply)
  | returned (reply : Except Errno SnapReply)

def SnapStage.isReturned : SnapStage → Bool
  | .returned _ => true
  | .entry | .load | .copyIn _ | .getState _ | .locked _ | .copyOut _ => false

/-- A call of another function that a call of `ac_ioctl` is in. -/
inductive SnapSub where
  | fdState (j : Nat)
  | lock (j : Nat)
deriving DecidableEq

def SnapStage.sub : SnapStage → Option SnapSub
  | .getState j => some (.fdState j)
  | .locked j => some (.lock j)
  | .entry | .load | .copyIn _ | .copyOut _ | .returned _ => none

structure SnapRequest (File : Type) where
  file : File
  capable : Bool
  call : SnapCall
  stage : SnapStage

inductive FileStage where
  | unopened
  | opened
  | released
deriving DecidableEq

/-- The states with their locks; a pointer to a state is the number of the allocation. -/
abbrev SnapLocks :=
  LockedObjects.System Nat FdMemory SnapCall SnapPlace (Except Errno SnapReply)

/-- A call on a state, at its lock or under it. -/
abbrev SnapLockCall :=
  LockedObjects.Call Nat SnapCall SnapPlace (Except Errno SnapReply)

/-- The open files; the calls of `ac_get_fd_state`; the states with their locks; and the
calls of `ac_ioctl`. -/
structure SnapSystem (File : Type) where
  fileStage : File → FileStage
  fd : FdSystem File
  locks : SnapLocks
  requests : List (SnapRequest File)
  /-- the calls in the order in which they took effect, with their numbers -/
  history : List (Nat × SnapEvent File)
  /-- the lock of a freed state was taken, or a freed state was freed -/
  faulted : Bool

/-- What can happen.  Whether a copy from or to user space and an allocation succeed is up to
the outside. -/
inductive SnapStep (File : Type) where
  | openFile (file : File) (capable : Bool)
  | enter (file : File) (capable : Bool) (call : SnapCall)
  | advance (i : Nat) (ok : Bool)
  | release (file : File)

variable {File : Type}

def SnapSystem.initial : SnapSystem File where
  fileStage := fun _ => .unopened
  fd := .initial
  locks := .initial {}
  requests := []
  history := []
  faulted := false

namespace SnapSystem

def goOn (s : SnapSystem File) (i : Nat) (r : SnapRequest File) (stage : SnapStage) :
    SnapSystem File :=
  { s with requests := s.requests.set i { r with stage := stage } }

def withFd (s : SnapSystem File) (fd : FdSystem File) : SnapSystem File :=
  { s with fd := fd }

def withLocks (s : SnapSystem File) (locks : SnapLocks) : SnapSystem File :=
  { s with locks := locks }

/-- The record of a call that takes effect. -/
def event (r : SnapRequest File) (fdAlloc : Bool) (reply : Except Errno SnapReply) :
    SnapEvent File where
  file := r.file
  capable := r.capable
  call := r.call.withAlloc fdAlloc
  reply := reply

def record (s : SnapSystem File) (i : Nat) (r : SnapRequest File) (fdAlloc : Bool)
    (reply : Except Errno SnapReply) : SnapSystem File :=
  { s with history := s.history ++ [(i, event r fdAlloc reply)] }

variable [DecidableEq File]

/-- The call calls `ac_get_fd_state`. -/
def askState (s : SnapSystem File) (i : Nat) (r : SnapRequest File) :
    Option (SnapSystem File) :=
  (s.fd.step (.enter r.file)).map fun fd =>
    (s.withFd fd).goOn i r (.getState s.fd.calls.length)

omit [DecidableEq File] in
/-- The call comes to `mutex_lock(&st->lock)`. -/
def takeLock (s : SnapSystem File) (i : Nat) (r : SnapRequest File) (st : Nat) :
    SnapSystem File :=
  match s.locks.step snapCode (.enter st (r.call.withAlloc true)) with
  | some locks => (s.withLocks locks).goOn i r (.locked s.locks.calls.length)
  | none => { s with faulted := true }

/-- What follows `mutex_unlock(&st->lock)`. -/
def afterLock : Except Errno SnapReply → SnapStage
  | .error e => .returned (.error e)
  | .ok .done => .returned (.ok .done)
  | .ok reply => .copyOut reply

/-- One step of a call of `ac_ioctl`. -/
def advance (s : SnapSystem File) (i : Nat) (r : SnapRequest File) (ok : Bool) :
    Option (SnapSystem File) :=
  match r.stage with
  | .entry =>
      if !r.capable then
        some ((s.record i r true (.error .EPERM)).goOn i r (.returned (.error .EPERM)))
      else if r.call.isModsBegin then s.askState i r
      else if r.call.isBegin then some (s.goOn i r (.copyIn none))
      else some (s.goOn i r .load)
  | .load =>
      match s.fd.privateData r.file with
      | some st =>
          if r.call.isGet then some (s.goOn i r (.copyIn (some st)))
          else some (s.takeLock i r st)
      | none =>
          if r.call.isGet then
            some ((s.record i r true (.error .EINVAL)).goOn i r (.copyIn none))
          else some ((s.record i r true (.ok .done)).goOn i r (.returned (.ok .done)))
  | .copyIn st =>
      if !ok then some (s.goOn i r (.returned (.error .EFAULT)))
      else if r.call.isBegin then s.askState i r
      else
        match st with
        | some st => some (s.takeLock i r st)
        | none => some (s.goOn i r (.returned (.error .EINVAL)))
  | .getState j =>
      match s.fd.calls[j]? with
      | none => none
      | some c =>
          match c.phase with
          | .returned (some st) => some (s.takeLock i r st)
          | .returned none => some (s.goOn i r (.returned (.error .ENOMEM)))
          | phase =>
              (s.fd.step (.advance j ok)).map fun fd =>
                if phase = .kzalloc ∧ ok = false then
                  (s.withFd fd).record i r false (.error .ENOMEM)
                else s.withFd fd
  | .locked j =>
      match s.locks.calls[j]? with
      | none => none
      | some c =>
          match c.phase with
          | .returned reply => some (s.goOn i r (afterLock reply))
          | .waiting => (s.locks.step snapCode (.advance j)).map s.withLocks
          | .inside place =>
              (s.locks.step snapCode (.advance j)).map fun locks =>
                match place.result with
                | some reply => (s.withLocks locks).record i r true reply
                | none => s.withLocks locks
  | .copyOut reply =>
      some (s.goOn i r (.returned (if ok then .ok reply else .error .EFAULT)))
  | .returned _ => none

/-- No call on the file is under way. -/
def unused (s : SnapSystem File) (f : File) : Bool :=
  s.requests.all fun r => decide (r.file ≠ f) || r.stage.isReturned

/-- `ac_release`: the kernel calls it when nothing refers to the open file any more. -/
def releaseFile (s : SnapSystem File) (f : File) : SnapSystem File :=
  match s.fd.privateData f with
  | none => { s with fileStage := Function.update s.fileStage f .released }
  | some st =>
      match s.locks.step snapCode (.dispose st) with
      | some locks =>
          { s with fileStage := Function.update s.fileStage f .released, locks := locks }
      | none => { s with faulted := true }

def step (s : SnapSystem File) : SnapStep File → Option (SnapSystem File)
  | .openFile f capable =>
      -- `ac_open` refuses a caller without the capability
      if capable && s.fileStage f = .unopened then
        some { s with fileStage := Function.update s.fileStage f .opened }
      else none
  | .enter f capable call =>
      if s.fileStage f = .opened then
        some { s with requests := s.requests ++ [⟨f, capable, call, .entry⟩] }
      else none
  | .advance i ok =>
      match s.requests[i]? with
      | none => none
      | some r => s.advance i r ok
  | .release f =>
      if s.fileStage f = .opened && s.unused f then some (s.releaseFile f) else none

/-! ## One step -/

/-- The call knows the pointer to the state of its file. -/
def Points (s : SnapSystem File) (r : SnapRequest File) (st : Nat) : Prop :=
  (r.stage = .load ∧ r.call.isGet = false ∧ s.fd.privateData r.file = some st) ∨
  (r.stage = .copyIn (some st) ∧ r.call.isBegin = false) ∨
  ∃ j c, r.stage = .getState j ∧ s.fd.calls[j]? = some c ∧ c.phase = .returned (some st)

/-- What a step of the call `i` does. -/
inductive Move (s : SnapSystem File) (i : Nat) (r : SnapRequest File) (ok : Bool) :
    SnapSystem File → Prop where
  | refused : r.stage = .entry → r.capable = false →
      Move s i r ok
        ((s.record i r true (.error .EPERM)).goOn i r (.returned (.error .EPERM)))
  | copiesIn : r.stage = .entry → r.capable = true → r.call.isBegin = true →
      Move s i r ok (s.goOn i r (.copyIn none))
  | loads : r.stage = .entry → r.capable = true → r.call.isBegin = false →
      Move s i r ok (s.goOn i r .load)
  | asks {fd : FdSystem File} {st : Option Nat} :
      (r.stage = .entry ∧ r.capable = true) ∨ r.stage = .copyIn st → r.call.isBegin = true →
      s.fd.step (.enter r.file) = some fd →
      Move s i r ok ((s.withFd fd).goOn i r (.getState s.fd.calls.length))
  | finds {st : Nat} : r.stage = .load → r.call.isGet = true →
      s.fd.privateData r.file = some st → Move s i r ok (s.goOn i r (.copyIn (some st)))
  | misses : r.stage = .load → r.call.isGet = true → s.fd.privateData r.file = none →
      Move s i r ok ((s.record i r true (.error .EINVAL)).goOn i r (.copyIn none))
  | hasNothing : r.stage = .load → r.call.isGet = false → s.fd.privateData r.file = none →
      Move s i r ok ((s.record i r true (.ok .done)).goOn i r (.returned (.ok .done)))
  | waits {st : Nat} {locks : SnapLocks} :
      s.Points r st → s.locks.step snapCode (.enter st (r.call.withAlloc true)) = some locks →
      Move s i r ok ((s.withLocks locks).goOn i r (.locked s.locks.calls.length))
  | usesFreed {st : Nat} : s.Points r st →
      s.locks.step snapCode (.enter st (r.call.withAlloc true)) = none →
      Move s i r ok { s with faulted := true }
  | faultsIn {st : Option Nat} : r.stage = .copyIn st →
      Move s i r ok (s.goOn i r (.returned (.error .EFAULT)))
  | absent : r.stage = .copyIn none → r.call.isBegin = false →
      Move s i r ok (s.goOn i r (.returned (.error .EINVAL)))
  | fdWorks {j : Nat} {c : FdCall File} {fd : FdSystem File} : r.stage = .getState j →
      s.fd.calls[j]? = some c → ¬ (c.phase = .kzalloc ∧ ok = false) →
      s.fd.step (.advance j ok) = some fd → Move s i r ok (s.withFd fd)
  | fdFails {j : Nat} {c : FdCall File} {fd : FdSystem File} : r.stage = .getState j →
      s.fd.calls[j]? = some c → c.phase = .kzalloc → ok = false →
      s.fd.step (.advance j ok) = some fd →
      Move s i r ok ((s.withFd fd).record i r false (.error .ENOMEM))
  | noState {j : Nat} {c : FdCall File} : r.stage = .getState j → s.fd.calls[j]? = some c →
      c.phase = .returned none → Move s i r ok (s.goOn i r (.returned (.error .ENOMEM)))
  | works {j : Nat} {c : SnapLockCall} {locks : SnapLocks} :
      r.stage = .locked j → s.locks.calls[j]? = some c →
      (∀ place, c.phase = .inside place → place.result = none) →
      s.locks.step snapCode (.advance j) = some locks → Move s i r ok (s.withLocks locks)
  | commits {j : Nat} {c : SnapLockCall} {locks : SnapLocks} {place : SnapPlace} {reply : Except Errno SnapReply} :
      r.stage = .locked j → s.locks.calls[j]? = some c → c.phase = .inside place →
      place.result = some reply → s.locks.step snapCode (.advance j) = some locks →
      Move s i r ok ((s.withLocks locks).record i r true reply)
  | unlocked {j : Nat} {c : SnapLockCall} {reply : Except Errno SnapReply} :
      r.stage = .locked j → s.locks.calls[j]? = some c → c.phase = .returned reply →
      Move s i r ok (s.goOn i r (afterLock reply))
  | copiesOut {reply : SnapReply} : r.stage = .copyOut reply →
      Move s i r ok (s.goOn i r (.returned (if ok then .ok reply else .error .EFAULT)))

theorem takeLock_move {s : SnapSystem File} {i : Nat} {r : SnapRequest File} {ok : Bool}
    {st : Nat} (h : s.Points r st) : s.Move i r ok (s.takeLock i r st) := by
  unfold takeLock
  cases hlocks : s.locks.step snapCode (.enter st (r.call.withAlloc true)) with
  | none => exact .usesFreed h hlocks
  | some locks => exact .waits h hlocks

theorem askState_move {s s' : SnapSystem File} {i : Nat} {r : SnapRequest File} {ok : Bool}
    (st : Option Nat) (hstage : (r.stage = .entry ∧ r.capable = true) ∨ r.stage = .copyIn st)
    (hcall : r.call.isBegin = true) (h : s.askState i r = some s') : s.Move i r ok s' := by
  rcases Option.map_eq_some_iff.1 h with ⟨fd, hfd, rfl⟩
  exact .asks hstage hcall hfd

/-- A step of a call is one of the moves. -/
theorem advance_move {s s' : SnapSystem File} {i : Nat} {r : SnapRequest File} {ok : Bool}
    (h : s.advance i r ok = some s') : s.Move i r ok s' := by
  unfold advance at h
  split at h
  · rename_i hstage
    split_ifs at h with hcapable hmods hbegin
    · cases h
      exact .refused hstage (by simpa using hcapable)
    · refine askState_move none (Or.inl ⟨hstage, by simpa using hcapable⟩) ?_ h
      cases hcall : r.call <;> simp_all [SnapCall.isModsBegin, SnapCall.isBegin]
    · cases h
      exact .copiesIn hstage (by simpa using hcapable) hbegin
    · cases h
      exact .loads hstage (by simpa using hcapable) (by simpa using hbegin)
  · rename_i hstage
    split at h
    · rename_i st hdata
      split_ifs at h with hget
      · cases h
        exact .finds hstage hget hdata
      · cases h
        exact takeLock_move (Or.inl ⟨hstage, by simpa using hget, hdata⟩)
    · rename_i hdata
      split_ifs at h with hget
      · cases h
        exact .misses hstage hget hdata
      · cases h
        exact .hasNothing hstage (by simpa using hget) hdata
  · rename_i st hstage
    split_ifs at h with hok hbegin
    · cases h
      exact .faultsIn hstage
    · exact askState_move st (Or.inr hstage) hbegin h
    · split at h
      · cases h
        exact takeLock_move (Or.inr (Or.inl ⟨hstage, by simpa using hbegin⟩))
      · cases h
        exact .absent hstage (by simpa using hbegin)
  · rename_i j hstage
    split at h
    · cases h
    · rename_i c hc
      split at h
      · rename_i st hphase
        cases h
        exact takeLock_move (Or.inr (Or.inr ⟨j, c, hstage, hc, hphase⟩))
      · rename_i hphase
        cases h
        exact .noState hstage hc hphase
      · rcases Option.map_eq_some_iff.1 h with ⟨fd, hfd, rfl⟩
        split_ifs with hfails
        · exact .fdFails hstage hc hfails.1 hfails.2 hfd
        · exact .fdWorks hstage hc hfails hfd
  · rename_i j hstage
    split at h
    · cases h
    · rename_i c hc
      split at h
      · rename_i reply hphase
        cases h
        exact .unlocked hstage hc hphase
      · rename_i hphase
        rcases Option.map_eq_some_iff.1 h with ⟨locks, hlocks, rfl⟩
        refine .works hstage hc ?_ hlocks
        intro place hinside
        rw [hphase] at hinside
        cases hinside
      · rename_i place hphase
        rcases Option.map_eq_some_iff.1 h with ⟨locks, hlocks, rfl⟩
        split
        · rename_i reply hresult
          exact .commits hstage hc hphase hresult hlocks
        · rename_i hresult
          refine .works hstage hc ?_ hlocks
          intro place' hinside
          rw [hphase] at hinside
          cases hinside
          exact hresult
  · rename_i reply hstage
    cases h
    exact .copiesOut hstage
  · cases h

theorem step_cases {s s' : SnapSystem File} {l : SnapStep File} (h : s.step l = some s') :
    (∃ f capable, l = .openFile f capable ∧ s.fileStage f = .unopened ∧
      s' = { s with fileStage := Function.update s.fileStage f .opened }) ∨
    (∃ f capable call, l = .enter f capable call ∧ s.fileStage f = .opened ∧
      s' = { s with requests := s.requests ++ [⟨f, capable, call, .entry⟩] }) ∨
    (∃ i ok r, l = .advance i ok ∧ s.requests[i]? = some r ∧ s.Move i r ok s') ∨
    (∃ f, l = .release f ∧ s.fileStage f = .opened ∧ s.unused f = true ∧
      s' = s.releaseFile f) := by
  cases l with
  | openFile f capable =>
      rw [step] at h
      split_ifs at h with hopen
      cases h
      rw [Bool.and_eq_true, decide_eq_true_eq] at hopen
      exact Or.inl ⟨f, capable, rfl, hopen.2, rfl⟩
  | enter f capable call =>
      rw [step] at h
      split_ifs at h with hopen
      cases h
      exact Or.inr (Or.inl ⟨f, capable, call, rfl, hopen, rfl⟩)
  | advance i ok =>
      rw [step] at h
      split at h
      · cases h
      · rename_i r hr
        exact Or.inr (Or.inr (Or.inl ⟨i, ok, r, rfl, hr, advance_move h⟩))
  | release f =>
      rw [step] at h
      split_ifs at h with hopen
      cases h
      rw [Bool.and_eq_true, decide_eq_true_eq] at hopen
      exact Or.inr (Or.inr (Or.inr ⟨f, rfl, hopen.1, hopen.2, rfl⟩))

/-! ## The parts -/

omit [DecidableEq File] in
/-- A state belongs to one file. -/
theorem file_unique {fd : FdSystem File} (h : fd.Inv) {f f' : File} {st : Nat}
    (hf : fd.privateData f = some st) (hf' : fd.privateData f' = some st) : f = f' := by
  have h₁ := h.initialised f st ((h.stored f st).1 hf)
  have h₂ := h.initialised f' st ((h.stored f' st).1 hf')
  rw [h₁, Option.some.injEq, FdObject.mk.injEq] at h₂
  exact h₂.1

/-- What a step of `ac_get_fd_state` changes. -/
theorem fdAdvance {fd fd' : FdSystem File} (h : fd.Inv) {j : Nat} {c : FdCall File} {ok : Bool}
    (hc : fd.calls[j]? = some c) (hstep : fd.step (.advance j ok) = some fd') :
    ∃ phase, fd'.calls = fd.calls.set j { c with phase := phase } ∧
      (phase.failed = true ↔ c.phase.failed = true ∨ (c.phase = .kzalloc ∧ ok = false)) ∧
      (fd'.privateData = fd.privateData ∨ ∃ st, fd.privateData c.file = none ∧
        (∀ f, fd.privateData f ≠ some st) ∧
        fd'.privateData = Function.update fd.privateData c.file (some st)) := by
  have hknows := h.knows j c hc
  unfold FdSystem.Knows at hknows
  simp only [FdSystem.step, hc] at hstep
  split at hstep
  · rename_i hphase
    split at hstep
    · cases hstep
      exact ⟨_, rfl, by simp [hphase, FdPhase.failed], Or.inl rfl⟩
    · cases hstep
      exact ⟨_, rfl, by simp [hphase, FdPhase.failed], Or.inl rfl⟩
  · rename_i hphase
    split_ifs at hstep
    cases hstep
    exact ⟨_, rfl, by simp [hphase, FdPhase.failed], Or.inl rfl⟩
  · rename_i hphase
    split at hstep
    · cases hstep
      exact ⟨_, rfl, by simp [hphase, FdPhase.failed], Or.inl rfl⟩
    · cases hstep
      exact ⟨_, rfl, by simp [hphase, FdPhase.failed], Or.inl rfl⟩
  · rename_i hphase
    split_ifs at hstep with halloc
    · cases hstep
      exact ⟨_, rfl, by simp [hphase, FdPhase.failed, halloc], Or.inl rfl⟩
    · cases hstep
      exact ⟨_, rfl, by simp [hphase, FdPhase.failed, halloc], Or.inl rfl⟩
  · rename_i st hphase
    cases hstep
    exact ⟨_, rfl, by simp [hphase, FdPhase.failed], Or.inl rfl⟩
  · rename_i st hphase
    rw [hphase] at hknows
    cases hstep
    refine ⟨_, rfl, by simp [hphase, FdPhase.failed], Or.inr ⟨st, hknows.1, ?_, rfl⟩⟩
    -- a state that is about to be published is published for no file
    intro f hf
    have hold := h.initialised f st ((h.stored f st).1 hf)
    rw [hknows.2, Option.some.injEq, FdObject.mk.injEq] at hold
    rw [← hold.1, hknows.1] at hf
    cases hf
  · rename_i st hphase
    cases hstep
    cases st with
    | none => exact ⟨_, rfl, by simp [hphase, FdPhase.failed], Or.inl rfl⟩
    | some st => exact ⟨_, rfl, by simp [hphase, FdPhase.failed], Or.inl rfl⟩
  · cases hstep

end SnapSystem

end Anticheat
