import Anticheat.Foundation.Lists
import Anticheat.Kernel.SnapshotInvariant

/-!
# Snapshot calls come to an end

A call waits for two locks, one after the other and never both at once, and whoever holds one
of them goes on without waiting.  So some call can always take a step; and a step brings its
call closer to the end, whatever it meets.

Main results:

- Theorem {lit}`SnapPlace.weight_exec`: a statement under the lock leaves fewer to do.
- Theorem {lit}`SnapSystem.Inv.weight_lt`: every step of every call lowers the total work.
- Theorem {lit}`SnapSystem.Inv.enabled`: while a call is under way, some call can take a step.
- Theorem {lit}`snapshot_calls_complete`: however the calls under way are scheduled, they all
  return after a bounded number of steps.
-/

namespace Anticheat

open Foundation

/-! ## Work left -/

/-- The steps that `ac_get_fd_state` has left, at most. -/
def FdPhase.weight : FdPhase → Nat
  | .loadAcquire => 7
  | .mutexLock => 6
  | .reload => 5
  | .kzalloc => 4
  | .mutexInit _ => 3
  | .storeRelease _ => 2
  | .mutexUnlock _ => 1
  | .returned _ => 0

/-- The areas of the process that is scanned. -/
def scanSize : Option ScanArgs → Nat
  | none => 0
  | some args => (args.env.mm.getD []).length

/-- The modules that are walked over. -/
def modsSize : Option ModsArgs → Nat
  | none => 0
  | some args => args.walk.length

/-- The statements that are left under the lock, at most. -/
def SnapPlace.weight : SnapPlace → Nat
  | .scanFree args => 8 + scanSize args
  | .scanNull args => 7 + scanSize args
  | .scanZero args => 6 + scanSize args
  | .scanFind args => 5 + scanSize (some args)
  | .scanAlloc _ areas => 4 + areas.length
  | .scanLoop _ areas _ => 3 + areas.length
  | .scanCount _ _ => 2
  | .scanReport _ => 1
  | .scanCheck _ => 2
  | .scanRead _ => 1
  | .modsFree args => 7 + modsSize args
  | .modsNull args => 6 + modsSize args
  | .modsZero args => 5 + modsSize args
  | .modsAlloc args => 4 + modsSize (some args)
  | .modsLoop walk _ => 3 + walk.length
  | .modsCount _ => 2
  | .modsReport => 1
  | .modsCheck _ => 2
  | .modsRead _ => 1
  | .mutexUnlock _ => 0

/-- A statement under the lock leaves fewer to do. -/
theorem SnapPlace.weight_exec {place : SnapPlace} (hgoes : place.result = none)
    (d : FdMemory) : (d.exec place).2.weight < place.weight := by
  cases place with
  | scanFree args => simp [FdMemory.exec, SnapPlace.weight]
  | scanNull args => simp [FdMemory.exec, SnapPlace.weight]
  | scanZero args =>
      cases args with
      | none => simp [FdMemory.exec, SnapPlace.weight]
      | some args => simp [FdMemory.exec, SnapPlace.weight]
  | scanFind args =>
      simp only [FdMemory.exec]
      split_ifs
      · simp [SnapPlace.weight]
      · cases hmm : args.env.mm with
        | none => simp [SnapPlace.weight]
        | some areas => simp [SnapPlace.weight, scanSize, hmm]
  | scanAlloc args areas =>
      simp only [FdMemory.exec]
      split_ifs
      · simp [SnapPlace.weight]
      · simp [SnapPlace.weight]
  | scanLoop args areas n =>
      cases areas with
      | nil => simp [FdMemory.exec, SnapPlace.weight]
      | cons a rest =>
          simp only [FdMemory.exec]
          split_ifs
          · simp only [SnapPlace.weight, List.length_cons]
            omega
          · simp [SnapPlace.weight]
  | scanCount args n => simp [FdMemory.exec, SnapPlace.weight]
  | scanReport args => simp [FdMemory.exec, SnapPlace.weight]
  | scanCheck index =>
      simp only [FdMemory.exec]
      split_ifs <;> simp [SnapPlace.weight]
  | scanRead index => simp [FdMemory.exec, SnapPlace.weight]
  | modsFree args => simp [FdMemory.exec, SnapPlace.weight]
  | modsNull args => simp [FdMemory.exec, SnapPlace.weight]
  | modsZero args =>
      cases args with
      | none => simp [FdMemory.exec, SnapPlace.weight]
      | some args => simp [FdMemory.exec, SnapPlace.weight]
  | modsAlloc args =>
      simp only [FdMemory.exec]
      split_ifs
      · simp [SnapPlace.weight]
      · simp [SnapPlace.weight, modsSize]
  | modsLoop walk n =>
      cases walk with
      | nil => simp [FdMemory.exec, SnapPlace.weight]
      | cons m rest =>
          simp only [FdMemory.exec]
          split_ifs
          · simp [SnapPlace.weight]
          · simp only [SnapPlace.weight, List.length_cons]
            omega
          · simp [SnapPlace.weight]
  | modsCount n => simp [FdMemory.exec, SnapPlace.weight]
  | modsReport => simp [FdMemory.exec, SnapPlace.weight]
  | modsCheck index =>
      simp only [FdMemory.exec]
      split_ifs <;> simp [SnapPlace.weight]
  | modsRead index => simp [FdMemory.exec, SnapPlace.weight]
  | mutexUnlock reply => cases hgoes

/-- The steps that a call on a state has left, at most. -/
def lockWeight (c : SnapLockCall) : Nat :=
  match c.phase with
  | .waiting => 2 + (SnapPlace.start c.op).weight
  | .inside place => 1 + place.weight
  | .returned _ => 0

variable {File : Type}

namespace SnapSystem

/-- The steps that a call of `ac_ioctl` has left, at most. -/
def cost (s : SnapSystem File) (r : SnapRequest File) : Nat :=
  let later := 5 + (SnapPlace.start (r.call.withAlloc true)).weight
  match r.stage with
  | .entry => later + 10
  | .load => later + 9
  | .copyIn _ => later + 8
  | .getState j => later + ((s.fd.calls[j]?).map fun c => c.phase.weight).getD 0
  | .locked j => 2 + ((s.locks.calls[j]?).map lockWeight).getD 0
  | .copyOut _ => 1
  | .returned _ => 0

def costAt (s : SnapSystem File) (i : Nat) : Nat :=
  ((s.requests[i]?).map s.cost).getD 0

/-- The work that is left of all calls. -/
def weight (s : SnapSystem File) : Nat :=
  ∑ i ∈ Finset.range s.requests.length, s.costAt i

/-- A step of the call `i` leaves the other calls, and the calls that they are in. -/
structure Local (s s' : SnapSystem File) (i : Nat) (r : SnapRequest File) : Prop where
  length : s'.requests.length = s.requests.length
  others : ∀ i', i' ≠ i → s'.requests[i']? = s.requests[i']?
  fdCalls : ∀ j c, r.stage ≠ .getState j → s.fd.calls[j]? = some c → s'.fd.calls[j]? = some c
  lockCalls : ∀ j c, r.stage ≠ .locked j → s.locks.calls[j]? = some c →
    s'.locks.calls[j]? = some c

section

variable {s s' : SnapSystem File} {i : Nat} {r : SnapRequest File}

theorem costAt_eq (hr : s.requests[i]? = some r) : s.costAt i = s.cost r := by
  rw [costAt, hr]
  rfl

theorem costAt_goOn (t : SnapSystem File) (hr : t.requests[i]? = some r) (stage : SnapStage) :
    (t.goOn i r stage).costAt i = t.cost { r with stage := stage } := by
  have hi := (List.getElem?_eq_some_iff.1 hr).1
  have hself : (t.goOn i r stage).requests[i]? = some { r with stage := stage } :=
    List.getElem?_set_self hi
  rw [costAt_eq hself]
  rfl

/-- A step that changes the place where the call stands, and makes another call perhaps. -/
theorem local_goOn (t : SnapSystem File) (hrequests : t.requests = s.requests)
    (hfd : ∀ (j : Nat) (c : FdCall File), s.fd.calls[j]? = some c → t.fd.calls[j]? = some c)
    (hlocks : ∀ (j : Nat) (c : SnapLockCall), s.locks.calls[j]? = some c →
      t.locks.calls[j]? = some c) (stage : SnapStage) : s.Local (t.goOn i r stage) i r where
  length := by simp [goOn, hrequests]
  others := by
    intro i' hii
    change (t.requests.set i _)[i']? = _
    rw [List.getElem?_set_ne (Ne.symm hii), hrequests]
  fdCalls := fun j c _ => hfd j c
  lockCalls := fun j c _ => hlocks j c

/-- A step that changes only the place where the call stands, and the record perhaps. -/
theorem lower_goOn (t : SnapSystem File) (hr : s.requests[i]? = some r)
    (hrequests : t.requests = s.requests) (hfd : t.fd = s.fd) (hlocks : t.locks = s.locks)
    {stage : SnapStage} (hcost : s.cost { r with stage := stage } < s.cost r) :
    s.Local (t.goOn i r stage) i r ∧ (t.goOn i r stage).costAt i < s.costAt i := by
  refine ⟨local_goOn t hrequests (by rw [hfd]; exact fun _ _ => id)
    (by rw [hlocks]; exact fun _ _ => id) stage, ?_⟩
  rw [costAt_goOn t (by rw [hrequests]; exact hr), costAt_eq hr]
  unfold cost at hcost ⊢
  rw [hfd, hlocks]
  exact hcost

variable [DecidableEq File]

theorem Inv.costAt_other (h : s.Inv) (hr : s.requests[i]? = some r) (hlocal : s.Local s' i r)
    {i' : Nat} (hii : i' ≠ i) : s'.costAt i' = s.costAt i' := by
  rw [costAt, costAt, hlocal.others i' hii]
  cases hr' : s.requests[i']? with
  | none => rfl
  | some r' =>
      have hne : ∀ k, r'.stage.sub = some k → r.stage.sub ≠ some k :=
        fun k hk hk' => hii (h.running.owner i' i r' r k hr' hr hk hk')
      have hstands := h.running.stands i' r' hr'
      unfold Stands at hstands
      rw [Option.map_some, Option.map_some, Option.getD_some, Option.getD_some, cost, cost]
      cases hstage : r'.stage with
      | getState j =>
          rw [hstage] at hstands
          rcases hstands with ⟨-, -, c, hc, -⟩
          have hc' := hlocal.fdCalls j c
            (fun hown => hne (.fdState j) (by rw [hstage]; rfl) (by rw [hown]; rfl)) hc
          simp only [hc, hc']
      | locked j =>
          rw [hstage] at hstands
          rcases hstands with ⟨-, c, hc, -⟩
          have hc' := hlocal.lockCalls j c
            (fun hown => hne (.lock j) (by rw [hstage]; rfl) (by rw [hown]; rfl)) hc
          simp only [hc, hc']
      | entry | load | copyIn _ | copyOut _ | returned _ => rfl

/-- A step of `ac_get_fd_state` brings it closer to its end. -/
theorem fdMove_lower {fd fd' : FdSystem File} {j : Nat} {c : FdCall File}
    (hmove : fd.Move j c fd') : ∃ phase, fd'.calls = fd.calls.set j { c with phase := phase } ∧
      phase.weight < c.phase.weight := by
  cases hmove with
  | found hphase =>
      refine ⟨_, rfl, ?_⟩
      rw [hphase]
      simp [FdPhase.weight]
  | missed hphase => exact ⟨_, rfl, by rw [hphase]; decide⟩
  | locks hphase => exact ⟨_, rfl, by rw [hphase]; decide⟩
  | foundLocked hphase =>
      refine ⟨_, rfl, ?_⟩
      rw [hphase]
      simp [FdPhase.weight]
  | missedLocked hphase => exact ⟨_, rfl, by rw [hphase]; decide⟩
  | allocates hphase =>
      refine ⟨_, rfl, ?_⟩
      rw [hphase]
      simp [FdPhase.weight]
  | allocFails hphase => exact ⟨_, rfl, by rw [hphase]; decide⟩
  | inits hphase =>
      refine ⟨_, rfl, ?_⟩
      rw [hphase]
      simp [FdPhase.weight]
  | publishes hphase =>
      refine ⟨_, rfl, ?_⟩
      rw [hphase]
      simp [FdPhase.weight]
  | unlocks hphase =>
      refine ⟨_, rfl, ?_⟩
      rw [hphase]
      simp [FdPhase.weight]

theorem fdStep_lower {fd fd' : FdSystem File} {j : Nat} {c : FdCall File} {ok : Bool}
    (hc : fd.calls[j]? = some c) (hstep : fd.step (.advance j ok) = some fd') :
    ∃ phase, fd'.calls = fd.calls.set j { c with phase := phase } ∧
      phase.weight < c.phase.weight := by
  rcases FdSystem.step_cases hstep with ⟨file, hl, -⟩ | ⟨j', ok', c', hl, hc', hmove⟩
  · cases hl
  · cases hl
    rw [hc, Option.some.injEq] at hc'
    subst hc'
    exact fdMove_lower hmove

omit [DecidableEq File] in
/-- A step at the lock of a state, or under it, brings the call closer to its end. -/
theorem lockStep_lower (h : s.locks.Inv snapRefinement) {j : Nat} {c : SnapLockCall}
    {locks : SnapLocks} (hc : s.locks.calls[j]? = some c)
    (hstep : s.locks.step snapCode (.advance j) = some locks) :
    ∃ phase, locks.calls = s.locks.calls.set j { c with phase := phase } ∧
      lockWeight { c with phase := phase } < lockWeight c := by
  rcases LockedObjects.System.step_cases hstep with ⟨o, op, hl, -⟩ | ⟨j', c', hl, hc', hmove⟩ |
    ⟨o, hl, -⟩
  · cases hl
  · cases hl
    rw [hc, Option.some.injEq] at hc'
    subst hc'
    cases hmove with
    | locks hphase hfree =>
        refine ⟨_, rfl, ?_⟩
        simp only [lockWeight, hphase]
        change 1 + (SnapPlace.start c.op).weight < 2 + (SnapPlace.start c.op).weight
        omega
    | @works place hphase hgoes =>
        refine ⟨_, rfl, ?_⟩
        have hat := (h.within j c place hc hphase).1
        have hlower := SnapPlace.weight_exec hgoes (s.locks.data c.object)
        rw [SnapPlace.next_eq hat]
        simp only [lockWeight, hphase]
        omega
    | unlocks hphase hover =>
        refine ⟨_, rfl, ?_⟩
        simp only [lockWeight, hphase]
        omega
  · cases hl

/-- A step inside `ac_get_fd_state`. -/
theorem fd_lower (hr : s.requests[i]? = some r) {j : Nat} {c : FdCall File}
    {fd : FdSystem File} {ok : Bool} (hrequests : s'.requests = s.requests) (hfd : s'.fd = fd)
    (hlocks : s'.locks = s.locks) (hstage : r.stage = .getState j)
    (hc : s.fd.calls[j]? = some c) (hstep : s.fd.step (.advance j ok) = some fd) :
    s.Local s' i r ∧ s'.costAt i < s.costAt i := by
  have hi := (List.getElem?_eq_some_iff.1 hc).1
  rcases fdStep_lower hc hstep with ⟨phase, hcalls, hlower⟩
  have hr' : s'.requests[i]? = some r := by rw [hrequests, hr]
  refine ⟨⟨by rw [hrequests], fun _ _ => by rw [hrequests], ?_, by rw [hlocks]; exact fun _ _ _ => id⟩,
    ?_⟩
  · intro j' c' hne hc'
    rw [hfd, hcalls, List.getElem?_set_ne]
    · exact hc'
    · rintro rfl
      exact hne hstage
  · rw [costAt_eq hr', costAt_eq hr]
    simp only [cost, hstage, hfd, hcalls, hc, List.getElem?_set_self hi, Option.map_some,
      Option.getD_some]
    omega

/-- A step at the lock of a state, or under it. -/
theorem Inv.lock_lower (h : s.Inv) (hr : s.requests[i]? = some r) {j : Nat} {c : SnapLockCall}
    {locks : SnapLocks} (hrequests : s'.requests = s.requests) (hfd : s'.fd = s.fd)
    (hlocks : s'.locks = locks) (hstage : r.stage = .locked j)
    (hc : s.locks.calls[j]? = some c)
    (hstep : s.locks.step snapCode (.advance j) = some locks) :
    s.Local s' i r ∧ s'.costAt i < s.costAt i := by
  have hi := (List.getElem?_eq_some_iff.1 hc).1
  rcases lockStep_lower h.locks hc hstep with ⟨phase, hcalls, hlower⟩
  have hr' : s'.requests[i]? = some r := by rw [hrequests, hr]
  refine ⟨⟨by rw [hrequests], fun _ _ => by rw [hrequests], by rw [hfd]; exact fun _ _ _ => id, ?_⟩,
    ?_⟩
  · intro j' c' hne hc'
    rw [hlocks, hcalls, List.getElem?_set_ne]
    · exact hc'
    · rintro rfl
      exact hne hstage
  · rw [costAt_eq hr', costAt_eq hr]
    simp only [cost, hstage, hlocks, hcalls, hc, List.getElem?_set_self hi, Option.map_some,
      Option.getD_some]
    omega

/-- A step of a call is local, and brings the call closer to its end. -/
theorem Inv.move_lower (h : s.Inv) (hr : s.requests[i]? = some r) {ok : Bool}
    (hmove : s.Move i r ok s') : s.Local s' i r ∧ s'.costAt i < s.costAt i := by
  cases hmove with
  | refused hstage hcapable =>
      exact lower_goOn (s.record i r true _) hr rfl rfl rfl (by simp [cost, hstage])
  | copiesIn hstage hcapable hbegin => exact lower_goOn s hr rfl rfl rfl (by simp [cost, hstage])
  | loads hstage hcapable hbegin => exact lower_goOn s hr rfl rfl rfl (by simp [cost, hstage])
  | finds hstage hget hdata => exact lower_goOn s hr rfl rfl rfl (by simp [cost, hstage])
  | misses hstage hget hdata =>
      exact lower_goOn (s.record i r true _) hr rfl rfl rfl (by simp [cost, hstage])
  | hasNothing hstage hget hdata =>
      exact lower_goOn (s.record i r true _) hr rfl rfl rfl (by simp [cost, hstage])
  | faultsIn hstage => exact lower_goOn s hr rfl rfl rfl (by simp [cost, hstage])
  | absent hstage hbegin => exact lower_goOn s hr rfl rfl rfl (by simp [cost, hstage])
  | noState hstage hc hphase => exact lower_goOn s hr rfl rfl rfl (by simp [cost, hstage])
  | copiesOut hstage => exact lower_goOn s hr rfl rfl rfl (by simp [cost, hstage])
  | @unlocked j c reply hstage hc hphase =>
      refine lower_goOn s hr rfl rfl rfl ?_
      rcases reply with e | reply
      · simp [cost, hstage, afterLock]
      · cases reply <;> simp [cost, hstage, afterLock] <;> omega
  | asks hstage hbegin hstep =>
      cases hstep
      constructor
      · apply local_goOn
        · rfl
        · exact fun _ _ h => getElem?_concat_some h _
        · exact fun _ _ => id
      · rw [costAt_goOn, costAt_eq hr]
        · rcases hstage with ⟨hstage, -⟩ | hstage
          · simp [cost, hstage, withFd, FdPhase.weight]
          · simp [cost, hstage, withFd, FdPhase.weight]
        · exact hr
  | @waits st locks hp hstep =>
      rcases h.points hr hp with ⟨hdata, -, -, hlive, -, -⟩
      have halive := h.alive hdata (h.running.opened i r hr hlive)
      simp only [LockedObjects.System.step, halive, Bool.false_eq_true, if_false,
        Option.some.injEq] at hstep
      subst hstep
      have hmine : cost (s.withLocks { s.locks with
          calls := s.locks.calls ++ [⟨st, r.call.withAlloc true, .waiting⟩] })
          { r with stage := .locked s.locks.calls.length } =
          4 + (SnapPlace.start (r.call.withAlloc true)).weight := by
        simp only [cost, withLocks, List.getElem?_concat_length, Option.map_some,
          Option.getD_some, lockWeight]
        omega
      constructor
      · apply local_goOn
        · rfl
        · exact fun _ _ => id
        · exact fun _ _ h => getElem?_concat_some h _
      · rw [costAt_goOn, costAt_eq hr]
        · refine hmine.trans_lt ?_
          rcases hp with ⟨hstage, -⟩ | ⟨hstage, -⟩ | ⟨j, c, hstage, -⟩
          · simp only [cost, hstage]
            omega
          · simp only [cost, hstage]
            omega
          · simp only [cost, hstage]
            omega
        · exact hr
  | usesFreed hp hstep =>
      rcases h.points hr hp with ⟨hdata, -, -, hlive, -, -⟩
      have halive := h.alive hdata (h.running.opened i r hr hlive)
      simp [LockedObjects.System.step, halive] at hstep
  | fdWorks hstage hc hnot hstep => exact fd_lower hr rfl rfl rfl hstage hc hstep
  | fdFails hstage hc hkzalloc hok hstep => exact fd_lower hr rfl rfl rfl hstage hc hstep
  | works hstage hc hnot hstep => exact h.lock_lower hr rfl rfl rfl hstage hc hstep
  | commits hstage hc hinside hresult hstep => exact h.lock_lower hr rfl rfl rfl hstage hc hstep

/-- Every step of every call lowers the total work. -/
theorem Inv.weight_lt (h : s.Inv) {ok : Bool} (hstep : s.step (.advance i ok) = some s') :
    s'.weight < s.weight := by
  rcases step_cases hstep with ⟨f, capable, hl, -⟩ | ⟨f, capable, call, hl, -⟩ |
    ⟨i', ok', r, hl, hr, hmove⟩ | ⟨f, hl, -⟩
  · cases hl
  · cases hl
  · cases hl
    rcases h.move_lower hr hmove with ⟨hlocal, hlower⟩
    rw [weight, weight, hlocal.length]
    apply Finset.sum_lt_sum
    · intro i' _
      by_cases hii : i' = i
      · rw [hii]
        exact hlower.le
      · exact (h.costAt_other hr hlocal hii).le
    · exact ⟨i, Finset.mem_range.2 (List.getElem?_eq_some_iff.1 hr).1, hlower⟩
  · cases hl

/-! ## Somebody can go on -/

/-- A call that holds no lock and waits for none can go on. -/
theorem enabled_free (hr : s.requests[i]? = some r) (hlive : r.stage.isReturned = false)
    (hfree : r.stage.sub = none) (ok : Bool) : (s.step (.advance i ok)).isSome = true := by
  cases hstage : r.stage with
  | entry =>
      simp only [step, hr, SnapSystem.advance, hstage]
      split_ifs
      · rfl
      · rfl
      · rfl
      · rfl
  | load =>
      simp only [step, hr, SnapSystem.advance, hstage]
      cases s.fd.privateData r.file with
      | none => cases r.call.isGet <;> rfl
      | some st => cases r.call.isGet <;> rfl
  | copyIn st =>
      simp only [step, hr, SnapSystem.advance, hstage]
      split_ifs
      · rfl
      · rfl
      · cases st <;> rfl
  | copyOut reply => simp [step, hr, SnapSystem.advance, hstage]
  | getState j | locked j =>
      rw [hstage] at hfree
      cases hfree
  | returned reply =>
      rw [hstage] at hlive
      cases hlive

/-- A call of `ac_get_fd_state` that does not wait for the lock can go on. -/
theorem enabled_fd (hr : s.requests[i]? = some r) {j : Nat} {c : FdCall File}
    (hstage : r.stage = .getState j) (hc : s.fd.calls[j]? = some c)
    (hlock : c.phase = .mutexLock → s.fd.allocLock = none) (ok : Bool) :
    (s.step (.advance i ok)).isSome = true := by
  simp only [step, hr, SnapSystem.advance, hstage, hc]
  have hstep : c.phase.isReturned = false → (s.fd.step (.advance j ok)).isSome = true := by
    intro hphase
    simp only [FdSystem.step, hc]
    cases hcase : c.phase with
    | loadAcquire => cases s.fd.privateData c.file <;> rfl
    | mutexLock =>
        simp only
        rw [if_pos (hlock hcase)]
        rfl
    | reload => cases s.fd.privateData c.file <;> rfl
    | kzalloc => cases ok <;> rfl
    | mutexInit st => rfl
    | storeRelease st => rfl
    | mutexUnlock st => rfl
    | returned st =>
        rw [hcase] at hphase
        cases hphase
  split
  · rfl
  · rfl
  · rename_i phase hsome hnone
    rw [Option.isSome_map]
    apply hstep
    cases hcase : c.phase with
    | returned st =>
        cases st with
        | none => exact absurd hcase hnone
        | some st => exact absurd hcase (hsome st)
    | loadAcquire | mutexLock | reload | kzalloc | mutexInit _ | storeRelease _ | mutexUnlock _ =>
        rfl

/-- A call on a state that does not wait for its lock can go on. -/
theorem enabled_lock (hr : s.requests[i]? = some r) {j : Nat} {c : SnapLockCall}
    (hstage : r.stage = .locked j) (hc : s.locks.calls[j]? = some c)
    (hlock : c.phase = .waiting → s.locks.lock c.object = none) (ok : Bool) :
    (s.step (.advance i ok)).isSome = true := by
  simp only [step, hr, SnapSystem.advance, hstage, hc]
  cases hphase : c.phase with
  | waiting => simp [LockedObjects.System.step, hc, hphase, hlock hphase]
  | inside place =>
      simp only [LockedObjects.System.step, hc, hphase, Option.isSome_map]
      cases snapCode.result place <;> rfl
  | returned reply => rfl

/-- While a call is under way, some call can take a step, whatever it meets. -/
theorem Inv.enabled (h : s.Inv) (hr : s.requests[i]? = some r)
    (hlive : r.stage.isReturned = false) :
    ∃ i', ∀ ok, (s.step (.advance i' ok)).isSome = true := by
  have hstands := h.running.stands i r hr
  unfold Stands at hstands
  cases hstage : r.stage with
  | entry => exact ⟨i, enabled_free hr hlive (by rw [hstage]; rfl)⟩
  | load => exact ⟨i, enabled_free hr hlive (by rw [hstage]; rfl)⟩
  | copyIn st => exact ⟨i, enabled_free hr hlive (by rw [hstage]; rfl)⟩
  | copyOut reply => exact ⟨i, enabled_free hr hlive (by rw [hstage]; rfl)⟩
  | returned reply =>
      rw [hstage] at hlive
      cases hlive
  | getState j =>
      rw [hstage] at hstands
      rcases hstands with ⟨-, -, c, hc, -⟩
      cases hlock : s.fd.allocLock with
      | none => exact ⟨i, enabled_fd hr hstage hc (fun _ => hlock)⟩
      | some j' =>
          -- the holder of the lock is past waiting for it
          have hj' := h.fd.held j' hlock
          have hc' : s.fd.calls[j']? = some s.fd.calls[j'] := List.getElem?_eq_getElem hj'
          have hlocked := (h.fd.holder j' _ hc').2 hlock
          have hunreturned : s.fd.calls[j'].phase.isReturned = false := by
            cases hphase : s.fd.calls[j'].phase <;> rw [hphase] at hlocked <;>
              first | rfl | cases hlocked
          rcases h.running.asking j' _ hc' hunreturned with ⟨i', r', hr', hstage'⟩
          refine ⟨i', enabled_fd hr' hstage' hc' ?_⟩
          intro hphase
          rw [hphase] at hlocked
          cases hlocked
  | locked j =>
      rw [hstage] at hstands
      rcases hstands with ⟨-, c, hc, -⟩
      cases hlock : s.locks.lock c.object with
      | none => exact ⟨i, enabled_lock hr hstage hc (fun _ => hlock)⟩
      | some j' =>
          rcases h.locks.held c.object j' hlock with ⟨c', place, hc', -, hinside⟩
          rcases h.running.busy j' c' hc' (by rw [hinside]; rfl) with ⟨i', r', hr', hstage'⟩
          refine ⟨i', enabled_lock hr' hstage' hc' ?_⟩
          intro hphase
          rw [hphase] at hinside
          cases hinside

end

variable [DecidableEq File]

/-- However the calls under way are scheduled, and whatever they meet, they all return. -/
structure Completes (s : SnapSystem File) : Prop where
  /-- the steps of the calls under way are bounded in number -/
  bounded : ∀ (more : List (SnapStep File)) (s' : SnapSystem File),
    (∀ l ∈ more, ∃ i ok, l = .advance i ok) → StepRun.run step s more = some s' →
    more.length ≤ s.weight
  /-- and as long as one of them has not returned, there is a step to take -/
  enabled : ∀ r ∈ s.requests, r.stage.isReturned = false →
    ∃ i, ∀ ok, (s.step (.advance i ok)).isSome = true

theorem Inv.completes {s : SnapSystem File} (h : s.Inv) : s.Completes where
  bounded := by
    intro more s' hmore hrun
    have hstep : ∀ (t : SnapSystem File) (l : SnapStep File) (t' : SnapSystem File), t.Inv →
        (∃ i ok, l = .advance i ok) → t.step l = some t' → t'.Inv ∧ t'.weight < t.weight := by
      rintro t l t' ht ⟨i, ok, rfl⟩ hstep
      exact ⟨ht.step hstep, ht.weight_lt hstep⟩
    have hlower := StepRun.length_add_le_of_lower hstep h hmore hrun
    exact (Nat.le_add_right _ _).trans hlower
  enabled := by
    intro r hr hlive
    rcases List.getElem?_of_mem hr with ⟨i, hi⟩
    exact h.enabled hi hlive

end SnapSystem

/-- Over every interleaving of any calls of the snapshot ioctls on any files: the calls under
way never block each other for good, and they all return after a bounded number of steps. -/
theorem snapshot_calls_complete [DecidableEq File] (steps : List (SnapStep File)) :
    StepRun.Always SnapSystem.step SnapSystem.Completes
      (SnapSystem.initial : SnapSystem File) steps :=
  StepRun.Always.mono (fun _ h => h.completes) (SnapSystem.inv_always steps)

end Anticheat
