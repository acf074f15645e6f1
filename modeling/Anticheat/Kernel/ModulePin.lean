import Anticheat.Foundation.StepRun
import Anticheat.Kernel.Abi

/-!
# Pinning the module

`AC_IOCTL_LOCK` takes a reference to the module and then counts it in
`ac_lock_count`; `AC_IOCTL_UNLOCK` looks at the counter, decrements it and gives
a reference back.  Each of these is one atomic step, and nothing keeps the steps
of different calls apart.

A state knows which step every call takes next.  Beside the counter it records
how often LOCK has taken a reference and how often UNLOCK has given one back.

Main results:

- Theorems {lit}`acIoctlLock_steps` and {lit}`acIoctlUnlock_steps`: what a call does
  that no other call interrupts.
- Theorem {lit}`PinState.step_cases`: what one atomic step does.
- Theorem {lit}`PinState.Account.step_iff`: the counter keeps the account of the
  references as long as it is decremented above zero and does not overflow.
- Theorem {lit}`module_pin_balanced_iff`: over every interleaving, the pin is
  balanced exactly when all steps are like that.
-/

namespace Anticheat

open Foundation

/-- The two ioctls that pin and unpin the module. -/
inductive PinCommand where
  | lock
  | unlock
deriving DecidableEq, Repr

/-- The atomic step that a call takes next, or what it has returned. -/
inductive PinPhase where
  | tryModuleGet
  | atomicInc
  | atomicRead
  | atomicDec
  | modulePut
  | returned (ret : Except Errno Unit)
deriving DecidableEq

/-- Where a call starts. -/
def PinCommand.entry : PinCommand → PinPhase
  | .lock => .tryModuleGet
  | .unlock => .atomicRead

/-- `ac_lock_count` and the calls so far, with the record of the references that
LOCK has taken and UNLOCK has given back. -/
structure PinState where
  lockCount : BitVec 32
  calls : List PinPhase
  taken : Nat
  released : Nat
deriving DecidableEq

/-- The state at module load. -/
def PinState.initial : PinState where
  lockCount := 0
  calls := []
  taken := 0
  released := 0

/-- What can happen: a call is made, or a call takes its next step.  Whether
`try_module_get` succeeds is up to the module's state. -/
inductive PinStep where
  | enter (cmd : PinCommand)
  | advance (call : Nat) (live : Bool)
deriving DecidableEq, Repr

/-- The call `i` goes on to another phase. -/
def PinState.goOn (s : PinState) (i : Nat) (phase : PinPhase) : PinState :=
  { s with calls := s.calls.set i phase }

/-- One atomic step. -/
def PinState.step (s : PinState) : PinStep → Option PinState
  | .enter cmd => some { s with calls := s.calls ++ [cmd.entry] }
  | .advance i live =>
      match s.calls[i]? with
      | none => none
      | some .tryModuleGet =>
          if live then some { s.goOn i .atomicInc with taken := s.taken + 1 }
          else some (s.goOn i (.returned (.error .EBUSY)))
      | some .atomicInc =>
          some { s.goOn i (.returned (.ok ())) with lockCount := s.lockCount + 1 }
      | some .atomicRead =>
          if s.lockCount.toInt > 0 then some (s.goOn i .atomicDec)
          else some (s.goOn i (.returned (.ok ())))
      | some .atomicDec => some { s.goOn i .modulePut with lockCount := s.lockCount - 1 }
      | some .modulePut =>
          some { s.goOn i (.returned (.ok ())) with released := s.released + 1 }
      | some (.returned _) => none

/-- No call is in progress. -/
def PinState.Idle (s : PinState) : Prop :=
  ∀ phase ∈ s.calls, ∃ ret, phase = .returned ret

instance (phase : PinPhase) : Decidable (∃ ret, phase = .returned ret) :=
  match phase with
  | .returned ret => .isTrue ⟨ret, rfl⟩
  | .tryModuleGet => .isFalse (by simp)
  | .atomicInc => .isFalse (by simp)
  | .atomicRead => .isFalse (by simp)
  | .atomicDec => .isFalse (by simp)
  | .modulePut => .isFalse (by simp)

instance (s : PinState) : Decidable s.Idle :=
  inferInstanceAs (Decidable (∀ phase ∈ s.calls, _))

/-- The counter is not negative, no reference is given back that LOCK has not
taken, and between calls the counter is the number of references held. -/
structure PinState.Balanced (s : PinState) : Prop where
  nonneg : 0 ≤ s.lockCount.toInt
  released_le : s.released ≤ s.taken
  idle : s.Idle → s.lockCount.toInt = s.taken - s.released

instance (s : PinState) : Decidable s.Balanced :=
  decidable_of_iff (0 ≤ s.lockCount.toInt ∧ s.released ≤ s.taken ∧
      (s.Idle → s.lockCount.toInt = s.taken - s.released))
    ⟨fun h => ⟨h.1, h.2.1, h.2.2⟩, fun h => ⟨h.1, h.2, h.3⟩⟩

/-- The step does not decrement a counter that is no longer positive, and does
not increment one that is at the largest `int`. -/
def PinState.CounterInRange (s : PinState) : PinStep → Prop
  | .enter _ => True
  | .advance i _ =>
      (s.calls[i]? = some .atomicDec → 0 < s.lockCount.toInt) ∧
        (s.calls[i]? = some .atomicInc → s.lockCount.toInt ≠ 2 ^ 31 - 1)

/-! ## A call on its own -/

/-- `AC_IOCTL_LOCK`, when no other call runs. -/
def acIoctlLock (live : Bool) (lockCount : BitVec 32) : Except Errno Unit × BitVec 32 :=
  if live then (.ok (), lockCount + 1) else (.error .EBUSY, lockCount)

/-- `AC_IOCTL_UNLOCK`, when no other call runs. -/
def acIoctlUnlock (lockCount : BitVec 32) : BitVec 32 :=
  if lockCount.toInt > 0 then lockCount - 1 else lockCount

/-- A LOCK whose steps follow one another takes a reference and counts it, or fails. -/
theorem acIoctlLock_steps (s : PinState) (live : Bool) :
    ∃ k, StepRun.run PinState.step s
        (.enter .lock :: List.replicate k (.advance s.calls.length live)) = some {
      lockCount := (acIoctlLock live s.lockCount).2
      calls := s.calls ++ [.returned (acIoctlLock live s.lockCount).1]
      taken := s.taken + live.toNat
      released := s.released } := by
  cases live with
  | true =>
      refine ⟨2, ?_⟩
      simp [StepRun.run, PinState.step, PinCommand.entry, PinState.goOn, acIoctlLock]
  | false =>
      refine ⟨1, ?_⟩
      simp [StepRun.run, PinState.step, PinCommand.entry, PinState.goOn, acIoctlLock]

/-- An UNLOCK whose steps follow one another gives back a reference if one is
counted. -/
theorem acIoctlUnlock_steps (s : PinState) :
    ∃ k, StepRun.run PinState.step s
        (.enter .unlock :: List.replicate k (.advance s.calls.length true)) = some {
      lockCount := acIoctlUnlock s.lockCount
      calls := s.calls ++ [.returned (.ok ())]
      taken := s.taken
      released := s.released + if s.lockCount.toInt > 0 then 1 else 0 } := by
  by_cases hpos : s.lockCount.toInt > 0
  · refine ⟨3, ?_⟩
    simp [StepRun.run, PinState.step, PinCommand.entry, PinState.goOn, acIoctlUnlock, hpos]
  · refine ⟨1, ?_⟩
    simp [StepRun.run, PinState.step, PinCommand.entry, PinState.goOn, acIoctlUnlock, hpos]

/-! ## One step -/

/-- The call at this phase has taken a reference and not counted it yet, or has
uncounted one and not given it back. -/
def PinPhase.weight : PinPhase → Nat
  | .atomicInc => 1
  | .modulePut => 1
  | _ => 0

/-- What the step at this phase adds to the counter. -/
def PinPhase.delta : PinPhase → Int
  | .atomicInc => 1
  | .atomicDec => -1
  | _ => 0

/-- The number of calls that hold a reference which is not counted. -/
def PinState.between (s : PinState) : Nat :=
  (s.calls.map PinPhase.weight).sum

/-- The counter and the calls in between account for the references. -/
def PinState.Account (s : PinState) : Prop :=
  s.lockCount.toInt + s.between = s.taken - s.released

theorem PinState.between_enter (s : PinState) (cmd : PinCommand) :
    PinState.between { s with calls := s.calls ++ [cmd.entry] } = s.between := by
  cases cmd <;> simp [PinState.between, PinCommand.entry, PinPhase.weight]

theorem PinState.between_goOn {s : PinState} {i : Nat} {phase : PinPhase}
    (h : s.calls[i]? = some phase) (phase' : PinPhase) :
    (s.goOn i phase').between + phase.weight = s.between + phase'.weight := by
  rcases List.getElem?_eq_some_iff.1 h with ⟨hi, hphase⟩
  have hsplit : s.calls = s.calls.take i ++ phase :: s.calls.drop (i + 1) := by
    rw [← hphase, List.cons_getElem_drop_succ, List.take_append_drop]
  have hset : s.calls.set i phase' = s.calls.take i ++ phase' :: s.calls.drop (i + 1) :=
    List.set_eq_take_cons_drop phase' hi
  simp only [PinState.between, PinState.goOn]
  rw [hset]
  conv_rhs => rw [hsplit]
  simp only [List.map_append, List.map_cons, List.sum_append, List.sum_cons]
  omega

/-- A call that goes on moves the references by its weight, so that those which are not
in between change by what the step adds to the counter. -/
theorem PinState.settled_goOn {s s' : PinState} {i : Nat} {phase : PinPhase} (next : PinPhase)
    (hphase : s.calls[i]? = some phase) (hcalls : s'.calls = (s.goOn i next).calls)
    (hrefs : (s'.taken : Int) - s'.released + phase.weight =
      s.taken - s.released + phase.delta + next.weight) :
    (s'.taken : Int) - s'.released - s'.between =
      s.taken - s.released - s.between + phase.delta := by
  have hbetween := PinState.between_goOn hphase next
  have hsame : s'.between = (s.goOn i next).between := by
    rw [PinState.between, hcalls, ← PinState.between]
  omega

/-- A step of a call adds to the counter what it adds to the references that are
not in between. -/
theorem PinState.step_cases {s s' : PinState} {i : Nat} {live : Bool}
    (h : s.step (.advance i live) = some s') :
    ∃ phase, s.calls[i]? = some phase ∧
      s'.lockCount = s.lockCount + BitVec.ofInt 32 phase.delta ∧
      (s'.taken : Int) - s'.released - s'.between =
        s.taken - s.released - s.between + phase.delta := by
  cases hphase : s.calls[i]? with
  | none => simp [PinState.step, hphase] at h
  | some phase =>
      have hsame : s.lockCount = s.lockCount + BitVec.ofInt 32 0 := by simp
      refine ⟨phase, rfl, ?_⟩
      simp only [PinState.step, hphase] at h
      cases phase with
      | tryModuleGet =>
          cases live with
          | true =>
              cases h
              refine ⟨hsame, PinState.settled_goOn .atomicInc hphase rfl ?_⟩
              simp only [PinState.goOn, PinPhase.weight, PinPhase.delta]
              omega
          | false =>
              cases h
              refine ⟨hsame, PinState.settled_goOn _ hphase rfl ?_⟩
              simp [PinState.goOn, PinPhase.weight, PinPhase.delta]
      | atomicInc =>
          cases h
          refine ⟨rfl, PinState.settled_goOn (.returned (.ok ())) hphase rfl ?_⟩
          simp only [PinState.goOn, PinPhase.weight, PinPhase.delta]
          omega
      | atomicRead =>
          by_cases hpos : s.lockCount.toInt > 0
          · rw [if_pos hpos] at h
            cases h
            refine ⟨hsame, PinState.settled_goOn _ hphase rfl ?_⟩
            simp [PinState.goOn, PinPhase.weight, PinPhase.delta]
          · rw [if_neg hpos] at h
            cases h
            refine ⟨hsame, PinState.settled_goOn _ hphase rfl ?_⟩
            simp [PinState.goOn, PinPhase.weight, PinPhase.delta]
      | atomicDec =>
          cases h
          refine ⟨by rw [BitVec.sub_eq_add_neg]; rfl,
            PinState.settled_goOn .modulePut hphase rfl ?_⟩
          simp only [PinState.goOn, PinPhase.weight, PinPhase.delta]
          omega
      | modulePut =>
          cases h
          refine ⟨hsame, PinState.settled_goOn (.returned (.ok ())) hphase rfl ?_⟩
          simp only [PinState.goOn, PinPhase.weight, PinPhase.delta]
          omega
      | returned ret => cases h

/-- The counter wraps around, and a counter that is not negative stays so exactly
if it does not leave its range. -/
theorem counter_add_delta {c : BitVec 32} (hc : 0 ≤ c.toInt) (phase : PinPhase) :
    (0 ≤ (c + BitVec.ofInt 32 phase.delta).toInt ↔
      (phase = .atomicDec → 0 < c.toInt) ∧ (phase = .atomicInc → c.toInt ≠ 2 ^ 31 - 1)) ∧
    (0 ≤ (c + BitVec.ofInt 32 phase.delta).toInt →
      (c + BitVec.ofInt 32 phase.delta).toInt = c.toInt + phase.delta) := by
  have hlt := c.toInt_lt
  rw [BitVec.toInt_add, BitVec.toInt_ofInt, Int.add_bmod_bmod, Int.bmod_def]
  cases phase <;> simp [PinPhase.delta] <;> omega

/-- Under the account, a counter that is not negative balances the pin. -/
theorem PinState.Account.balanced {s : PinState} (h : s.Account) (hc : 0 ≤ s.lockCount.toInt) :
    s.Balanced := by
  unfold PinState.Account at h
  refine ⟨hc, by omega, ?_⟩
  intro hidle
  have hzero : s.between = 0 := by
    refine List.sum_eq_zero fun w hw => ?_
    rcases List.mem_map.1 hw with ⟨phase, hphase, rfl⟩
    rcases hidle phase hphase with ⟨ret, rfl⟩
    rfl
  omega

/-- A step that leaves the counter not negative is in range and keeps the
account. -/
theorem PinState.Account.step_iff {s s' : PinState} {l : PinStep} (h : s.Account)
    (hc : 0 ≤ s.lockCount.toInt) (hstep : s.step l = some s') :
    (0 ≤ s'.lockCount.toInt ↔ s.CounterInRange l) ∧ (0 ≤ s'.lockCount.toInt → s'.Account) := by
  unfold PinState.Account at h ⊢
  cases l with
  | enter cmd =>
      cases hstep
      rw [PinState.between_enter]
      exact ⟨iff_of_true hc trivial, fun _ => h⟩
  | advance i live =>
      rcases PinState.step_cases hstep with ⟨phase, hphase, hcount, hrefs⟩
      rcases counter_add_delta hc phase with ⟨hiff, hexact⟩
      rw [← hcount] at hiff hexact
      refine ⟨?_, ?_⟩
      · simpa [PinState.CounterInRange, hphase] using hiff
      · intro hnext
        have hsum := hexact hnext
        omega

/-! ## Runs -/

/-- Over every interleaving of any number of LOCK and UNLOCK calls, the pin is
balanced throughout exactly when no UNLOCK decrements a counter that other calls
have brought to zero since it looked, and no LOCK increments the largest
counter. -/
theorem module_pin_balanced_iff (steps : List PinStep) :
    StepRun.Always PinState.step PinState.Balanced PinState.initial steps ↔
      StepRun.Along PinState.step PinState.CounterInRange PinState.initial steps := by
  refine StepRun.always_iff_along (I := fun s => s.Account ∧ 0 ≤ s.lockCount.toInt)
    ?_ ?_ ?_ ⟨rfl, by decide⟩ (by decide)
  · rintro s l s' ⟨hacc, hc⟩ hrange hstep
    rcases hacc.step_iff hc hstep with ⟨hiff, hkeep⟩
    exact ⟨hkeep (hiff.2 hrange), hiff.2 hrange⟩
  · rintro s l s' ⟨hacc, hc⟩ - hstep
    rcases hacc.step_iff hc hstep with ⟨hiff, hkeep⟩
    rw [← hiff]
    exact ⟨PinState.Balanced.nonneg, fun hnext => (hkeep hnext).balanced hnext⟩
  · intro s l hstep
    cases l with
    | enter cmd => exact trivial
    | advance i live =>
        cases hphase : s.calls[i]? with
        | none => simp [PinState.CounterInRange, hphase]
        | some phase =>
            cases phase <;> simp [PinState.step, PinState.CounterInRange, hphase] at hstep ⊢

/-- One LOCK, then two UNLOCK calls that both look at the counter before either
of them decrements it. -/
def twoUnlocks : List PinStep :=
  [.enter .lock, .advance 0 true, .advance 0 true, .enter .unlock, .enter .unlock,
    .advance 1 true, .advance 2 true, .advance 1 true, .advance 2 true, .advance 1 true,
    .advance 2 true]

/-- The counter is then -1, and two references are given back for one taken. -/
theorem two_unlocks_release_twice :
    ((StepRun.run PinState.step PinState.initial twoUnlocks).map fun s =>
        (s.lockCount.toInt, s.taken, s.released)) = some (-1, 1, 2) ∧
      ¬StepRun.Always PinState.step PinState.Balanced PinState.initial twoUnlocks := by
  decide

end Anticheat
