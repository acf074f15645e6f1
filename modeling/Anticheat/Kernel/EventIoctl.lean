import Anticheat.Foundation.StepRun
import Anticheat.Kernel.EventRing

/-!
# Events at the ioctl boundary

`AC_IOCTL_GET_EVENTS` allocates a list, drains the ring into it and copies it
to user space; `AC_IOCTL_FLUSH_EVENTS` drains without a list.  The drain comes
before the copy, so a copy that fails has already taken its events off the
ring.

The ledger keeps, beside the ring, the events emitted so far and what happened
to those that left it.

Main results:

- Theorem {lit}`acIoctlGetEvents_error_keeps_iff`: a failing call leaves the
  ring alone exactly when it ran out of memory or had nothing to copy.
- Theorem {lit}`events_accounted_iff`: over every run, no event goes missing
  exactly when no copy fails while events are pending.
-/

namespace Anticheat

open Foundation

/-- `AC_IOCTL_GET_EVENTS`, with the outcomes of `kzalloc` and `copy_to_user`.
`ac_drain_events` itself always returns zero. -/
def acIoctlGetEvents (alloc copy : Bool) (r : EventRing) :
    Except Errno (Option AcEventList) × EventRing :=
  if !alloc then
    (.error .ENOMEM, r)
  else
    let (el, r) := acDrainEvents (some AcEventList.zero) r
    if !copy then (.error .EFAULT, r) else (.ok el, r)

/-- `AC_IOCTL_FLUSH_EVENTS` -/
def acIoctlFlushEvents (r : EventRing) : EventRing :=
  (acDrainEvents none r).2

/-- What can happen to the ring: an event is emitted, or one of the two ioctls
is called. -/
inductive EventCall where
  | emit (now : UInt64) (call : EmitCall)
  | getEvents (alloc copy : Bool)
  | flushEvents
deriving DecidableEq

/-- The ring with a record of every event so far. -/
structure EventLedger where
  ring : EventRing
  emitted : List AcEvent
  delivered : List AcEvent
  flushed : List AcEvent
  dropped : List AcEvent
deriving DecidableEq

def EventLedger.initial : EventLedger where
  ring := EventRing.initial
  emitted := []
  delivered := []
  flushed := []
  dropped := []

/-- The events that user space receives from a call that returned zero. -/
def deliveredBy : Except Errno (Option AcEventList) → List AcEvent
  | .ok (some el) => el.reported
  | _ => []

/-- The effect of one call on the ring and on the record.  The ring changes
only through the modelled calls; the other fields are bookkeeping. -/
def EventLedger.step (s : EventLedger) : EventCall → EventLedger
  | .emit now call =>
      { s with
        ring := acEmit s.ring now call
        emitted := s.emitted ++ [call.event now]
        dropped := s.dropped ++
          if s.ring.ring.count ≥ acRingSize then [s.ring.ring.oldest] else [] }
  | .getEvents alloc copy =>
      let (ret, ring) := acIoctlGetEvents alloc copy s.ring
      { s with
        ring := ring
        delivered := s.delivered ++ deliveredBy ret }
  | .flushEvents =>
      { s with
        ring := acIoctlFlushEvents s.ring
        flushed := s.flushed ++ s.ring.pending }

/-- Every call is enabled. -/
def EventLedger.next (s : EventLedger) (call : EventCall) : Option EventLedger :=
  some (s.step call)

/-- Every emitted event is accounted for: delivered, flushed, dropped or still
pending, and the drop counter counts the dropped ones. -/
structure EventLedger.Accounted (s : EventLedger) : Prop where
  events : s.emitted.Perm (s.delivered ++ s.flushed ++ s.dropped ++ s.ring.pending)
  counter : s.ring.dropped.toNat = s.dropped.length % 2 ^ 32

/-- A GET_EVENTS that returns an error leaves the ring and the drop counter as
they were. -/
def EventLedger.ErrorKeepsRing (s : EventLedger) : EventCall → Prop
  | .getEvents alloc copy =>
      ∀ e, (acIoctlGetEvents alloc copy s.ring).1 = .error e →
        (acIoctlGetEvents alloc copy s.ring).2 = s.ring
  | _ => True

/-- The call does not fail to copy out events that it has taken off the ring. -/
def EventLedger.CopySafe (s : EventLedger) (call : EventCall) : Prop :=
  call = .getEvents true false → s.ring.pending = []

/-! ## One call -/

/-- Draining an empty ring changes nothing. -/
theorem acDrainEvents_of_empty {r : EventRing} (hr : r.pending = []) (o : AcEventList) :
    acDrainEvents (some o) r = (some { o with dropped := r.dropped, count := 0 }, r) := by
  have hcount : r.ring.count = 0 := by
    rw [← EventRing.length_pending, hr, List.length_nil]
  rw [acDrainEvents, hcount]
  rfl

/-- A failing GET_EVENTS leaves the ring as it was exactly when it failed for
lack of memory or when no event was pending. -/
theorem acIoctlGetEvents_error_keeps_iff {s : EventLedger} (h : s.ring.ring.Wf)
    (call : EventCall) : s.ErrorKeepsRing call ↔ s.CopySafe call := by
  cases call with
  | emit now c => simp [EventLedger.ErrorKeepsRing, EventLedger.CopySafe]
  | flushEvents => simp [EventLedger.ErrorKeepsRing, EventLedger.CopySafe]
  | getEvents alloc copy =>
      cases alloc with
      | false => simp [EventLedger.ErrorKeepsRing, EventLedger.CopySafe, acIoctlGetEvents]
      | true =>
          cases copy with
          | true => simp [EventLedger.ErrorKeepsRing, EventLedger.CopySafe, acIoctlGetEvents]
          | false =>
              constructor
              · intro hkeep _
                rcases acDrainEvents_list h AcEventList.zero with
                  ⟨o', r', hrun, -, -, -, -, -, -, hpend⟩
                have hr : r' = s.ring := by
                  simpa [acIoctlGetEvents, hrun] using
                    hkeep .EFAULT (by simp [acIoctlGetEvents])
                rw [hr] at hpend
                have hlen := congrArg List.length hpend
                rw [List.length_drop] at hlen
                rw [← List.length_eq_zero_iff]
                have hpos : 0 < acMaxEvents := by decide
                omega
              · intro hsafe e _
                have hnil := hsafe rfl
                simp [acIoctlGetEvents, acDrainEvents_of_empty hnil]

theorem EventLedger.step_wf {s : EventLedger} (h : s.ring.ring.Wf) (call : EventCall) :
    (s.step call).ring.ring.Wf := by
  cases call with
  | emit now c => exact (acEmit_spec h now c).1
  | flushEvents => exact (acDrainEvents_flush h).1
  | getEvents alloc copy =>
      rcases acDrainEvents_list h AcEventList.zero with ⟨o', r', hrun, hwf, -⟩
      cases alloc <;> cases copy <;>
        simpa [EventLedger.step, acIoctlGetEvents, hrun] using by assumption

theorem EventLedger.next_wf {s s' : EventLedger} {call : EventCall} (h : s.ring.ring.Wf)
    (hstep : s.next call = some s') : s'.ring.ring.Wf := by
  cases hstep
  exact EventLedger.step_wf h call

/-- An emit keeps the account. -/
theorem EventLedger.Accounted.emit {s : EventLedger} (hacc : s.Accounted)
    (h : s.ring.ring.Wf) (now : UInt64) (c : EmitCall) :
    (s.step (.emit now c)).Accounted := by
  rcases acEmit_spec h now c with ⟨-, hspec⟩
  by_cases hfull : s.ring.pending.length = acRingSize
  · rw [if_pos hfull] at hspec
    rw [EventRing.length_pending] at hfull
    have hge : s.ring.ring.count ≥ acRingSize := by omega
    have hpos : 0 < s.ring.ring.count := by
      rw [hfull]
      decide
    have hpend := pending_dropOldest h hpos
    refine ⟨?_, ?_⟩
    · simp only [EventLedger.step, if_pos hge]
      rw [hspec.1, hpend, List.tail_cons]
      have hold := hacc.events
      rw [hpend] at hold
      refine (hold.append_right [c.event now]).trans ?_
      simp only [List.append_assoc, List.cons_append, List.nil_append]
      exact List.Perm.refl _
    · simp only [EventLedger.step, if_pos hge, List.length_append, List.length_singleton]
      rw [hspec.2, UInt32.toNat_add, hacc.counter]
      simp
  · rw [if_neg hfull] at hspec
    rw [EventRing.length_pending] at hfull
    have hle := h.count_le
    have hnge : ¬s.ring.ring.count ≥ acRingSize := by omega
    refine ⟨?_, ?_⟩
    · simp only [EventLedger.step, if_neg hnge, List.append_nil]
      rw [hspec.1, ← List.append_assoc]
      exact hacc.events.append_right _
    · simp only [EventLedger.step, if_neg hnge, List.append_nil]
      rw [hspec.2]
      exact hacc.counter

/-- A flush keeps the account. -/
theorem EventLedger.Accounted.flush {s : EventLedger} (hacc : s.Accounted)
    (h : s.ring.ring.Wf) : (s.step .flushEvents).Accounted := by
  rcases acDrainEvents_flush h with ⟨-, -, hpend, hd⟩
  refine ⟨?_, ?_⟩
  · simp only [EventLedger.step, acIoctlFlushEvents]
    rw [hpend, List.append_nil]
    refine hacc.events.trans ?_
    simp only [List.append_assoc]
    exact (List.perm_append_comm.append_left _).append_left _
  · simp only [EventLedger.step, acIoctlFlushEvents]
    rw [hd]
    exact hacc.counter

/-- A GET_EVENTS keeps the account exactly when it does not lose the events it
drained. -/
theorem EventLedger.accounted_getEvents_iff {s : EventLedger} (hacc : s.Accounted)
    (h : s.ring.ring.Wf) (alloc copy : Bool) :
    (s.step (.getEvents alloc copy)).Accounted ↔ s.CopySafe (.getEvents alloc copy) := by
  rcases acDrainEvents_list h AcEventList.zero with
    ⟨o', r', hrun, -, hd, -, hrep, -, -, hpend⟩
  cases alloc with
  | false =>
      have hs : s.step (.getEvents false copy) = s := by
        simp [EventLedger.step, acIoctlGetEvents, deliveredBy]
      rw [hs]
      exact iff_of_true hacc (by simp [EventLedger.CopySafe])
  | true =>
      cases copy with
      | true =>
          refine iff_of_true ⟨?_, ?_⟩ (by simp [EventLedger.CopySafe])
          · simp only [EventLedger.step, acIoctlGetEvents, hrun, deliveredBy,
              Bool.not_true, Bool.false_eq_true, if_false]
            rw [hrep, hpend]
            have hold := hacc.events
            rw [← List.take_append_drop acMaxEvents s.ring.pending] at hold
            rw [List.perm_iff_count] at hold ⊢
            intro e
            have he := hold e
            simp only [List.count_append] at he ⊢
            omega
          · simp only [EventLedger.step, acIoctlGetEvents, hrun, deliveredBy,
              Bool.not_true, Bool.false_eq_true, if_false]
            rw [hd]
            exact hacc.counter
      | false =>
          have hs : s.step (.getEvents true false) = { s with ring := r' } := by
            simp [EventLedger.step, acIoctlGetEvents, hrun, deliveredBy]
          rw [hs]
          constructor
          · intro hlost _
            have hbefore := hacc.events.length_eq
            have hafter := hlost.events.length_eq
            simp only [List.length_append, hpend, List.length_drop] at hbefore hafter
            rw [← List.length_eq_zero_iff]
            have hpos : 0 < acMaxEvents := by decide
            omega
          · intro hsafe
            have hnil := hsafe rfl
            refine ⟨?_, ?_⟩
            · simpa [hpend, hnil] using hacc.events
            · simpa [hd] using hacc.counter

/-! ## Runs -/

theorem EventLedger.initial_accounted : EventLedger.initial.Accounted where
  events := by simp [EventLedger.initial]
  counter := rfl

/-- Under consistent cursors, one call keeps the account exactly when it is
safe. -/
theorem EventLedger.accounted_step_iff {s : EventLedger} (h : s.ring.ring.Wf)
    (hacc : s.Accounted) (call : EventCall) :
    (s.step call).Accounted ↔ s.CopySafe call := by
  cases call with
  | emit now c =>
      exact iff_of_true (hacc.emit h now c) (by simp [EventLedger.CopySafe])
  | getEvents alloc copy => exact EventLedger.accounted_getEvents_iff hacc h alloc copy
  | flushEvents =>
      exact iff_of_true (hacc.flush h) (by simp [EventLedger.CopySafe])

/-- The boundary loses no event: along the run every event is accounted for,
and a GET_EVENTS that fails changes nothing. -/
def EventsAccounted (calls : List EventCall) : Prop :=
  StepRun.Always EventLedger.next EventLedger.Accounted EventLedger.initial calls ∧
    StepRun.Along EventLedger.next EventLedger.ErrorKeepsRing EventLedger.initial calls

/-- No GET_EVENTS fails to copy while events are pending. -/
def NoFaultWhilePending (calls : List EventCall) : Prop :=
  StepRun.Along EventLedger.next EventLedger.CopySafe EventLedger.initial calls

theorem EventLedger.along_keeps_iff {s : EventLedger} (h : s.ring.ring.Wf)
    (calls : List EventCall) :
    StepRun.Along EventLedger.next EventLedger.ErrorKeepsRing s calls ↔
      StepRun.Along EventLedger.next EventLedger.CopySafe s calls := by
  refine StepRun.along_iff_of_invariant (fun _ _ _ => EventLedger.next_wf) ?_ h
  intro s call hwf
  exact acIoctlGetEvents_error_keeps_iff hwf call

/-- A run keeps the account throughout exactly when all its calls are safe. -/
theorem always_accounted_iff (calls : List EventCall) :
    StepRun.Always EventLedger.next EventLedger.Accounted EventLedger.initial calls ↔
      NoFaultWhilePending calls := by
  refine StepRun.always_iff_along (fun _ _ _ hwf _ => EventLedger.next_wf hwf) ?_ ?_
    EventRing.initial_wf EventLedger.initial_accounted
  · intro s call s' hwf hacc hs
    cases hs
    exact EventLedger.accounted_step_iff hwf hacc call
  · intro s call hs
    exact absurd hs (by simp [EventLedger.next])

/-- For every sequence of emitted events and GET_EVENTS and FLUSH_EVENTS calls,
with allocations and copies succeeding or failing at will, no event is lost
exactly when no copy fails while events are pending. -/
theorem events_accounted_iff (calls : List EventCall) :
    EventsAccounted calls ↔ NoFaultWhilePending calls := by
  constructor
  · rintro ⟨hacc, -⟩
    exact (always_accounted_iff calls).1 hacc
  · intro hsafe
    exact ⟨(always_accounted_iff calls).2 hsafe,
      (EventLedger.along_keeps_iff EventRing.initial_wf calls).2 hsafe⟩

/-- One event is emitted, and the list that carries it cannot be copied out. -/
def faultingCalls : List EventCall :=
  [.emit 0 { type := .ptrace, pid := 1, comm := none, data := [] },
    .getEvents true false]

/-- The event is then neither delivered nor counted, and nowhere pending. -/
theorem faulting_get_events_loses_event : ¬EventsAccounted faultingCalls := by
  rintro ⟨hacc, -⟩
  have hsafe := (always_accounted_iff faultingCalls).1 hacc
  have hnil := (hsafe.2 _ rfl).1 rfl
  revert hnil
  decide

end Anticheat
