import Anticheat.Foundation.BoundedRing
import Anticheat.Kernel.Abi

/-!
# The event ring

The module queues its security events in a ring of 256 entries.  `ac_emit`
overwrites the oldest entry of a full ring and counts the loss;
`ac_drain_events` moves up to 64 events into a list, or discards everything
when it is given none.

The abstract model is a first-in-first-out queue that also records what became
of every event that left it.

Main results:

- Theorem {lit}`acEmit_spec`: what one emit does to the pending events.
- Theorems {lit}`acDrainEvents_list` and {lit}`acDrainEvents_flush`: what the
  two kinds of drain do.
- Theorem {lit}`event_ring_refines_fifo`: every sequence of calls behaves as the
  queue does.
-/

namespace Anticheat

open Foundation

/-- `AC_RING_SIZE` -/
def acRingSize : Nat := 256

/-- The ring `ac_ring` with its cursors, and the drop counter `ac_dropped`. -/
structure EventRing where
  ring : Ring AcEvent acRingSize
  dropped : UInt32
deriving DecidableEq

/-- The state of the statics at module load. -/
def EventRing.initial : EventRing where
  ring := Ring.empty AcEvent acRingSize
  dropped := 0

/-- The arguments of one `ac_emit` call, with the text already formatted. -/
structure EmitCall where
  type : AcEventType
  pid : Int
  comm : Option CStr
  data : CStr
deriving DecidableEq

/-- The entry that `ac_emit` fills in at time `now`. -/
def EmitCall.event (c : EmitCall) (now : UInt64) : AcEvent where
  ts := now
  pid := c.pid
  comm := CStr.bounded acMaxComm (c.comm.getD (CStr.ascii "?"))
  type := c.type.code
  data := CStr.bounded acEventData c.data

/-- `ac_emit` -/
def acEmit (r : EventRing) (now : UInt64) (c : EmitCall) : EventRing :=
  let r :=
    if r.ring.count ≥ acRingSize then
      { ring := r.ring.dropOldest, dropped := r.dropped + 1 }
    else r
  { r with ring := r.ring.put (c.event now) }

/-- The test of the drain loop: an event is pending and the list has room. -/
def drainMore (out : Option AcEventList) (r : EventRing) : Bool :=
  decide (r.ring.count > 0) &&
    match out with
    | none => true
    | some o => decide (o.count < acMaxEvents)

/-- The drain loop.  Each round takes one event off the ring, so the number of
pending events is fuel enough. -/
def drainLoop : Nat → Option AcEventList → EventRing →
    Option AcEventList × EventRing
  | 0, out, r => (out, r)
  | fuel + 1, out, r =>
      if drainMore out r then
        drainLoop fuel
          (out.map fun o =>
            { o with
              events := o.events.set o.count r.ring.oldest
              count := o.count + 1 })
          { r with ring := r.ring.dropOldest }
      else (out, r)

/-- `ac_drain_events`; `none` is the NULL list that flushes the ring. -/
def acDrainEvents (out : Option AcEventList) (r : EventRing) :
    Option AcEventList × EventRing :=
  drainLoop r.ring.count
    (out.map fun o => { o with dropped := r.dropped, count := 0 }) r

/-- The events waiting in the ring, oldest first. -/
def EventRing.pending (r : EventRing) : List AcEvent :=
  r.ring.contents

/-! ## One call at a time -/

theorem EventRing.initial_wf : EventRing.initial.ring.Wf :=
  Ring.Wf.empty (by decide)

@[simp]
theorem EventRing.initial_pending : EventRing.initial.pending = [] :=
  Ring.contents_empty

theorem EventRing.length_pending (r : EventRing) :
    r.pending.length = r.ring.count :=
  Ring.length_contents r.ring

/-- An emit appends its event; on a full ring it first discards the oldest one
and counts it. -/
theorem acEmit_spec {r : EventRing} (h : r.ring.Wf) (now : UInt64) (c : EmitCall) :
    (acEmit r now c).ring.Wf ∧
      if r.pending.length = acRingSize then
        (acEmit r now c).pending = r.pending.tail ++ [c.event now] ∧
          (acEmit r now c).dropped = r.dropped + 1
      else
        (acEmit r now c).pending = r.pending ++ [c.event now] ∧
          (acEmit r now c).dropped = r.dropped := by
  have hle := h.count_le
  rw [EventRing.length_pending]
  by_cases hfull : r.ring.count = acRingSize
  · have hpos : 0 < r.ring.count := by
      rw [hfull]
      decide
    have hge : r.ring.count ≥ acRingSize := by omega
    have hwf := h.dropOldest hpos
    have hroom : r.ring.dropOldest.count < acRingSize := by
      simp only [Ring.dropOldest]
      omega
    rw [if_pos hfull]
    simp only [acEmit, if_pos hge, EventRing.pending, and_true]
    refine ⟨hwf.put hroom _, ?_⟩
    rw [Ring.contents_put hwf hroom, Ring.contents_dropOldest h hpos, List.tail_cons]
  · have hroom : r.ring.count < acRingSize := by omega
    have hnge : ¬r.ring.count ≥ acRingSize := by omega
    rw [if_neg hfull]
    simp only [acEmit, if_neg hnge, EventRing.pending, and_true]
    exact ⟨h.put hroom _, Ring.contents_put h hroom _⟩

/-- One round of the drain loop takes the oldest pending event. -/
theorem pending_dropOldest {r : EventRing} (h : r.ring.Wf) (hpos : 0 < r.ring.count) :
    r.pending = r.ring.oldest ::
      EventRing.pending { r with ring := r.ring.dropOldest } :=
  Ring.contents_dropOldest h hpos

theorem drainLoop_flush {fuel : Nat} {r : EventRing} (h : r.ring.Wf)
    (hfuel : r.ring.count = fuel) :
    (drainLoop fuel none r).2.ring.Wf ∧ (drainLoop fuel none r).1 = none ∧
      (drainLoop fuel none r).2.pending = [] ∧
      (drainLoop fuel none r).2.dropped = r.dropped := by
  induction fuel generalizing r with
  | zero =>
      refine ⟨h, rfl, ?_, rfl⟩
      rw [← List.length_eq_zero_iff, drainLoop, EventRing.length_pending, hfuel]
  | succ fuel ih =>
      have hpos : 0 < r.ring.count := by omega
      have hmore : drainMore none r = true := by simp [drainMore, hpos]
      rw [drainLoop, if_pos hmore]
      exact ih (h.dropOldest hpos) (by simp only [Ring.dropOldest]; omega)

/-- The drain loop moves the oldest events into the list, as many as fit. -/
theorem drainLoop_list {fuel : Nat} {r : EventRing} {o : AcEventList}
    (h : r.ring.Wf) (hfuel : r.ring.count = fuel) (ho : o.count ≤ acMaxEvents) :
    ∃ o' r', drainLoop fuel (some o) r = (some o', r') ∧ r'.ring.Wf ∧
      r'.dropped = r.dropped ∧ o'.dropped = o.dropped ∧
      o'.reported = o.reported ++ r.pending.take (acMaxEvents - o.count) ∧
      o'.events.slots.drop o'.count = o.events.slots.drop o'.count ∧
      o'.count = o.count + min (acMaxEvents - o.count) r.ring.count ∧
      r'.pending = r.pending.drop (acMaxEvents - o.count) := by
  induction fuel generalizing r o with
  | zero =>
      have hnil : r.pending = [] := by
        rw [← List.length_eq_zero_iff, EventRing.length_pending, hfuel]
      exact ⟨o, r, rfl, h, rfl, rfl, by simp [hnil], rfl, by simp [hfuel], by simp [hnil]⟩
  | succ fuel ih =>
      have hpos : 0 < r.ring.count := by omega
      by_cases hroom : o.count < acMaxEvents
      · have hmore : drainMore (some o) r = true := by simp [drainMore, hpos, hroom]
        have hlen : o.count < o.events.slots.length := by
          rw [o.events.length_slots]
          exact hroom
        have hdrop := pending_dropOldest h hpos
        have hsub : acMaxEvents - o.count = acMaxEvents - (o.count + 1) + 1 := by omega
        rw [drainLoop, if_pos hmore, Option.map_some]
        rcases ih (r := { r with ring := r.ring.dropOldest })
            (o := { o with
              events := o.events.set o.count r.ring.oldest
              count := o.count + 1 })
            (h.dropOldest hpos) (by simp only [Ring.dropOldest]; omega) hroom with
          ⟨o', r', hrun, hwf, hd, hod, hrep, htail, hcount, hpend⟩
        simp only [Ring.dropOldest] at hd hod hcount hpend hrep htail
        have hcount' : o'.count = o.count + min (acMaxEvents - o.count) r.ring.count := by
          omega
        refine ⟨o', r', hrun, hwf, hd, hod, ?_, ?_, hcount', ?_⟩
        · rw [hrep, hdrop, hsub, List.take_succ_cons]
          simp only [AcEventList.reported, SlotTable.set_slots, Ring.dropOldest]
          rw [List.take_add_one, List.getElem?_set_self hlen,
            List.take_set_of_le (Nat.le_refl _)]
          simp
        · rw [htail, SlotTable.set_slots, List.drop_set_of_lt (by omega)]
        · rw [hpend, hdrop, hsub, List.drop_succ_cons]
          rfl
      · have hmore : drainMore (some o) r = false := by simp [drainMore, hroom]
        have hzero : acMaxEvents - o.count = 0 := by omega
        refine ⟨o, r, ?_, h, rfl, rfl, by simp [hzero], rfl, by simp [hzero], by simp [hzero]⟩
        rw [drainLoop, hmore]
        rfl

/-- A drain into a list returns the oldest events, at most 64 of them, and
removes exactly those. -/
theorem acDrainEvents_list {r : EventRing} (h : r.ring.Wf) (o : AcEventList) :
    ∃ o' r', acDrainEvents (some o) r = (some o', r') ∧ r'.ring.Wf ∧
      r'.dropped = r.dropped ∧ o'.dropped = r.dropped ∧
      o'.reported = r.pending.take acMaxEvents ∧
      o'.events.slots.drop o'.count = o.events.slots.drop o'.count ∧
      o'.count = min acMaxEvents r.pending.length ∧
      r'.pending = r.pending.drop acMaxEvents := by
  rcases drainLoop_list (o := { o with dropped := r.dropped, count := 0 }) h rfl
      (Nat.zero_le _) with ⟨o', r', hrun, hwf, hd, hod, hrep, htail, hcount, hpend⟩
  refine ⟨o', r', hrun, hwf, hd, hod, ?_, htail, ?_, ?_⟩
  · simpa [AcEventList.reported] using hrep
  · simpa [EventRing.length_pending] using hcount
  · simpa using hpend

/-- A drain without a list removes every pending event. -/
theorem acDrainEvents_flush {r : EventRing} (h : r.ring.Wf) :
    (acDrainEvents none r).2.ring.Wf ∧ (acDrainEvents none r).1 = none ∧
      (acDrainEvents none r).2.pending = [] ∧
      (acDrainEvents none r).2.dropped = r.dropped :=
  drainLoop_flush h rfl

/-! ## Sequences of calls -/

/-- One call on the ring. -/
inductive RingOp where
  | emit (now : UInt64) (call : EmitCall)
  | drain (out : AcEventList)
  | flush

/-- The ring together with the lists that the drains so far have returned. -/
structure RingState where
  ring : EventRing
  replies : List AcEventList

/-- The effect of one call. -/
def RingState.step (s : RingState) : RingOp → RingState
  | .emit now call => { s with ring := acEmit s.ring now call }
  | .drain out =>
      let (reply, ring) := acDrainEvents (some out) s.ring
      { ring := ring, replies := s.replies ++ reply.toList }
  | .flush => { s with ring := (acDrainEvents none s.ring).2 }

/-- A sequence of calls from the empty ring. -/
def ringRun (ops : List RingOp) : RingState :=
  ops.foldl RingState.step { ring := EventRing.initial, replies := [] }

/-- The events that a sequence of calls emits, in order. -/
def emitted (ops : List RingOp) : List AcEvent :=
  ops.filterMap fun op =>
    match op with
    | .emit now call => some (call.event now)
    | _ => none

/-! ## The abstract queue -/

/-- What became of an event that is no longer pending. -/
inductive Fate where
  | returned
  | flushed
  | dropped
deriving DecidableEq

/-- A bounded first-in-first-out queue of events with its history. -/
structure EventQueue where
  pending : List AcEvent
  settled : List (AcEvent × Fate)
  replies : List (List AcEvent)

def EventQueue.initial : EventQueue where
  pending := []
  settled := []
  replies := []

/-- Take the given events off the queue with one common fate. -/
def EventQueue.settle (q : EventQueue) (n : Nat) (fate : Fate) : EventQueue :=
  { q with
    pending := q.pending.drop n
    settled := q.settled ++ (q.pending.take n).map fun e => (e, fate) }

/-- The queue's view of one call. -/
def EventQueue.step (q : EventQueue) : RingOp → EventQueue
  | .emit now call =>
      let q := if q.pending.length = acRingSize then q.settle 1 .dropped else q
      { q with pending := q.pending ++ [call.event now] }
  | .drain _ =>
      { q.settle acMaxEvents .returned with
        replies := q.replies ++ [q.pending.take acMaxEvents] }
  | .flush => q.settle q.pending.length .flushed

def fifoRun (ops : List RingOp) : EventQueue :=
  ops.foldl EventQueue.step EventQueue.initial

/-- Number of events that the queue has dropped. -/
def EventQueue.drops (q : EventQueue) : Nat :=
  q.settled.countP fun e => e.2 = Fate.dropped

/-- The events that drains have returned, in order. -/
def EventQueue.returnedEvents (q : EventQueue) : List AcEvent :=
  (q.settled.filter fun e => e.2 = Fate.returned).map Prod.fst

@[simp]
theorem EventQueue.settle_pending (q : EventQueue) (n : Nat) (fate : Fate) :
    (q.settle n fate).pending = q.pending.drop n :=
  rfl

/-- Settling moves events from the queue to the history and loses none. -/
theorem EventQueue.settle_conserves (q : EventQueue) (n : Nat) (fate : Fate) :
    (q.settle n fate).settled.map Prod.fst ++ (q.settle n fate).pending =
      q.settled.map Prod.fst ++ q.pending := by
  have hfst : (Prod.fst ∘ fun e : AcEvent => (e, fate)) = id := rfl
  simp only [settle, List.map_append, List.map_map, hfst, List.map_id,
    List.append_assoc, List.take_append_drop]

theorem EventQueue.settle_drops (q : EventQueue) (n : Nat) (fate : Fate) :
    (q.settle n fate).drops =
      q.drops + if fate = .dropped then min n q.pending.length else 0 := by
  have hpred : (fun e : AcEvent × Fate => decide (e.2 = Fate.dropped)) ∘
      (fun e : AcEvent => (e, fate)) = fun _ => decide (fate = .dropped) := rfl
  simp only [drops, settle, List.countP_append, List.countP_map, hpred]
  by_cases hf : fate = .dropped
  · simp [hf, List.countP_true]
  · simp [hf, List.countP_false]

theorem EventQueue.settle_returnedEvents (q : EventQueue) (n : Nat) (fate : Fate) :
    (q.settle n fate).returnedEvents =
      q.returnedEvents ++ if fate = .returned then q.pending.take n else [] := by
  have hpred : (fun e : AcEvent × Fate => decide (e.2 = Fate.returned)) ∘
      (fun e : AcEvent => (e, fate)) = fun _ => decide (fate = .returned) := rfl
  have hfst : (Prod.fst ∘ fun e : AcEvent => (e, fate)) = id := rfl
  simp only [returnedEvents, settle, List.filter_append, List.filter_map, hpred,
    List.map_append, List.map_map, hfst, List.map_id]
  by_cases hf : fate = .returned
  · simp [hf]
  · simp [hf]

/-! ## Refinement -/

/-- The ring implements the queue: same pending events, same replies, and a
drop counter that counts modulo `2 ^ 32`. -/
structure RingRefines (s : RingState) (q : EventQueue) : Prop where
  wf : s.ring.ring.Wf
  pending_eq : s.ring.pending = q.pending
  dropped_eq : s.ring.dropped.toNat = q.drops % 2 ^ 32
  replies_eq : s.replies.map (fun o => (o.count, o.reported)) =
    q.replies.map fun l => (l.length, l)

theorem RingRefines.initial :
    RingRefines { ring := EventRing.initial, replies := [] } EventQueue.initial where
  wf := EventRing.initial_wf
  pending_eq := EventRing.initial_pending
  dropped_eq := rfl
  replies_eq := rfl

/-- An emit into a full ring drops the oldest event, on both sides. -/
theorem RingRefines.emit {s : RingState} {q : EventQueue} (h : RingRefines s q)
    (now : UInt64) (call : EmitCall) :
    RingRefines (s.step (.emit now call)) (q.step (.emit now call)) := by
  rcases acEmit_spec h.wf now call with ⟨hwf, hspec⟩
  rw [h.pending_eq] at hspec
  by_cases hfull : q.pending.length = acRingSize
  · rw [if_pos hfull] at hspec
    refine ⟨hwf, ?_, ?_, ?_⟩
    · simp only [RingState.step, EventQueue.step, if_pos hfull]
      rw [hspec.1, EventQueue.settle_pending, List.drop_one]
    · have hone : min 1 q.pending.length = 1 := by
        rw [hfull]
        decide
      have hdrops : (q.step (.emit now call)).drops = q.drops + 1 := by
        simp only [EventQueue.step, if_pos hfull]
        refine (q.settle_drops 1 .dropped).trans ?_
        rw [if_pos rfl, hone]
      rw [hdrops]
      simp only [RingState.step]
      rw [hspec.2, UInt32.toNat_add, h.dropped_eq]
      simp
    · simpa [RingState.step, EventQueue.step, if_pos hfull, EventQueue.settle]
        using h.replies_eq
  · rw [if_neg hfull] at hspec
    refine ⟨hwf, ?_, ?_, ?_⟩
    · simpa [RingState.step, EventQueue.step, if_neg hfull] using hspec.1
    · have hdrops : (q.step (.emit now call)).drops = q.drops := by
        simp only [EventQueue.step, if_neg hfull]
        rfl
      rw [hdrops]
      simp only [RingState.step]
      rw [hspec.2]
      exact h.dropped_eq
    · simpa [RingState.step, EventQueue.step, if_neg hfull] using h.replies_eq

/-- A drain returns the oldest events, on both sides. -/
theorem RingRefines.drain {s : RingState} {q : EventQueue} (h : RingRefines s q)
    (out : AcEventList) : RingRefines (s.step (.drain out)) (q.step (.drain out)) := by
  rcases acDrainEvents_list h.wf out with
    ⟨o', r', hrun, hwf, hd, -, hrep, -, hcount, hpend⟩
  rw [h.pending_eq] at hrep hcount hpend
  have hs : s.step (.drain out) = { ring := r', replies := s.replies ++ [o'] } := by
    simp [RingState.step, hrun]
  rw [hs]
  refine ⟨hwf, hpend, ?_, ?_⟩
  · have hdrops : (q.step (.drain out)).drops = q.drops :=
      q.settle_drops acMaxEvents .returned
    rw [hdrops]
    simp only
    rw [hd]
    exact h.dropped_eq
  · simp only [EventQueue.step, List.map_append, h.replies_eq, List.map_cons,
      List.map_nil, List.append_cancel_left_eq, List.cons.injEq, Prod.mk.injEq, and_true]
    exact ⟨by rw [hcount, List.length_take], hrep⟩

/-- A flush empties both sides. -/
theorem RingRefines.flush {s : RingState} {q : EventQueue} (h : RingRefines s q) :
    RingRefines (s.step .flush) (q.step .flush) := by
  rcases acDrainEvents_flush h.wf with ⟨hwf, -, hpend, hd⟩
  refine ⟨hwf, ?_, ?_, h.replies_eq⟩
  · simp only [RingState.step, EventQueue.step]
    rw [hpend]
    simp
  · have hdrops : (q.step .flush).drops = q.drops :=
      q.settle_drops q.pending.length .flushed
    rw [hdrops]
    simp only [RingState.step]
    rw [hd]
    exact h.dropped_eq

theorem RingRefines.step {s : RingState} {q : EventQueue} (h : RingRefines s q)
    (op : RingOp) : RingRefines (s.step op) (q.step op) := by
  cases op with
  | emit now call => exact h.emit now call
  | drain out => exact h.drain out
  | flush => exact h.flush

theorem RingRefines.foldl {s : RingState} {q : EventQueue} (h : RingRefines s q)
    (ops : List RingOp) :
    RingRefines (ops.foldl RingState.step s) (ops.foldl EventQueue.step q) := by
  induction ops generalizing s q with
  | nil => exact h
  | cons op ops ih => exact ih (h.step op)

/-- The history and the queue together are the events emitted so far, and the
replies are the events recorded as returned. -/
structure QueueAccounts (events : List AcEvent) (q : EventQueue) : Prop where
  conserved : q.settled.map Prod.fst ++ q.pending = events
  replies_eq : q.replies.flatten = q.returnedEvents

theorem QueueAccounts.step {events : List AcEvent} {q : EventQueue}
    (h : QueueAccounts events q) (op : RingOp) :
    QueueAccounts (events ++ emitted [op]) (q.step op) := by
  cases op with
  | emit now call =>
      have hmade : emitted [.emit now call] = [call.event now] := rfl
      rw [hmade, ← h.conserved]
      by_cases hfull : q.pending.length = acRingSize
      · refine ⟨?_, ?_⟩
        · simp only [EventQueue.step, if_pos hfull]
          rw [← q.settle_conserves 1 .dropped, List.append_assoc]
        · simp only [EventQueue.step, if_pos hfull]
          refine h.replies_eq.trans ?_
          refine ((q.settle_returnedEvents 1 .dropped).trans ?_).symm
          simp
      · refine ⟨?_, ?_⟩
        · simp only [EventQueue.step, if_neg hfull, List.append_assoc]
        · simp only [EventQueue.step, if_neg hfull]
          exact h.replies_eq
  | drain out =>
      have hmade : emitted [.drain out] = [] := rfl
      rw [hmade, List.append_nil]
      refine ⟨(q.settle_conserves acMaxEvents .returned).trans h.conserved, ?_⟩
      refine Eq.trans ?_ (q.settle_returnedEvents acMaxEvents .returned).symm
      simp [EventQueue.step, h.replies_eq]
  | flush =>
      have hmade : emitted [.flush] = [] := rfl
      rw [hmade, List.append_nil]
      refine ⟨(q.settle_conserves q.pending.length .flushed).trans h.conserved, ?_⟩
      refine Eq.trans ?_ (q.settle_returnedEvents q.pending.length .flushed).symm
      rw [if_neg (by decide), List.append_nil]
      exact h.replies_eq

theorem emitted_cons (op : RingOp) (ops : List RingOp) :
    emitted (op :: ops) = emitted [op] ++ emitted ops := by
  rw [emitted, emitted, emitted, ← List.filterMap_append]
  rfl

theorem QueueAccounts.foldl {events : List AcEvent} {q : EventQueue}
    (h : QueueAccounts events q) (ops : List RingOp) :
    QueueAccounts (events ++ emitted ops) (ops.foldl EventQueue.step q) := by
  induction ops generalizing events q with
  | nil => simpa [emitted] using h
  | cons op ops ih =>
      rw [emitted_cons, ← List.append_assoc]
      exact ih (h.step op)

/-- Every sequence of emits, drains and flushes from the empty ring behaves as
the bounded queue: the cursors agree, the same events are pending, each drain
returns what the queue returns, the counter counts the drops, and the emitted
events are exactly the settled ones followed by the pending ones. -/
theorem event_ring_refines_fifo (ops : List RingOp) :
    (ringRun ops).ring.ring.head =
        ((ringRun ops).ring.ring.tail + (ringRun ops).ring.ring.count) % acRingSize ∧
      (ringRun ops).ring.ring.count ≤ acRingSize ∧
      (ringRun ops).ring.pending = (fifoRun ops).pending ∧
      (ringRun ops).ring.dropped.toNat = (fifoRun ops).drops % 2 ^ 32 ∧
      (ringRun ops).replies.map (fun o => (o.count, o.reported)) =
        (fifoRun ops).replies.map (fun l => (l.length, l)) ∧
      emitted ops = (fifoRun ops).settled.map Prod.fst ++ (fifoRun ops).pending ∧
      (fifoRun ops).replies.flatten = (fifoRun ops).returnedEvents := by
  have href := RingRefines.initial.foldl ops
  have hstart : QueueAccounts [] EventQueue.initial := ⟨rfl, rfl⟩
  have hacc := hstart.foldl ops
  rw [List.nil_append] at hacc
  exact ⟨href.wf.head_eq, href.wf.count_le, href.pending_eq, href.dropped_eq,
    href.replies_eq, hacc.conserved.symm, hacc.replies_eq⟩

end Anticheat
