import Anticheat.Kernel.SnapshotRecord

/-!
# Snapshot calls under every interleaving

Main results:

- Theorem {lit}`SnapSystem.Inv.step`: every step keeps the record in agreement with calls
  that run one after another.
- Theorem {lit}`snapshot_calls_linearize`: over every interleaving, the ioctls answer as if
  each of them had run at once, at some moment between its start and its end.
- Theorem {lit}`snapshot_memory_safe`: over every interleaving, nothing is used after it was
  freed, nothing is freed twice, and nothing is lost.
-/

namespace Anticheat

open Foundation

variable {File : Type}

namespace SnapSystem

variable [DecidableEq File]

section

variable {s s' : SnapSystem File} {i : Nat} {r : SnapRequest File}

/-! ## One step keeps the invariant -/

/-- A step that changes only the place where the call `i` stands. -/
theorem Inv.goOn (h : s.Inv) (hr : s.requests[i]? = some r) {stage : SnapStage}
    (hlive : r.stage.isReturned = false) (hstands : s.Stands i { r with stage := stage })
    (hsub : stage.sub = none)
    (hbusy : ∀ (j : Nat) (c : SnapLockCall), r.stage = .locked j → s.locks.calls[j]? = some c →
      c.phase.isReturned = true)
    (hasking : ∀ (j : Nat) (c : FdCall File), r.stage = .getState j → s.fd.calls[j]? = some c →
      c.phase.isReturned = true) : (s.goOn i r stage).Inv where
  fd := h.fd
  locks := h.locks
  linear := h.linear.silent rfl (keepsCalls_set hr rfl) h.linear.agrees h.linear.untouched
  running := h.running.goOn hr rfl rfl hlive rfl rfl (fun _ _ _ => Iff.rfl) hstands hsub hbusy
    hasking
  freed := h.freed.advance rfl rfl rfl (fun _ _ => rfl) (fun _ _ => id) (fun _ _ => Or.inl)

omit [DecidableEq File] in
theorem mem_record_iff {fdAlloc : Bool} {reply : Except Errno SnapReply} {i' : Nat}
    (hii : i' ≠ i) (e : SnapEvent File) :
    (i', e) ∈ s.history ++ [(i, event r fdAlloc reply)] ↔ (i', e) ∈ s.history := by
  rw [List.mem_append, List.mem_singleton, Prod.mk.injEq]
  exact or_iff_left fun heq => hii heq.1

/-- A call that finds no state, or may not call, takes effect at once. -/
theorem Inv.recordGoOn (h : s.Inv) (hr : s.requests[i]? = some r) {stage : SnapStage}
    {reply : Except Errno SnapReply} (hfresh : s.Fresh i) (hlive : r.stage.isReturned = false)
    (hcall : acIoctlSnap r.capable (r.call.withAlloc true) (s.spec.files r.file) =
      (reply, s.spec.files r.file))
    (hstands : ((s.record i r true reply).goOn i r stage).Stands i { r with stage := stage })
    (hsub : stage.sub = none) (hfree : r.stage.sub = none) :
    ((s.record i r true reply).goOn i r stage).Inv where
  fd := h.fd
  locks := h.locks
  linear := by
    refine h.linear.record hr hfresh rfl (keepsCalls_set hr rfl) ?_ ?_
      (fun _ _ => rfl) h.linear.untouched
    · rw [hcall]
    · rw [hcall]
      exact h.linear.agrees r.file
  running := h.running.goOn hr rfl rfl hlive rfl rfl (fun i' hii e => mem_record_iff hii e)
    hstands hsub (fun j c hstage => by rw [hstage] at hfree; cases hfree)
    (fun j c hstage => by rw [hstage] at hfree; cases hfree)
  freed := h.freed.advance rfl rfl rfl (fun _ _ => rfl) (fun _ _ => id) (fun _ _ => Or.inl)

/-- A call that knows a pointer knows that of its file, and has not taken effect. -/
theorem Inv.points (h : s.Inv) (hr : s.requests[i]? = some r) {st : Nat} (hp : s.Points r st) :
    s.fd.privateData r.file = some st ∧ r.capable = true ∧ s.Fresh i ∧
      r.stage.isReturned = false ∧ (∀ j, r.stage ≠ .locked j) ∧
      ∀ (j : Nat) (c : FdCall File), r.stage = .getState j → s.fd.calls[j]? = some c →
        c.phase.isReturned = true := by
  have hstands := h.running.stands i r hr
  unfold Stands at hstands
  rcases hp with ⟨hstage, -, hdata⟩ | ⟨hstage, -⟩ | ⟨j, c, hstage, hc, hphase⟩
  · rw [hstage] at hstands
    exact ⟨hdata, hstands.2.1, hstands.1, by rw [hstage]; rfl, by simp [hstage], by simp [hstage]⟩
  · rw [hstage] at hstands
    exact ⟨hstands.2.2.2, hstands.2.1, hstands.1, by rw [hstage]; rfl, by simp [hstage],
      by simp [hstage]⟩
  · rw [hstage] at hstands
    rcases hstands with ⟨hcapable, -, c', hc', hfile, hfresh⟩
    rw [hc, Option.some.injEq] at hc'
    subst hc'
    have hknows := h.fd.knows j c hc
    rw [FdSystem.Knows, hphase] at hknows
    rw [hphase] at hfresh
    rw [← hfile]
    refine ⟨hknows st rfl, hcapable, hfresh, by rw [hstage]; rfl, by simp [hstage], ?_⟩
    intro j' c' hstage' hc'
    rw [hstage] at hstage'
    cases hstage'
    rw [hc, Option.some.injEq] at hc'
    rw [← hc', hphase]
    rfl

theorem Inv.waits (h : s.Inv) (hr : s.requests[i]? = some r) {st : Nat} {locks : SnapLocks}
    (hp : s.Points r st)
    (hstep : s.locks.step snapCode (.enter st (r.call.withAlloc true)) = some locks) :
    ((s.withLocks locks).goOn i r (.locked s.locks.calls.length)).Inv := by
  rcases h.points hr hp with ⟨hdata, hcapable, hfresh, hlive, hnot, hreturned⟩
  have hlocks := h.locks.step hstep
  have heq : locks = { s.locks with
      calls := s.locks.calls ++ [⟨st, r.call.withAlloc true, .waiting⟩] } := by
    have halive := h.alive hdata (h.running.opened i r hr hlive)
    simpa [LockedObjects.System.step, halive] using hstep.symm
  subst heq
  refine ⟨h.fd, hlocks,
    h.linear.silent rfl (keepsCalls_set hr rfl) h.linear.agrees h.linear.untouched,
    ?_, h.freed.advance rfl rfl rfl (fun _ _ => rfl) (fun _ _ => id) (fun _ _ => Or.inl)⟩
  refine h.running.advance hr rfl rfl hlive (fun _ _ => id) (fun _ _ _ => id) ?_
    (fun _ _ _ => Iff.rfl) ?_ ?_ ?_ ?_
  · intro j c _ hc
    change (s.locks.calls ++ [_])[j]? = some c
    rw [List.getElem?_append_left (List.getElem?_eq_some_iff.1 hc).1]
    exact hc
  · exact ⟨hcapable, _, List.getElem?_concat_length, hdata, rfl, hfresh⟩
  · -- no other call is in the call on the state that is only made now
    rintro k ⟨⟩
    refine Or.inr fun i' r' hr' hsub => ?_
    have hstands := h.running.stands i' r' hr'
    unfold Stands at hstands
    cases hstage : r'.stage with
    | locked j =>
        rw [hstage] at hsub hstands
        rcases hstands with ⟨-, c, hc, -⟩
        cases hsub
        rw [List.getElem?_eq_none (Nat.le_refl _)] at hc
        cases hc
    | entry | load | copyIn _ | getState _ | copyOut _ | returned _ =>
        rw [hstage] at hsub
        cases hsub
  · intro j c hc _
    change (s.locks.calls ++ [_])[j]? = some c at hc
    by_cases hj : j < s.locks.calls.length
    · rw [List.getElem?_append_left hj] at hc
      exact Or.inr ⟨hnot j, hc⟩
    · have hlast := (List.getElem?_eq_some_iff.1 hc).1
      rw [List.length_append, List.length_singleton] at hlast
      left
      rw [show j = s.locks.calls.length by omega]
  · intro j c hc hphase
    refine Or.inr ⟨fun hstage => ?_, hc⟩
    rw [hreturned j c hstage hc] at hphase
    cases hphase

theorem Inv.asks (h : s.Inv) (hr : s.requests[i]? = some r) {fd : FdSystem File}
    (hcapable : r.capable = true) (hbegin : r.call.isBegin = true) (hfresh : s.Fresh i)
    (hlive : r.stage.isReturned = false) (hfree : r.stage.sub = none)
    (hstep : s.fd.step (.enter r.file) = some fd) :
    ((s.withFd fd).goOn i r (.getState s.fd.calls.length)).Inv := by
  have hfd := h.fd.step hstep
  cases hstep
  refine ⟨hfd, h.locks,
    h.linear.silent rfl (keepsCalls_set hr rfl) h.linear.agrees h.linear.untouched,
    ?_, h.freed.advance rfl rfl rfl (fun _ _ => rfl) (fun _ _ => id) (fun _ _ => Or.inl)⟩
  refine h.running.advance hr rfl rfl hlive (fun _ _ => id) ?_ (fun _ _ _ => id)
    (fun _ _ _ => Iff.rfl) ?_ ?_ ?_ ?_
  · intro j c _ hc
    change (s.fd.calls ++ [_])[j]? = some c
    rw [List.getElem?_append_left (List.getElem?_eq_some_iff.1 hc).1]
    exact hc
  · exact ⟨hcapable, hbegin, _, List.getElem?_concat_length, rfl, hfresh⟩
  · rintro k ⟨⟩
    refine Or.inr fun i' r' hr' hsub => ?_
    have hstands := h.running.stands i' r' hr'
    unfold Stands at hstands
    cases hstage : r'.stage with
    | getState j =>
        rw [hstage] at hsub hstands
        rcases hstands with ⟨-, -, c, hc, -⟩
        cases hsub
        rw [List.getElem?_eq_none (Nat.le_refl _)] at hc
        cases hc
    | entry | load | copyIn _ | locked _ | copyOut _ | returned _ =>
        rw [hstage] at hsub
        cases hsub
  · intro j c hc _
    refine Or.inr ⟨fun hstage => ?_, hc⟩
    rw [hstage] at hfree
    cases hfree
  · intro j c hc _
    change (s.fd.calls ++ [_])[j]? = some c at hc
    by_cases hj : j < s.fd.calls.length
    · rw [List.getElem?_append_left hj] at hc
      refine Or.inr ⟨fun hstage => ?_, hc⟩
      rw [hstage] at hfree
      cases hfree
    · have hlast := (List.getElem?_eq_some_iff.1 hc).1
      rw [List.length_append, List.length_singleton] at hlast
      left
      rw [show j = s.fd.calls.length by omega]

omit [DecidableEq File] in
theorem set_stage_self (hr : s.requests[i]? = some r) :
    s.requests = s.requests.set i { r with stage := r.stage } := by
  rcases List.getElem?_eq_some_iff.1 hr with ⟨hi, rfl⟩
  exact (List.set_getElem_self hi).symm

/-- A step inside `ac_get_fd_state`, which fails or not. -/
theorem Inv.fdWorks (h : s.Inv) (hr : s.requests[i]? = some r) {j : Nat} {c : FdCall File}
    {fd : FdSystem File} {ok : Bool} (hstage : r.stage = .getState j)
    (hc : s.fd.calls[j]? = some c) (hnot : ¬ (c.phase = .kzalloc ∧ ok = false))
    (hstep : s.fd.step (.advance j ok) = some fd) : (s.withFd fd).Inv := by
  have hi := (List.getElem?_eq_some_iff.1 hc).1
  have hstands := h.running.stands i r hr
  rw [Stands, hstage] at hstands
  rcases hstands with ⟨hcapable, hbegin, c', hc', hfile, hphase⟩
  rw [hc, Option.some.injEq] at hc'
  subst hc'
  have hopened := h.running.opened i r hr (by rw [hstage]; rfl)
  rcases fdAdvance h.fd hc hstep with ⟨phase, hcalls, hfailed, hdata⟩
  have hsame : phase.failed = c.phase.failed := by
    rw [Bool.eq_iff_iff, hfailed]
    exact or_iff_left hnot
  have hgrows : ∀ f st, s.fd.privateData f = some st → fd.privateData f = some st := by
    intro f st hf
    rcases hdata with hdata | ⟨st', habsent, -, hdata⟩
    · rw [hdata]
      exact hf
    · rw [hdata, Function.update_of_ne]
      · exact hf
      · rintro rfl
        rw [habsent] at hf
        cases hf
  refine ⟨h.fd.step hstep, h.locks, ?_, ?_, ?_⟩
  · refine h.linear.silent rfl (keepsCalls_refl rfl) ?_ ?_
    · intro f
      have hold := h.linear.agrees f
      rcases hdata with hdata | ⟨st, habsent, hunused, hdata⟩
      · change Agrees _ ((fd.privateData f).map _)
        rw [hdata]
        exact hold
      · change Agrees _ ((fd.privateData f).map fun st => (s.locks.saved st).view)
        rw [hdata]
        by_cases hf : f = c.file
        · subst hf
          rw [contents, habsent] at hold
          rw [Function.update_self, Option.map_some, h.linear.untouched st hunused]
          exact Or.inr ⟨hold.eq_none, rfl⟩
        · rw [Function.update_of_ne hf]
          exact hold
    · intro st hst
      exact h.linear.untouched st fun f hf => hst f (hgrows f st hf)
  · refine h.running.advance hr (set_stage_self hr) rfl (by rw [hstage]; rfl) hgrows ?_
      (fun _ _ _ => id) (fun _ _ _ => Iff.rfl) ?_ (fun _ => Or.inl) ?_ ?_
    · intro j' c' hne hc'
      change fd.calls[j']? = some c'
      rw [hcalls, List.getElem?_set_ne]
      · exact hc'
      · rintro rfl
        exact hne hstage
    · rw [Stands, hstage]
      refine ⟨hcapable, hbegin, { c with phase := phase }, ?_, hfile, ?_⟩
      · change fd.calls[j]? = _
        rw [hcalls, List.getElem?_set_self hi]
      · change if phase.failed = true then _ else _
        rw [hsame]
        exact hphase
    · intro j' c' hc' _
      exact Or.inr ⟨by simp [hstage], hc'⟩
    · intro j' c' hc' _
      change fd.calls[j']? = some c' at hc'
      by_cases hj : j = j'
      · exact Or.inl (by rw [hstage, hj])
      · rw [hcalls, List.getElem?_set_ne hj] at hc'
        refine Or.inr ⟨?_, hc'⟩
        rw [hstage]
        exact fun heq => hj (SnapStage.getState.inj heq)
  · refine h.freed.advance rfl rfl rfl (fun _ _ => rfl) hgrows ?_
    intro f st hf
    change fd.privateData f = some st at hf
    rcases hdata with hdata | ⟨st', habsent, -, hdata⟩
    · rw [hdata] at hf
      exact Or.inl hf
    · rw [hdata] at hf
      by_cases hfc : f = c.file
      · right
        rw [hfc, hfile]
        exact hopened
      · rw [Function.update_of_ne hfc] at hf
        exact Or.inl hf

/-- The allocation of a state fails, and with it the call. -/
theorem Inv.fdFails (h : s.Inv) (hr : s.requests[i]? = some r) {j : Nat} {c : FdCall File}
    {fd : FdSystem File} (hstage : r.stage = .getState j) (hc : s.fd.calls[j]? = some c)
    (hkzalloc : c.phase = .kzalloc) (hstep : s.fd.step (.advance j false) = some fd) :
    ((s.withFd fd).record i r false (.error .ENOMEM)).Inv := by
  have hi := (List.getElem?_eq_some_iff.1 hc).1
  have hstands := h.running.stands i r hr
  rw [Stands, hstage] at hstands
  rcases hstands with ⟨hcapable, hbegin, c', hc', hfile, hfresh⟩
  rw [hc, Option.some.injEq] at hc'
  subst hc'
  rw [hkzalloc] at hfresh
  have hknows := h.fd.knows j c hc
  rw [FdSystem.Knows, hkzalloc, hfile] at hknows
  have hfd := h.fd.step hstep
  simp only [FdSystem.step, hc, hkzalloc, Bool.false_eq_true, if_false, Option.some.injEq] at hstep
  subst hstep
  have habsent : s.spec.files r.file = none := by
    have hold := h.linear.agrees r.file
    rw [contents, hknows] at hold
    exact hold.eq_none
  have hcall : acIoctlSnap r.capable (r.call.withAlloc false) (s.spec.files r.file) =
      (.error .ENOMEM, s.spec.files r.file) := by
    rw [hcapable, habsent]
    exact acIoctlSnap_begin hbegin
  refine ⟨hfd, h.locks, ?_, ?_, h.freed.advance rfl rfl rfl (fun _ _ => rfl) (fun _ _ => id)
    (fun _ _ => Or.inl)⟩
  · refine h.linear.record hr hfresh rfl (keepsCalls_refl rfl) ?_ ?_ (fun _ _ => rfl) h.linear.untouched
    · rw [hcall]
    · rw [hcall]
      exact h.linear.agrees r.file
  · refine h.running.advance hr (set_stage_self hr) rfl (by rw [hstage]; rfl) (fun _ _ => id) ?_
      (fun _ _ _ => id) (fun i' hii e => mem_record_iff hii e) ?_ (fun _ => Or.inl) ?_ ?_
    · intro j' c' hne hc'
      change (s.fd.calls.set j _)[j']? = some c'
      rw [List.getElem?_set_ne]
      · exact hc'
      · rintro rfl
        exact hne hstage
    · rw [Stands, hstage]
      exact ⟨hcapable, hbegin, _, List.getElem?_set_self hi, hfile, false, List.mem_concat_self⟩
    · intro j' c' hc' _
      exact Or.inr ⟨by simp [hstage], hc'⟩
    · intro j' c' hc' _
      change (s.fd.calls.set j _)[j']? = some c' at hc'
      by_cases hj : j = j'
      · exact Or.inl (by rw [hstage, hj])
      · rw [List.getElem?_set_ne hj] at hc'
        refine Or.inr ⟨?_, hc'⟩
        rw [hstage]
        exact fun heq => hj (SnapStage.getState.inj heq)

/-- A statement under the lock, or the taking of the lock. -/
theorem Inv.works (h : s.Inv) (hr : s.requests[i]? = some r) {j : Nat} {c : SnapLockCall}
    {locks : SnapLocks} (hstage : r.stage = .locked j) (hc : s.locks.calls[j]? = some c)
    (hnot : ∀ place, c.phase = .inside place → place.result = none)
    (hstep : s.locks.step snapCode (.advance j) = some locks) : (s.withLocks locks).Inv := by
  have hi := (List.getElem?_eq_some_iff.1 hc).1
  have hstands := h.running.stands i r hr
  rw [Stands, hstage] at hstands
  rcases hstands with ⟨hcapable, c', hc', hfile, hop, hphase⟩
  rw [hc, Option.some.injEq] at hc'
  subst hc'
  have hfacts : ∃ place, locks.calls = s.locks.calls.set j { c with phase := .inside place } ∧
      locks.saved = s.locks.saved ∧ locks.disposed = s.locks.disposed ∧
      (∀ st, st ≠ c.object → locks.data st = s.locks.data st) ∧ s.Fresh i := by
    rcases LockedObjects.System.step_cases hstep with ⟨o, op, hl, -⟩ | ⟨j', c', hl, hc', hmove⟩ |
      ⟨o, hl, -⟩
    · cases hl
    · cases hl
      rw [hc, Option.some.injEq] at hc'
      subst hc'
      cases hmove with
      | locks hwaiting hfree =>
          rw [hwaiting] at hphase
          exact ⟨_, rfl, rfl, rfl, fun _ _ => rfl, hphase⟩
      | works hinside hgoes =>
          rw [hinside] at hphase
          exact ⟨_, rfl, rfl, rfl, fun st hst => Function.update_of_ne hst .., hphase⟩
      | unlocks hinside hover =>
          have hgoes : SnapPlace.result _ = some _ := hover
          rw [hnot _ hinside] at hgoes
          cases hgoes
    · cases hl
  rcases hfacts with ⟨place, hcalls, hsaved, hdisposed, hmemory, hfresh⟩
  have halive := h.alive hfile (h.running.opened i r hr (by rw [hstage]; rfl))
  refine ⟨h.fd, h.locks.step hstep, ?_, ?_, ?_⟩
  · refine h.linear.silent rfl (keepsCalls_refl rfl) ?_ ?_
    · intro f
      change Agrees _ ((s.fd.privateData f).map fun st => (locks.saved st).view)
      rw [hsaved]
      exact h.linear.agrees f
    · intro st hst
      change locks.saved st = {}
      rw [hsaved]
      exact h.linear.untouched st hst
  · refine h.running.advance hr (set_stage_self hr) rfl (by rw [hstage]; rfl) (fun _ _ => id)
      (fun _ _ _ => id) ?_ (fun _ _ _ => Iff.rfl) ?_ (fun _ => Or.inl) ?_
      (fun j' c' hc' _ => Or.inr ⟨by simp [hstage], hc'⟩)
    · intro j' c' hne hc'
      change locks.calls[j']? = some c'
      rw [hcalls, List.getElem?_set_ne]
      · exact hc'
      · rintro rfl
        exact hne hstage
    · rw [Stands, hstage]
      refine ⟨hcapable, { c with phase := .inside place }, ?_, hfile, hop, hfresh⟩
      change locks.calls[j]? = _
      rw [hcalls, List.getElem?_set_self hi]
    · intro j' c' hc' _
      change locks.calls[j']? = some c' at hc'
      by_cases hj : j = j'
      · exact Or.inl (by rw [hstage, hj])
      · rw [hcalls, List.getElem?_set_ne hj] at hc'
        refine Or.inr ⟨?_, hc'⟩
        rw [hstage]
        exact fun heq => hj (SnapStage.locked.inj heq)
  · refine h.freed.advance rfl rfl hdisposed ?_ (fun _ _ => id) (fun _ _ => Or.inl)
    intro st hst
    refine hmemory st ?_
    rintro rfl
    rw [halive] at hst
    cases hst

/-- The call releases the lock: it takes effect. -/
theorem Inv.commits (h : s.Inv) (hr : s.requests[i]? = some r) {j : Nat} {c : SnapLockCall}
    {locks : SnapLocks} {place : SnapPlace} {reply : Except Errno SnapReply}
    (hstage : r.stage = .locked j) (hc : s.locks.calls[j]? = some c)
    (hinside : c.phase = .inside place) (hresult : place.result = some reply)
    (hstep : s.locks.step snapCode (.advance j) = some locks) :
    ((s.withLocks locks).record i r true reply).Inv := by
  have hi := (List.getElem?_eq_some_iff.1 hc).1
  have hstands := h.running.stands i r hr
  rw [Stands, hstage] at hstands
  rcases hstands with ⟨hcapable, c', hc', hfile, hop, hphase⟩
  rw [hc, Option.some.injEq] at hc'
  subst hc'
  rw [hinside] at hphase
  have hcommits := h.locks.commits hc hinside hresult
  have hlocks := h.locks.step hstep
  have heq : locks = (s.locks.release c.object).goOn j c (.returned reply) := by
    have hover : snapCode.result place = some reply := hresult
    simpa [LockedObjects.System.step, hc, hinside, hover] using hstep.symm
  subst heq
  have hagrees : Agrees (s.spec.files r.file) (some (s.locks.saved c.object).view) := by
    have hold := h.linear.agrees r.file
    rwa [contents, hfile] at hold
  have happly := hagrees.apply r.call
  have houtcome : applySnap (r.call.withAlloc true) (s.locks.saved c.object).view =
      (reply, (s.locks.data c.object).view) := by
    rw [← hop]
    exact hcommits
  rw [houtcome] at happly
  refine ⟨h.fd, hlocks, ?_, ?_, h.freed.advance rfl rfl rfl (fun _ _ => rfl) (fun _ _ => id)
    (fun _ _ => Or.inl)⟩
  · refine h.linear.record hr hphase rfl (keepsCalls_refl rfl) ?_ ?_ ?_ ?_
    · rw [hcapable]
      exact happly.1
    · rw [hcapable]
      change Agrees _ ((s.fd.privateData r.file).map fun st =>
        (Function.update s.locks.saved c.object (s.locks.data c.object) st).view)
      rw [hfile, Option.map_some, Function.update_self]
      exact happly.2
    · intro f hf
      change (s.fd.privateData f).map (fun st =>
        (Function.update s.locks.saved c.object (s.locks.data c.object) st).view) = s.contents f
      rw [contents]
      cases hdata : s.fd.privateData f with
      | none => rfl
      | some st =>
          have hne : st ≠ c.object := by
            rintro rfl
            exact hf (file_unique h.fd hdata hfile)
          rw [Option.map_some, Option.map_some, Function.update_of_ne hne]
    · intro st hst
      change Function.update s.locks.saved c.object (s.locks.data c.object) st = {}
      rw [Function.update_of_ne]
      · exact h.linear.untouched st hst
      · rintro rfl
        exact hst r.file hfile
  · refine h.running.advance hr (set_stage_self hr) rfl (by rw [hstage]; rfl) (fun _ _ => id)
      (fun _ _ _ => id) ?_ (fun i' hii e => mem_record_iff hii e) ?_ (fun _ => Or.inl) ?_
      (fun j' c' hc' _ => Or.inr ⟨by simp [hstage], hc'⟩)
    · intro j' c' hne hc'
      change (s.locks.calls.set j _)[j']? = some c'
      rw [List.getElem?_set_ne]
      · exact hc'
      · rintro rfl
        exact hne hstage
    · rw [Stands, hstage]
      exact ⟨hcapable, _, List.getElem?_set_self hi, hfile, hop, true, List.mem_concat_self⟩
    · intro j' c' hc' hunreturned
      change (s.locks.calls.set j _)[j']? = some c' at hc'
      by_cases hj : j = j'
      · exact Or.inl (by rw [hstage, hj])
      · rw [List.getElem?_set_ne hj] at hc'
        refine Or.inr ⟨?_, hc'⟩
        rw [hstage]
        exact fun heq => hj (SnapStage.locked.inj heq)

/-- A call that is in no other call can go on. -/
theorem Inv.goOnFree (h : s.Inv) (hr : s.requests[i]? = some r) {stage : SnapStage}
    (hlive : r.stage.isReturned = false) (hfree : r.stage.sub = none)
    (hstands : s.Stands i { r with stage := stage }) (hsub : stage.sub = none) :
    (s.goOn i r stage).Inv :=
  h.goOn hr hlive hstands hsub (fun j c hstage => by rw [hstage] at hfree; cases hfree)
    (fun j c hstage => by rw [hstage] at hfree; cases hfree)

/-- On a file without a state there is nothing to get and nothing to end. -/
theorem Inv.noContents (h : s.Inv) (hdata : s.fd.privateData r.file = none) :
    s.spec.files r.file = none := by
  have hold := h.linear.agrees r.file
  rw [contents, hdata] at hold
  exact hold.eq_none

/-- A step of a call keeps the invariant. -/
theorem Inv.move (h : s.Inv) (hr : s.requests[i]? = some r) {ok : Bool}
    (hmove : s.Move i r ok s') : s'.Inv := by
  have hstands := h.running.stands i r hr
  unfold Stands at hstands
  cases hmove with
  | refused hstage hcapable =>
      rw [hstage] at hstands
      refine h.recordGoOn hr hstands (by rw [hstage]; rfl) ?_ (Or.inr ⟨true, List.mem_concat_self⟩)
        rfl (by rw [hstage]; rfl)
      rw [hcapable]
      rfl
  | copiesIn hstage hcapable hbegin =>
      rw [hstage] at hstands
      refine h.goOnFree hr (by rw [hstage]; rfl) (by rw [hstage]; rfl) ⟨hcapable, ?_⟩ rfl
      rw [if_pos hbegin]
      exact hstands
  | loads hstage hcapable hbegin =>
      rw [hstage] at hstands
      exact h.goOnFree hr (by rw [hstage]; rfl) (by rw [hstage]; rfl)
        ⟨hstands, hcapable, hbegin⟩ rfl
  | @asks fd st hstage hbegin hstep =>
      rcases hstage with ⟨hstage, hcapable⟩ | hstage
      · rw [hstage] at hstands
        exact h.asks hr hcapable hbegin hstands (by rw [hstage]; rfl) (by rw [hstage]; rfl) hstep
      · rw [hstage] at hstands
        cases st with
        | none =>
            have hfresh := hstands.2
            rw [if_pos hbegin] at hfresh
            exact h.asks hr hstands.1 hbegin hfresh (by rw [hstage]; rfl) (by rw [hstage]; rfl) hstep
        | some st =>
            rw [hstands.2.2.1] at hbegin
            cases hbegin
  | finds hstage hget hdata =>
      rw [hstage] at hstands
      exact h.goOnFree hr (by rw [hstage]; rfl) (by rw [hstage]; rfl)
        ⟨hstands.1, hstands.2.1, hstands.2.2, hdata⟩ rfl
  | misses hstage hget hdata =>
      rw [hstage] at hstands
      refine h.recordGoOn hr hstands.1 (by rw [hstage]; rfl) ?_ ⟨hstands.2.1, ?_⟩ rfl
        (by rw [hstage]; rfl)
      · rw [hstands.2.1, h.noContents hdata]
        exact acIoctlSnap_get hget
      · rw [if_neg (by rw [hstands.2.2]; simp)]
        exact ⟨true, List.mem_concat_self⟩
  | hasNothing hstage hget hdata =>
      rw [hstage] at hstands
      refine h.recordGoOn hr hstands.1 (by rw [hstage]; rfl) ?_
        (Or.inr ⟨true, List.mem_concat_self⟩) rfl (by rw [hstage]; rfl)
      rw [hstands.2.1, h.noContents hdata]
      exact acIoctlSnap_end hget hstands.2.2
  | waits hp hstep => exact h.waits hr hp hstep
  | usesFreed hp hstep =>
      rcases h.points hr hp with ⟨hdata, -, -, hlive, -, -⟩
      have halive := h.alive hdata (h.running.opened i r hr hlive)
      simp [LockedObjects.System.step, halive] at hstep
  | faultsIn hstage =>
      exact h.goOnFree hr (by rw [hstage]; rfl) (by rw [hstage]; rfl) (Or.inl rfl) rfl
  | absent hstage hbegin =>
      rw [hstage] at hstands
      refine h.goOnFree hr (by rw [hstage]; rfl) (by rw [hstage]; rfl) (Or.inr ?_) rfl
      have htook := hstands.2
      rwa [if_neg (by simp [hbegin])] at htook
  | fdWorks hstage hc hnot hstep => exact h.fdWorks hr hstage hc hnot hstep
  | fdFails hstage hc hkzalloc hok hstep =>
      rw [hok] at hstep
      exact h.fdFails hr hstage hc hkzalloc hstep
  | noState hstage hc hphase =>
      rw [hstage] at hstands
      rcases hstands with ⟨-, -, c', hc', -, htook⟩
      rw [hc, Option.some.injEq] at hc'
      rw [← hc', hphase] at htook
      refine h.goOn hr (by rw [hstage]; rfl) (Or.inr htook) rfl (by simp [hstage]) ?_
      intro j' c' hstage' hc'
      rw [hstage] at hstage'
      cases hstage'
      rw [hc, Option.some.injEq] at hc'
      rw [← hc', hphase]
      rfl
  | works hstage hc hnot hstep => exact h.works hr hstage hc hnot hstep
  | commits hstage hc hinside hresult hstep =>
      exact h.commits hr hstage hc hinside hresult hstep
  | @unlocked j c reply hstage hc hphase =>
      rw [hstage] at hstands
      rcases hstands with ⟨-, c', hc', -, -, htook⟩
      rw [hc, Option.some.injEq] at hc'
      rw [← hc', hphase] at htook
      have hdone : ∀ (j' : Nat) (c' : SnapLockCall), r.stage = .locked j' →
          s.locks.calls[j']? = some c' → c'.phase.isReturned = true := by
        intro j' c' hstage' hc'
        rw [hstage] at hstage'
        cases hstage'
        rw [hc, Option.some.injEq] at hc'
        rw [← hc', hphase]
        rfl
      have hnone : ∀ (j' : Nat) (c' : FdCall File), r.stage = .getState j' →
          s.fd.calls[j']? = some c' → c'.phase.isReturned = true := by simp [hstage]
      rcases reply with e | reply
      · exact h.goOn hr (by rw [hstage]; rfl) (Or.inr htook) rfl hdone hnone
      · cases reply with
        | done => exact h.goOn hr (by rw [hstage]; rfl) (Or.inr htook) rfl hdone hnone
        | scanBegun b => exact h.goOn hr (by rw [hstage]; rfl) htook rfl hdone hnone
        | vma v => exact h.goOn hr (by rw [hstage]; rfl) htook rfl hdone hnone
        | modsBegun count => exact h.goOn hr (by rw [hstage]; rfl) htook rfl hdone hnone
        | mod m => exact h.goOn hr (by rw [hstage]; rfl) htook rfl hdone hnone
  | copiesOut hstage =>
      rw [hstage] at hstands
      refine h.goOnFree hr (by rw [hstage]; rfl) (by rw [hstage]; rfl) ?_ rfl
      cases ok with
      | false => exact Or.inl rfl
      | true => exact Or.inr hstands

theorem Inv.openFile (h : s.Inv) {f : File} (hunopened : s.fileStage f = .unopened) :
    Inv { s with fileStage := Function.update s.fileStage f .opened } := by
  refine ⟨h.fd, h.locks,
    h.linear.silent rfl (keepsCalls_refl rfl) h.linear.agrees h.linear.untouched, ?_, ?_⟩
  · refine ⟨h.running.stands, h.running.owner, h.running.busy, h.running.asking, ?_⟩
    intro i r hr hlive
    have hopened := h.running.opened i r hr hlive
    change Function.update s.fileStage f .opened r.file = .opened
    by_cases hf : r.file = f
    · rw [hf, Function.update_self]
    · rw [Function.update_of_ne hf]
      exact hopened
  · have hreleased : ∀ f', Function.update s.fileStage f .opened f' = .released ↔
        s.fileStage f' = .released := by
      intro f'
      by_cases hf : f' = f
      · rw [hf, Function.update_self, hunopened]
        simp
      · rw [Function.update_of_ne hf]
    refine ⟨?_, ?_, h.freed.clean, h.freed.unfaulted⟩
    · intro st hst
      rcases h.freed.disposed st hst with ⟨f', hf', hstage⟩
      exact ⟨f', hf', (hreleased f').2 hstage⟩
    · intro f' st hstage hf'
      exact h.freed.released f' st ((hreleased f').1 hstage) hf'

theorem Inv.enter (h : s.Inv) {f : File} (hopened : s.fileStage f = .opened) (capable : Bool)
    (call : SnapCall) :
    Inv { s with requests := s.requests ++ [⟨f, capable, call, .entry⟩] } := by
  have hcases : ∀ {i : Nat} {r : SnapRequest File},
      (s.requests ++ [⟨f, capable, call, .entry⟩])[i]? = some r →
      s.requests[i]? = some r ∨ (i = s.requests.length ∧ r = ⟨f, capable, call, .entry⟩) := by
    intro i r hr
    by_cases hi : i < s.requests.length
    · rw [List.getElem?_append_left hi] at hr
      exact Or.inl hr
    · have hlast := (List.getElem?_eq_some_iff.1 hr).1
      rw [List.length_append, List.length_singleton] at hlast
      have heq : i = s.requests.length := by omega
      rw [heq, List.getElem?_concat_length, Option.some.injEq] at hr
      exact Or.inr ⟨heq, hr.symm⟩
  have hstill : ∀ {i : Nat} {r : SnapRequest File}, s.requests[i]? = some r →
      (s.requests ++ [⟨f, capable, call, .entry⟩])[i]? = some r := by
    intro i r hr
    rw [List.getElem?_append_left (List.getElem?_eq_some_iff.1 hr).1]
    exact hr
  have hkeeps : s.KeepsCalls { s with requests := s.requests ++ [⟨f, capable, call, .entry⟩] } :=
    fun i r hr => ⟨r.stage, hstill hr⟩
  refine ⟨h.fd, h.locks, h.linear.silent rfl hkeeps h.linear.agrees h.linear.untouched, ?_,
    h.freed.advance rfl rfl rfl (fun _ _ => rfl) (fun _ _ => id) (fun _ _ => Or.inl)⟩
  refine ⟨?_, ?_, ?_, ?_, ?_⟩
  · intro i r hr
    rcases hcases hr with hr | ⟨rfl, rfl⟩
    · exact (h.running.stands i r hr).frame (fun _ _ => id) (fun _ _ _ => id) (fun _ _ _ => id)
        (fun _ => Iff.rfl)
    · -- the record is about earlier calls
      intro e he
      rcases h.linear.own _ he with ⟨r', -, -, hr', -⟩
      rw [List.getElem?_eq_none (Nat.le_refl _)] at hr'
      cases hr'
  · intro i i' r r' k hr hr' hk hk'
    rcases hcases hr with hr | ⟨rfl, rfl⟩
    · rcases hcases hr' with hr' | ⟨rfl, rfl⟩
      · exact h.running.owner i i' r r' k hr hr' hk hk'
      · cases hk'
    · cases hk
  · intro j c hc hphase
    rcases h.running.busy j c hc hphase with ⟨i, r, hr, hstage⟩
    exact ⟨i, r, hstill hr, hstage⟩
  · intro j c hc hphase
    rcases h.running.asking j c hc hphase with ⟨i, r, hr, hstage⟩
    exact ⟨i, r, hstill hr, hstage⟩
  · intro i r hr hlive
    rcases hcases hr with hr | ⟨rfl, rfl⟩
    · exact h.running.opened i r hr hlive
    · exact hopened

omit [DecidableEq File] in
theorem unused_iff [DecidableEq File] {f : File} :
    s.unused f = true ↔ ∀ r ∈ s.requests, r.file = f → r.stage.isReturned = true := by
  simp only [unused, List.all_eq_true, Bool.or_eq_true, decide_eq_true_eq]
  exact forall₂_congr fun r _ => by rw [ne_eq, imp_iff_not_or]

/-- `ac_release` finds the state of the file unlocked, and frees it. -/
theorem Inv.releaseFile (h : s.Inv) {f : File} (hopened : s.fileStage f = .opened)
    (hunused : s.unused f = true) : (s.releaseFile f).Inv := by
  rw [unused_iff] at hunused
  have hstages : ∀ (i : Nat) (r : SnapRequest File), s.requests[i]? = some r →
      r.stage.isReturned = false →
      Function.update s.fileStage f .released r.file = .opened := by
    intro i r hr hlive
    rw [Function.update_of_ne]
    · exact h.running.opened i r hr hlive
    · intro hf
      rw [hunused r (List.mem_of_getElem? hr) hf] at hlive
      cases hlive
  have hreleased : ∀ f', f' ≠ f → Function.update s.fileStage f .released f' = .released →
      s.fileStage f' = .released := by
    intro f' hf hstage
    rwa [Function.update_of_ne hf] at hstage
  have hstill : ∀ f', s.fileStage f' = .released →
      Function.update s.fileStage f .released f' = .released := by
    intro f' hstage
    by_cases hf : f' = f
    · rw [hf, Function.update_self]
    · rwa [Function.update_of_ne hf]
  unfold SnapSystem.releaseFile
  cases hdata : s.fd.privateData f with
  | none =>
      refine ⟨h.fd, h.locks,
        h.linear.silent rfl (keepsCalls_refl rfl) h.linear.agrees h.linear.untouched,
        ⟨h.running.stands, h.running.owner, h.running.busy, h.running.asking, hstages⟩,
        ⟨?_, ?_, h.freed.clean, h.freed.unfaulted⟩⟩
      · intro st hst
        rcases h.freed.disposed st hst with ⟨f', hf', hstage⟩
        exact ⟨f', hf', hstill f' hstage⟩
      · intro f' st hstage hf'
        have hne : f' ≠ f := by
          rintro rfl
          change s.fd.privateData f' = some st at hf'
          rw [hdata] at hf'
          cases hf'
        exact h.freed.released f' st (hreleased f' hne hstage) hf'
  | some st =>
      have hidle : s.locks.idle st = true := by
        rw [LockedObjects.System.idle_iff]
        intro c hc hobject
        by_contra hlive
        rcases List.getElem?_of_mem hc with ⟨j, hj⟩
        rcases h.running.busy j c hj (by simpa using hlive) with ⟨i, r, hr, hstage⟩
        have hstands := h.running.stands i r hr
        rw [Stands, hstage] at hstands
        rcases hstands with ⟨-, c', hc', hfile, -⟩
        rw [hj, Option.some.injEq] at hc'
        rw [← hc', hobject] at hfile
        have hreturned := hunused r (List.mem_of_getElem? hr) (file_unique h.fd hfile hdata)
        rw [hstage] at hreturned
        cases hreturned
      have halive := h.alive hdata hopened
      have hstep : s.locks.step snapCode (.dispose st) = some (s.locks.dispose snapCode st) := by
        simp [LockedObjects.System.step, hidle, halive]
      simp only [hstep]
      have hgood : (s.locks.data st).Good := by
        refine (h.locks.free st halive ?_).1
        by_contra hlocked
        rcases Option.ne_none_iff_exists'.1 hlocked with ⟨j, hj⟩
        rcases h.locks.held st j hj with ⟨c, place, hc, hobject, hinside⟩
        have hreturned := LockedObjects.System.idle_iff.1 hidle c (List.mem_of_getElem? hc) hobject
        rw [hinside] at hreturned
        cases hreturned
      refine ⟨h.fd, h.locks.step hstep,
        h.linear.silent rfl (keepsCalls_refl rfl) h.linear.agrees h.linear.untouched,
        ⟨fun i r hr => (h.running.stands i r hr).frame (fun _ _ => id) (fun _ _ _ => id)
          (fun _ _ _ => id) (fun _ => Iff.rfl), h.running.owner, h.running.busy,
          h.running.asking, hstages⟩,
        ⟨?_, ?_, ?_, h.freed.unfaulted⟩⟩
      · intro st' hst'
        change Function.update s.locks.disposed st true st' = true at hst'
        by_cases hst : st' = st
        · rw [hst]
          exact ⟨f, hdata, Function.update_self ..⟩
        · rw [Function.update_of_ne hst] at hst'
          rcases h.freed.disposed st' hst' with ⟨f', hf', hstage⟩
          exact ⟨f', hf', hstill f' hstage⟩
      · intro f' st' hstage hf'
        change Function.update s.locks.disposed st true st' = true
        by_cases hst : st' = st
        · rw [hst, Function.update_self]
        · rw [Function.update_of_ne hst]
          refine h.freed.released f' st' (hreleased f' ?_ hstage) hf'
          rintro rfl
          change s.fd.privateData f' = some st' at hf'
          rw [hdata, Option.some.injEq] at hf'
          exact hst hf'.symm
      · intro st' hst'
        change Function.update s.locks.disposed st true st' = true at hst'
        change (Function.update s.locks.data st (acFreeFdState (s.locks.data st)) st').faulted =
          false ∧ ∀ b, (Function.update s.locks.data st (acFreeFdState (s.locks.data st))
            st').isLive b = false
        by_cases hst : st' = st
        · rw [hst, Function.update_self]
          exact hgood.dispose
        · rw [Function.update_of_ne hst] at hst' ⊢
          exact h.freed.clean st' hst'

/-- Every step keeps the invariant. -/
theorem Inv.step (h : s.Inv) {l : SnapStep File} (hstep : s.step l = some s') : s'.Inv := by
  rcases step_cases hstep with ⟨f, capable, -, hunopened, rfl⟩ |
    ⟨f, capable, call, -, hopened, rfl⟩ | ⟨i, ok, r, -, hr, hmove⟩ |
    ⟨f, -, hopened, hunused, rfl⟩
  · exact h.openFile hunopened
  · exact h.enter hopened capable call
  · exact h.move hr hmove
  · exact h.releaseFile hopened hunused

/-! ## Runs -/

/-- The record only grows. -/
theorem history_grows {l : SnapStep File} (hstep : s.step l = some s') :
    s.history <+: s'.history ∧ s.requests.length ≤ s'.requests.length := by
  rcases step_cases hstep with ⟨f, capable, -, -, rfl⟩ | ⟨f, capable, call, -, -, rfl⟩ |
    ⟨i, ok, r, -, -, hmove⟩ | ⟨f, -, -, -, rfl⟩
  · exact ⟨List.prefix_rfl, Nat.le_refl _⟩
  · exact ⟨List.prefix_rfl, by simp⟩
  · cases hmove <;> simp [SnapSystem.goOn, SnapSystem.record, withFd, withLocks]
  · unfold SnapSystem.releaseFile
    split
    · exact ⟨List.prefix_rfl, Nat.le_refl _⟩
    · split
      · exact ⟨List.prefix_rfl, Nat.le_refl _⟩
      · exact ⟨List.prefix_rfl, Nat.le_refl _⟩

theorem history_grows_run {steps : List (SnapStep File)}
    (hrun : StepRun.run step s steps = some s') :
    s.history <+: s'.history ∧ s.requests.length ≤ s'.requests.length := by
  induction steps generalizing s with
  | nil =>
      cases hrun
      exact ⟨List.prefix_rfl, Nat.le_refl _⟩
  | cons l steps ih =>
      rcases StepRun.run_cons_some hrun with ⟨s₁, hstep, hrest⟩
      have hfirst := history_grows hstep
      have hlater := ih hrest
      exact ⟨hfirst.1.trans hlater.1, hfirst.2.trans hlater.2⟩

theorem inv_always (steps : List (SnapStep File)) :
    StepRun.Always step Inv (initial : SnapSystem File) steps :=
  StepRun.always_of_step (fun _ _ _ h hstep => h.step hstep) inv_initial steps

end

/-- The calls answer as if they ran one after another, in the order of the record. -/
structure Linearized (s : SnapSystem File) : Prop where
  replay : (snapRun (s.history.map fun e => (e.2.file, e.2.capable, e.2.call))).trace =
    s.history.map Prod.snd
  /-- no call takes effect twice -/
  once : (s.history.map Prod.fst).Nodup
  /-- a call takes effect as the call that was made -/
  own : ∀ i e, (i, e) ∈ s.history → ∃ r fdAlloc, s.requests[i]? = some r ∧
    e.file = r.file ∧ e.capable = r.capable ∧ e.call = r.call.withAlloc fdAlloc
  /-- a call has taken effect when it returns, with the answer that it returns, unless its
  argument or its answer could not be copied -/
  returned : ∀ (i : Nat) (r : SnapRequest File) (reply : Except Errno SnapReply),
    s.requests[i]? = some r → r.stage = .returned reply → reply ≠ .error .EFAULT →
    ∃ e, (i, e) ∈ s.history ∧ e.reply = reply

theorem Inv.linearized {s : SnapSystem File} (h : s.Inv) : s.Linearized where
  replay := h.linear.replay
  once := h.linear.once
  own := by
    intro i e he
    rcases h.linear.own _ he with ⟨r, fdAlloc, reply, hr, rfl⟩
    exact ⟨r, fdAlloc, hr, rfl, rfl, rfl⟩
  returned := by
    intro i r reply hr hstage hreply
    have hstands := h.running.stands i r hr
    rw [Stands, hstage] at hstands
    rcases hstands with hfault | ⟨fdAlloc, he⟩
    · exact absurd hfault hreply
    · exact ⟨_, he, rfl⟩

/-- A call that returned before another one was made takes effect before it. -/
def KeepsOrder (before after : List (SnapStep File)) : Prop :=
  ∀ s₁ s₂ : SnapSystem File, StepRun.run step initial before = some s₁ →
    StepRun.run step s₁ after = some s₂ →
    ∀ (i j : Nat) (r : SnapRequest File) (reply : Except Errno SnapReply) (e : SnapEvent File),
      s₁.requests[i]? = some r → r.stage = .returned reply → reply ≠ .error .EFAULT →
      s₁.requests.length ≤ j → (j, e) ∈ s₂.history →
      ∃ early late, s₂.history = early ++ late ∧ i ∈ early.map Prod.fst ∧ (j, e) ∈ late

theorem keepsOrder (before after : List (SnapStep File)) : KeepsOrder before after := by
  intro s₁ s₂ hbefore hafter i j r reply e hr hstage hreply hj he
  have hinv : s₁.Inv :=
    (StepRun.always_iff_initial _ _ _ _).1 (inv_always before) before s₁ List.prefix_rfl hbefore
  rcases (history_grows_run hafter).1 with ⟨late, hlate⟩
  refine ⟨s₁.history, late, hlate.symm, ?_, ?_⟩
  · rcases hinv.linearized.returned i r reply hr hstage hreply with ⟨e', he', -⟩
    exact List.mem_map.2 ⟨_, he', rfl⟩
  · rw [← hlate] at he
    rcases List.mem_append.1 he with he | he
    · rcases hinv.linearized.own j e he with ⟨r', -, hr', -⟩
      exact absurd (List.getElem?_eq_some_iff.1 hr').1 (Nat.not_lt.2 hj)
    · exact he

end SnapSystem

open SnapSystem in
/-- Over every interleaving of any calls of the snapshot ioctls on any files, with first uses
and releases of files in between: the calls answer what they would have answered one after
another, each taking effect at some moment between its start and its end. -/
theorem snapshot_calls_linearize [DecidableEq File] (steps : List (SnapStep File)) :
    StepRun.Always SnapSystem.step Linearized (initial : SnapSystem File) steps ∧
      ∀ k, KeepsOrder (steps.take k) (steps.drop k) := by
  constructor
  · exact StepRun.Always.mono (fun s h => h.linearized) (inv_always steps)
  · intro k
    exact keepsOrder _ _

/-- The memory of the states and their arrays. -/
structure SnapSystem.MemorySafe (s : SnapSystem File) : Prop where
  /-- nothing was used that was not allocated, and nothing was freed twice -/
  unfaulted : s.faulted = false ∧ ∀ st, (s.locks.data st).faulted = false
  /-- an array that is allocated is one that a state points to -/
  owned : ∀ st b, (s.locks.data st).isLive b = true → s.locks.disposed st = false ∧
    ((s.locks.data st).vmas = some b ∨ (s.locks.data st).mods = some b)
  /-- a state that was allocated belongs to a file, or to a call that is about to store it -/
  reachable : ∀ st < s.fd.heap.length, (∃ f, s.fd.privateData f = some st) ∨
    ∃ call ∈ s.fd.calls, call.phase.unpublished = some st
  /-- a file that has been released has left nothing behind -/
  released : ∀ f st, s.fileStage f = .released → s.fd.privateData f = some st →
    s.locks.disposed st = true ∧ ∀ b, (s.locks.data st).isLive b = false
  /-- and the state of no other file has been freed -/
  kept : ∀ f st, s.fileStage f = .opened → s.fd.privateData f = some st →
    s.locks.disposed st = false

theorem SnapSystem.Inv.sound [DecidableEq File] {s : SnapSystem File} (h : s.Inv) {st : Nat}
    (hlive : s.locks.disposed st = false) : (s.locks.data st).Sound := by
  cases hlock : s.locks.lock st with
  | none => exact (h.locks.free st hlive hlock).1.toSound
  | some j =>
      rcases h.locks.held st j hlock with ⟨c, place, hc, hobject, hinside⟩
      have hat := (h.locks.within j c place hc hinside).1
      rw [hobject] at hat
      exact SnapPlace.At.sound hat

theorem SnapSystem.Inv.memorySafe [DecidableEq File] {s : SnapSystem File} (h : s.Inv) :
    s.MemorySafe where
  unfaulted := by
    refine ⟨h.freed.unfaulted, ?_⟩
    intro st
    cases hdisposed : s.locks.disposed st with
    | true => exact (h.freed.clean st hdisposed).1
    | false => exact (h.sound hdisposed).unfaulted
  owned := by
    intro st b hlive
    cases hdisposed : s.locks.disposed st with
    | true =>
        rw [(h.freed.clean st hdisposed).2 b] at hlive
        cases hlive
    | false => exact ⟨rfl, (h.sound hdisposed).owned b hlive⟩
  reachable := by
    intro st hst
    rcases h.fd.kept st hst with ⟨f, hf⟩ | ⟨i, call, hcall, hphase⟩
    · exact Or.inl ⟨f, (h.fd.stored f st).2 hf⟩
    · exact Or.inr ⟨call, List.mem_of_getElem? hcall, hphase⟩
  released := by
    intro f st hreleased hf
    have hdisposed := h.freed.released f st hreleased hf
    exact ⟨hdisposed, (h.freed.clean st hdisposed).2⟩
  kept := fun f st hopened hf => h.alive hf hopened

/-- Over every interleaving of any calls of the snapshot ioctls on any files, with first uses
and releases of files in between: no array and no state is used after it was freed, freed
twice or lost. -/
theorem snapshot_memory_safe [DecidableEq File] (steps : List (SnapStep File)) :
    StepRun.Always SnapSystem.step SnapSystem.MemorySafe
      (SnapSystem.initial : SnapSystem File) steps :=
  StepRun.Always.mono (fun _ h => h.memorySafe) (SnapSystem.inv_always steps)

end Anticheat
