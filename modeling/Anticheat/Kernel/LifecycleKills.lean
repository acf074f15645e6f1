import Anticheat.Kernel.LifecycleStages

/-!
# Who is killed

A kill is requested in the handler of a ptrace probe and delivered later by the worker, when the
caller may have exited and its pid number may be in use again.  The request holds a reference to
the pid structure, so it can only name a task of the process that made the call.

Main results:

- Theorem {lit}`ModCall.Just.plan`: a call is punished only for a protected target and by policy.
- Theorems {lit}`ModuleSystem.Kills.acted`, {lit}`ModuleSystem.Kills.worked` and
  {lit}`ModuleSystem.Kills.fork`: calls, the worker and the kernel keep every request aimed at the
  process that it was made for.
-/

namespace Anticheat

open Foundation

/-! ## Whom a kill is meant for -/

section Punishes

variable {Task Pid : Type}

def Lookup.isPtrace : Lookup → Bool
  | .ptraceTarget => true
  | _ => false

/-- The code of `ac_ptrace_pre` up to the end of `ac_schedule_kill`. -/
def ModPlace.inPtrace : ModPlace Task Pid → Bool
  | .findGetPid _ why => why.isPtrace
  | .getPidTask _ why => why.isPtrace
  | .putPid _ _ why => why.isPtrace
  | .ptracePre => true
  | .isProtectedTask _ => true
  | .putTarget _ _ => true
  | .emitDenial _ => true
  | .kmalloc => true
  | .getTaskPid _ => true
  | .queueWork _ => true
  | _ => false

/-- The call has been found to aim at a protected task. -/
def ModPlace.convicts : ModPlace Task Pid → Bool
  | .putTarget _ tcomm => tcomm.isSome
  | .emitDenial v => v.kill
  | .kmalloc => true
  | .getTaskPid _ => true
  | .queueWork _ => true
  | _ => false

/-- The call is being punished. -/
def ModPlace.punishes : ModPlace Task Pid → Bool
  | .kmalloc => true
  | .getTaskPid _ => true
  | .queueWork _ => true
  | _ => false

/-- The call has made its request, if it makes one. -/
def ModPlace.isPast : ModPlace Task Pid → Bool
  | .getTaskPid _ => true
  | .queueWork _ => true
  | .neutralise => true
  | .returned _ => true
  | _ => false

theorem ModCommand.inPtrace_start (cmd : ModCommand) :
    (cmd.start : ModPlace Task Pid).inPtrace = false := by
  cases cmd with
  | addProc pid refPid jit =>
      simp only [ModCommand.start]
      split <;> rfl
  | delProc pid => rfl
  | pin cmd => rfl

@[simp]
theorem Lookup.convicts_resume (why : Lookup) (task : Option Task) :
    (why.resume task : ModPlace Task Pid).convicts = false := by
  cases why <;> cases task <;> rfl

@[simp]
theorem Lookup.punishes_resume (why : Lookup) (task : Option Task) :
    (why.resume task : ModPlace Task Pid).punishes = false := by
  cases why <;> cases task <;> rfl

@[simp]
theorem ModCommand.convicts_start (cmd : ModCommand) :
    (cmd.start : ModPlace Task Pid).convicts = false := by
  rcases cmd.start_cases Task Pid with ⟨nr, why, h⟩ | h
  · rw [h]
    rfl
  · rw [h]
    rfl

@[simp]
theorem ModCommand.punishes_start (cmd : ModCommand) :
    (cmd.start : ModPlace Task Pid).punishes = false := by
  rcases cmd.start_cases Task Pid with ⟨nr, why, h⟩ | h
  · rw [h]
    rfl
  · rw [h]
    rfl

/-- The worker is past the signal. -/
def WorkPlace.isSent : WorkPlace Task → Bool
  | .putTask _ => true
  | .putPid => true
  | .kfree => true
  | .freed => true
  | _ => false

/-- A ptrace call that was aimed at a protected task while the policy asked for its caller to
be killed. -/
structure ModCall.Aimed (c : ModCall Task Pid) : Prop where
  site : ∃ entry, c.site = .probe (.ptrace entry)
  target : c.target.isSome = true
  policy : c.policy &&& 0x1 ≠ 0

/-- The code knows what it does: only ptrace calls are convicted, only for a protected target,
and punished only by policy. -/
structure ModCall.Just (c : ModCall Task Pid) : Prop where
  site : c.place.inPtrace = true → ∃ entry, c.site = .probe (.ptrace entry)
  target : c.place.convicts = true → c.target.isSome = true
  policy : c.place.punishes = true → c.policy &&& 0x1 ≠ 0

theorem ModCall.Just.aimed {c : ModCall Task Pid} (h : c.Just) (hplace : c.place.punishes = true) :
    c.Aimed := by
  cases hp : c.place <;> rw [hp] at hplace <;> try cases hplace
  all_goals constructor
  all_goals first
    | exact h.site (by rw [hp]; rfl)
    | exact h.target (by rw [hp]; rfl)
    | exact h.policy (by rw [hp]; rfl)

theorem AcKillReq.Goes.isSent {tasks : TaskTable Task Pid} {r : Nat} {q : AcKillReq Task Pid}
    {a : ModAction Task Pid} {at' at'' : WorkPlace Task} (h : q.Goes tasks r at' a at'')
    (hsent : at'.isSent = true) : at''.isSent = true := by
  cases h <;> first | rfl | cases hsent

theorem AcKillReq.Goes.sent_cases {tasks : TaskTable Task Pid} {r : Nat}
    {q : AcKillReq Task Pid} {a : ModAction Task Pid} {at' at'' : WorkPlace Task}
    (h : q.Goes tasks r at' a at'') :
    (∃ t, at' = .sendSig t ∧
        a = .sendSig { request := r, task := t, process := tasks.process t } ∧
        at'' = .putTask t) ∨
      ∀ kill, a ≠ .sendSig kill := by
  cases h
  case sent t => exact Or.inl ⟨t, rfl, rfl, rfl⟩
  all_goals exact Or.inr (fun kill => nofun)

variable [DecidableEq Task] {tasks : TaskTable Task Pid} {k : KernelAnswers Task Pid}
  {live : Bool} {sh : ModShared Task Pid} {c c' : ModCall Task Pid} {a : ModAction Task Pid}

omit [DecidableEq Task] in
theorem ModCall.Goes.inPtrace {place place' : ModPlace Task Pid}
    (h : c.Goes tasks sh place a place') (hplace : place'.inPtrace = true) :
    place.inPtrace = true := by
  cases h
  case pidMissing nr why => cases why <;> first | rfl | exact hplace
  case lookedUp pidp task why => cases why <;> cases task <;> first | rfl | exact hplace
  case copied cmd =>
      rw [cmd.inPtrace_start] at hplace
      cases hplace
  all_goals first | rfl | exact hplace

/-- A call is convicted when its target is found in the registry. -/
theorem ModCall.plan_target (h : c.plan tasks k live sh = some (a, c'))
    (htarget : c.place.convicts = true → c.target.isSome = true)
    (hplace' : c'.place.convicts = true) : c'.target.isSome = true := by
  unfold ModCall.plan at h
  split at h
  all_goals rename_i hplace
  all_goals rw [hplace] at htarget
  all_goals (repeat' split at h)
  all_goals cases h
  all_goals first
    | rfl
    | exact htarget rfl
    | exact htarget hplace'
    | exact htarget (Bool.and_eq_true_iff.1 ‹_›).1
    | cases hplace'
    | simp [ModCall.goTo] at hplace'

/-- A call is punished when the policy that is read after its denial says so. -/
theorem ModCall.plan_policy (h : c.plan tasks k live sh = some (a, c'))
    (hpolicy : c.place.punishes = true → c.policy &&& 0x1 ≠ 0)
    (hplace' : c'.place.punishes = true) : c'.policy &&& 0x1 ≠ 0 := by
  unfold ModCall.plan at h
  split at h
  all_goals rename_i hplace
  all_goals rw [hplace] at hpolicy
  all_goals (repeat' split at h)
  all_goals cases h
  all_goals first
    | exact hpolicy rfl
    | exact bne_iff_ne.1 (Bool.and_eq_true_iff.1 ‹_›).2
    | cases hplace'
    | simp [ModCall.goTo] at hplace'

/-- Once a call is past its request, its record stays. -/
theorem ModCall.plan_past (h : c.plan tasks k live sh = some (a, c'))
    (hpast : c.place.isPast = true) :
    c'.place.isPast = true ∧ c'.target = c.target ∧ c'.policy = c.policy := by
  unfold ModCall.plan at h
  split at h
  all_goals rename_i hplace
  all_goals rw [hplace] at hpast
  all_goals try cases hpast
  all_goals cases h
  all_goals exact ⟨rfl, rfl, rfl⟩

theorem ModCall.Just.plan (hjust : c.Just) (h : c.plan tasks k live sh = some (a, c')) :
    c'.Just := by
  rcases ModCall.plan_goes h with ⟨hgoes, hsite, -, -⟩
  refine ⟨?_, ModCall.plan_target h hjust.target, ModCall.plan_policy h hjust.policy⟩
  intro hplace'
  rw [hsite]
  exact hjust.site (hgoes.inPtrace hplace')

end Punishes

namespace ModuleSystem

variable {Task Pid : Type} [DecidableEq Task] [DecidableEq Pid] {s s' : ModuleSystem Task Pid}
  {i r : Nat} {c c' : ModCall Task Pid} {a : ModAction Task Pid} {q : AcKillReq Task Pid}
  {place : WorkPlace Task}

/-! ## Kills -/

/-- Whom the requests and the signals are meant for. -/
structure Kills (s : ModuleSystem Task Pid) : Prop where
  consistent : ∀ t p, s.tasks.home t = some p ↔ s.tasks.attached p = some t
  target : ∀ q ∈ s.shared.requests, ∀ p t, q.heldPid = some p → s.tasks.attached p = some t →
    s.tasks.process t = q.process
  sending : ∀ q ∈ s.shared.requests, ∀ t, q.heldTask = some t → s.tasks.process t = q.process
  sent : ∀ e ∈ s.shared.sent, ∃ q, s.shared.requests[e.request]? = some q ∧
    e.process = q.process ∧ q.place.isSent = true
  once : (s.shared.sent.map SentKill.request).Nodup
  just : ∀ c ∈ s.calls, c.Just
  caller : ∀ c ∈ s.calls, c.place.isReturned = false →
    (s.tasks.home c.cur).isSome = true ∧ s.tasks.process c.cur = c.process
  made : ∀ (r : Nat) (q : AcKillReq Task Pid), s.shared.requests[r]? = some q →
    ∃ c, s.calls[q.call]? = some c ∧ c.Aimed ∧ c.place.isPast = true
  asked : ∀ (r : Nat) (q : AcKillReq Task Pid) (c : ModCall Task Pid),
    s.shared.requests[r]? = some q → s.calls[q.call]? = some c →
    (c.place = .getTaskPid r ∧ q.place = .fresh) ∨ q.process = c.process
  single : ∀ (r r' : Nat) (q q' : AcKillReq Task Pid), s.shared.requests[r]? = some q →
    s.shared.requests[r']? = some q' → q.call = q'.call → r = r'

/-- A request after a statement of a call: it is as before, it is new, or it was fresh and has
been filled in or queued. -/
theorem Requests.acted_cases (hreq : s.Requests) (hc : s.calls[i]? = some c)
    (hgoes : c.Goes s.tasks s.shared c.place a c'.place)
    (hqueue : ∀ r, a = .queueWork r → s.shared.queue = .live)
    (hq : (s.acted i a c').shared.requests[r]? = some q) :
    (c.place.request ≠ some r ∧ s.shared.requests[r]? = some q) ∨
      (c'.place = .getTaskPid r ∧ c.place.isPast = false ∧
        q = { pid := none, place := .fresh, call := i, process := 0 }) ∨
      ∃ q', s.shared.requests[r]? = some q' ∧ q'.place = .fresh ∧ q'.call = i ∧
        (q = { q' with pid := s.tasks.home c.cur, process := s.tasks.process c.cur } ∨
          c.place = .queueWork r ∧ q = { q' with place := .queued }) := by
  rcases hgoes.request_cases with ⟨rfl, hplace, hplace'⟩ | ⟨r', rfl, hplace, -⟩ |
    ⟨r', rfl, hplace, -⟩ | ⟨hspares, hnone, -⟩
  · rcases getElem?_concat_cases hq with hq | ⟨rfl, rfl⟩
    · exact Or.inl ⟨by simp [hplace, ModPlace.request], hq⟩
    · exact Or.inr (Or.inl ⟨hplace', by rw [hplace]; rfl, rfl⟩)
  · rcases hreq.owned i c r' hc (by rw [hplace]; rfl) with ⟨q', hq', hfresh, hcall, -⟩
    simp only [ModuleSystem.acted, ModAction.run, hq', if_pos hfresh] at hq
    rcases getElem?_set_cases hq with ⟨rfl, rfl⟩ | ⟨hne, hq⟩
    · exact Or.inr (Or.inr ⟨q', hq', hfresh, hcall, Or.inl rfl⟩)
    · refine Or.inl ⟨?_, hq⟩
      rw [hplace]
      exact fun heq => hne (Option.some.inj heq).symm
  · rcases hreq.owned i c r' hc (by rw [hplace]; rfl) with ⟨q', hq', hfresh, hcall, -⟩
    simp only [ModuleSystem.acted, ModAction.run, hq',
      if_pos (And.intro hfresh (hqueue r' rfl))] at hq
    rcases getElem?_set_cases hq with ⟨rfl, rfl⟩ | ⟨hne, hq⟩
    · exact Or.inr (Or.inr ⟨q', hq', hfresh, hcall, Or.inr ⟨hplace, rfl⟩⟩)
    · refine Or.inl ⟨?_, hq⟩
      rw [hplace]
      exact fun heq => hne (Option.some.inj heq).symm
  · simp only [ModuleSystem.acted, ModAction.run_requests i hspares] at hq
    exact Or.inl ⟨by simp [hnone], hq⟩

/-- A request that the worker has is not touched by calls. -/
theorem Requests.acted_kept (hreq : s.Requests) (hc : s.calls[i]? = some c)
    (hgoes : c.Goes s.tasks s.shared c.place a c'.place)
    (hqueue : ∀ r, a = .queueWork r → s.shared.queue = .live)
    (hq : s.shared.requests[r]? = some q) (hplaced : q.place ≠ .fresh) :
    (s.acted i a c').shared.requests[r]? = some q := by
  have hother : ∀ r', c.place.request = some r' → r ≠ r' := by
    rintro r' hr' rfl
    rcases hreq.owned i c r hc hr' with ⟨q', hq', hfresh, -, -⟩
    rw [hq] at hq'
    cases hq'
    exact hplaced hfresh
  rcases hgoes.request_cases with ⟨rfl, -, -⟩ | ⟨r', rfl, hplace, -⟩ | ⟨r', rfl, hplace, -⟩ |
    ⟨hspares, -, -⟩
  · exact getElem?_concat_some hq _
  · have hr' : c.place.request = some r' := by
      rw [hplace]
      rfl
    rcases hreq.owned i c r' hc hr' with ⟨q', hq', hfresh, -, -⟩
    simp only [ModuleSystem.acted, ModAction.run, hq', if_pos hfresh]
    rw [List.getElem?_set_ne (Ne.symm (hother r' hr')), hq]
  · have hr' : c.place.request = some r' := by
      rw [hplace]
      rfl
    rcases hreq.owned i c r' hc hr' with ⟨q', hq', hfresh, -, -⟩
    simp only [ModuleSystem.acted, ModAction.run, hq',
      if_pos (And.intro hfresh (hqueue r' rfl))]
    rw [List.getElem?_set_ne (Ne.symm (hother r' hr')), hq]
  · simp only [ModuleSystem.acted, ModAction.run_requests i hspares]
    exact hq

/-- A statement of a call keeps the requests and the signals as they are meant. -/
theorem Kills.acted (h : s.Kills) (hreq : s.Requests) (hc : s.calls[i]? = some c)
    {k : KernelAnswers Task Pid} {live : Bool}
    (hplan : c.plan s.tasks k live s.shared = some (a, c'))
    (hqueue : ∀ r, a = .queueWork r → s.shared.queue = .live) : (s.acted i a c').Kills := by
  rcases ModCall.plan_goes hplan with ⟨hgoes, hsite, hcur, hprocess⟩
  have hi := (List.getElem?_eq_some_iff.1 hc).1
  have hjust := h.just c (List.mem_of_getElem? hc)
  have hjust' := hjust.plan hplan
  have hcaller := h.caller c (List.mem_of_getElem? hc) (ModCall.running_of_plan hplan)
  constructor
  case consistent => exact h.consistent
  case target =>
    intro q hq p t hp ht
    rcases List.getElem?_of_mem hq with ⟨r, hr⟩
    rcases hreq.acted_cases hc hgoes hqueue hr with ⟨-, hold⟩ | ⟨-, -, rfl⟩ |
      ⟨q', hq', hfresh, -, rfl | ⟨-, rfl⟩⟩
    · exact h.target q (List.mem_of_getElem? hold) p t hp ht
    · cases hp
    · simp only [AcKillReq.heldPid, hfresh] at hp
      have heq : c.cur = t := Option.some.inj (((h.consistent c.cur p).1 hp).symm.trans ht)
      rw [← heq]
      rfl
    · apply h.target q' (List.mem_of_getElem? hq') p t _ ht
      simpa [AcKillReq.heldPid, hfresh] using hp
  case sending =>
    intro q hq t ht
    rcases List.getElem?_of_mem hq with ⟨r, hr⟩
    rcases hreq.acted_cases hc hgoes hqueue hr with ⟨-, hold⟩ | ⟨-, -, rfl⟩ |
      ⟨q', hq', hfresh, -, rfl | ⟨-, rfl⟩⟩
    · exact h.sending q (List.mem_of_getElem? hold) t ht
    · cases ht
    · simp [AcKillReq.heldTask, hfresh] at ht
    · cases ht
  case sent =>
    intro e he
    rw [show (s.acted i a c').shared.sent = s.shared.sent from
      ModAction.run_sent i hgoes.not_sendSig] at he
    rcases h.sent e he with ⟨q, hq, hprocess, hsent⟩
    refine ⟨q, hreq.acted_kept hc hgoes hqueue hq ?_, hprocess, hsent⟩
    intro hfresh
    rw [hfresh] at hsent
    cases hsent
  case once =>
    rw [show (s.acted i a c').shared.sent = s.shared.sent from
      ModAction.run_sent i hgoes.not_sendSig]
    exact h.once
  case just =>
    intro d hd
    rcases List.mem_or_eq_of_mem_set hd with hd | rfl
    · exact h.just d hd
    · exact hjust'
  case caller =>
    intro d hd hrunning'
    rcases List.mem_or_eq_of_mem_set hd with hd | rfl
    · exact h.caller d hd hrunning'
    · rw [hcur, hprocess]
      exact hcaller
  case made =>
    intro r q hr
    have hold : ∀ q', s.shared.requests[r]? = some q' →
        ∃ d, (s.calls.set i c')[q'.call]? = some d ∧ d.Aimed ∧ d.place.isPast = true := by
      intro q' hq'
      rcases h.made r q' hq' with ⟨d, hd, haimed, hpast⟩
      by_cases hcall : q'.call = i
      · rw [hcall, hc] at hd
        cases hd
        rcases ModCall.plan_past hplan hpast with ⟨hpast', htarget, hpolicy⟩
        refine ⟨c', by rw [hcall, List.getElem?_set_self hi], ⟨?_, ?_, ?_⟩, hpast'⟩
        · rw [hsite]
          exact haimed.site
        · rw [htarget]
          exact haimed.target
        · rw [hpolicy]
          exact haimed.policy
      · exact ⟨d, by rw [List.getElem?_set_ne (Ne.symm hcall), hd], haimed, hpast⟩
    rcases hreq.acted_cases hc hgoes hqueue hr with ⟨-, hq⟩ | ⟨hplace', -, rfl⟩ |
      ⟨q', hq', -, -, rfl | ⟨-, rfl⟩⟩
    · exact hold q hq
    · refine ⟨c', List.getElem?_set_self hi, hjust'.aimed ?_, ?_⟩
      · rw [hplace']
        rfl
      · rw [hplace']
        rfl
    · exact hold q' hq'
    · exact hold q' hq'
  case asked =>
    intro r q d hr hd
    rcases hreq.acted_cases hc hgoes hqueue hr with ⟨hother, hq⟩ | ⟨hplace', -, rfl⟩ |
      ⟨q', hq', -, hcall, rfl | ⟨hplace, rfl⟩⟩
    · rcases getElem?_set_cases hd with ⟨hcall, rfl⟩ | ⟨-, hd⟩
      · rcases h.asked r q c hq (by rw [hcall, hc]) with ⟨hplace, -⟩ | hsame
        · rw [hplace] at hother
          exact absurd rfl hother
        · exact Or.inr (hsame.trans hprocess.symm)
      · exact h.asked r q d hq hd
    · rcases getElem?_set_cases hd with ⟨-, rfl⟩ | ⟨hne, -⟩
      · exact Or.inl ⟨hplace', rfl⟩
      · exact absurd rfl hne
    · rcases getElem?_set_cases hd with ⟨-, rfl⟩ | ⟨hne, -⟩
      · exact Or.inr (hcaller.2.trans hprocess.symm)
      · exact absurd hcall hne
    · rcases getElem?_set_cases hd with ⟨-, rfl⟩ | ⟨hne, -⟩
      · rcases h.asked r q' c hq' (by rw [hcall, hc]) with ⟨hplace', -⟩ | hsame
        · rw [hplace] at hplace'
          cases hplace'
        · exact Or.inr (hsame.trans hprocess.symm)
      · exact absurd hcall hne
  case single =>
    have horigin : ∀ (r : Nat) (q : AcKillReq Task Pid),
        (s.acted i a c').shared.requests[r]? = some q →
        (∃ q', s.shared.requests[r]? = some q' ∧ q.call = q'.call) ∨
          (q.call = i ∧ c'.place = .getTaskPid r ∧ c.place.isPast = false) := by
      intro r q hr
      rcases hreq.acted_cases hc hgoes hqueue hr with ⟨-, hq⟩ | ⟨hplace', hpast, rfl⟩ |
        ⟨q', hq', -, -, rfl | ⟨-, rfl⟩⟩
      · exact Or.inl ⟨q, hq, rfl⟩
      · exact Or.inr ⟨rfl, hplace', hpast⟩
      · exact Or.inl ⟨q', hq', rfl⟩
      · exact Or.inl ⟨q', hq', rfl⟩
    -- the call that makes a request now has not made one before
    have hfirst : ∀ (r : Nat) (q : AcKillReq Task Pid), s.shared.requests[r]? = some q →
        c.place.isPast = false → q.call ≠ i := by
      intro r q hq hpast hcall
      rcases h.made r q hq with ⟨d, hd, -, hpast'⟩
      rw [hcall, hc] at hd
      cases hd
      rw [hpast] at hpast'
      cases hpast'
    intro r r' q q' hr hr' hcall
    rcases horigin r q hr with ⟨p, hp, hpcall⟩ | ⟨hqi, hplace, hpast⟩
    · rcases horigin r' q' hr' with ⟨p', hp', hpcall'⟩ | ⟨hqi, -, hpast⟩
      · exact h.single r r' p p' hp hp' (hpcall.symm.trans (hcall.trans hpcall'))
      · exact absurd (hpcall.symm.trans (hcall.trans hqi)) (hfirst r p hp hpast)
    · rcases horigin r' q' hr' with ⟨p', hp', hpcall'⟩ | ⟨-, hplace', -⟩
      · exact absurd (hpcall'.symm.trans (hcall.symm.trans hqi)) (hfirst r' p' hp' hpast)
      · rw [hplace] at hplace'
        cases hplace'
        rfl

/-- A request after a statement of the worker. -/
theorem worked_cases (hgoes : q.Goes s.tasks r q.place a place) {r' : Nat}
    {q' : AcKillReq Task Pid}
    (hq' : (s.worked r q a place).shared.requests[r']? = some q') :
    (r' ≠ r ∧ s.shared.requests[r']? = some q') ∨ (r' = r ∧ q' = { q with place := place }) := by
  simp only [ModuleSystem.worked, ModAction.run_requests q.call hgoes.sparesRequests] at hq'
  rcases getElem?_set_cases hq' with h | h
  · exact Or.inr h
  · exact Or.inl h

theorem Kills.worked (h : s.Kills) (hq : s.shared.requests[r]? = some q)
    (hgoes : q.Goes s.tasks r q.place a place) : (s.worked r q a place).Kills := by
  have hmem := List.mem_of_getElem? hq
  have hrequests : (s.worked r q a place).shared.requests =
      s.shared.requests.set r { q with place := place } := by
    simp only [ModuleSystem.worked, ModAction.run_requests q.call hgoes.sparesRequests]
  have hself : (s.worked r q a place).shared.requests[r]? = some { q with place := place } := by
    rw [hrequests]
    exact List.getElem?_set_self (List.getElem?_eq_some_iff.1 hq).1
  have hsame : ∀ (r' : Nat) (q' : AcKillReq Task Pid),
      (s.worked r q a place).shared.requests[r']? = some q' →
      ∃ p, s.shared.requests[r']? = some p ∧ q'.call = p.call ∧ q'.process = p.process ∧
        (p.place = .fresh → q'.place = .fresh) := by
    intro r' q' hq'
    rcases worked_cases hgoes hq' with ⟨-, hold⟩ | ⟨rfl, rfl⟩
    · exact ⟨q', hold, rfl, rfl, id⟩
    · exact ⟨q, hq, rfl, rfl, fun hfresh => absurd hfresh hgoes.not_fresh.1⟩
  constructor
  case consistent => exact h.consistent
  case target =>
    intro q' hq' p t hp ht
    rcases List.getElem?_of_mem hq' with ⟨r', hr'⟩
    rcases worked_cases hgoes hr' with ⟨-, hold⟩ | ⟨rfl, rfl⟩
    · exact h.target q' (List.mem_of_getElem? hold) p t hp ht
    · exact h.target q hmem p t (hgoes.heldPid_old hp) ht
  case sending =>
    intro q' hq' t ht
    rcases List.getElem?_of_mem hq' with ⟨r', hr'⟩
    rcases worked_cases hgoes hr' with ⟨-, hold⟩ | ⟨rfl, rfl⟩
    · exact h.sending q' (List.mem_of_getElem? hold) t ht
    · rcases hgoes.heldTask_old ht with hheld | ⟨p, hp, hattached⟩
      · exact h.sending q hmem t hheld
      · exact h.target q hmem p t hp hattached
  case sent =>
    -- a signal that was sent before stays with its request
    have hold : ∀ e ∈ s.shared.sent, ∃ q',
        (s.worked r q a place).shared.requests[e.request]? = some q' ∧
          e.process = q'.process ∧ q'.place.isSent = true := by
      intro e he
      rcases h.sent e he with ⟨q', hq', hprocess, hsent⟩
      by_cases hr : e.request = r
      · rw [hr, hq] at hq'
        cases hq'
        exact ⟨{ q with place := place }, by rw [hr, hself], hprocess, hgoes.isSent hsent⟩
      · exact ⟨q', by rw [hrequests, List.getElem?_set_ne (Ne.symm hr), hq'], hprocess, hsent⟩
    intro e he
    rcases hgoes.sent_cases with ⟨t, hplace, rfl, rfl⟩ | hnone
    · rcases List.mem_append.1 he with he | he
      · exact hold e he
      · rw [List.mem_singleton.1 he]
        refine ⟨_, hself, h.sending q hmem t ?_, rfl⟩
        rw [AcKillReq.heldTask, hplace]
    · apply hold
      rw [← ModAction.run_sent q.call hnone]
      exact he
  case once =>
    rcases hgoes.sent_cases with ⟨t, hplace, rfl, rfl⟩ | hnone
    · simp only [ModuleSystem.worked, ModAction.run, List.map_append, List.map_cons, List.map_nil]
      apply List.nodup_append_comm.1
      refine List.nodup_cons.2 ⟨?_, h.once⟩
      intro hin
      rcases List.mem_map.1 hin with ⟨e, he, hr⟩
      rcases h.sent e he with ⟨q', hq', -, hsent⟩
      rw [hr, hq] at hq'
      cases hq'
      rw [hplace] at hsent
      cases hsent
    · simp only [ModuleSystem.worked, ModAction.run_sent q.call hnone]
      exact h.once
  case just => exact h.just
  case caller => exact h.caller
  case made =>
    intro r' q' hr'
    rcases hsame r' q' hr' with ⟨p, hp, hcall, -, -⟩
    rw [hcall]
    exact h.made r' p hp
  case asked =>
    intro r' q' c hr' hc
    rcases hsame r' q' hr' with ⟨p, hp, hcall, hprocess, hfresh⟩
    rw [hcall] at hc
    rcases h.asked r' p c hp hc with ⟨hplace, hp⟩ | hsame
    · exact Or.inl ⟨hplace, hfresh hp⟩
    · exact Or.inr (hprocess.trans hsame)
  case single =>
    intro r₁ r₂ q₁ q₂ h₁ h₂ hcall
    rcases hsame r₁ q₁ h₁ with ⟨p₁, hp₁, hcall₁, -, -⟩
    rcases hsame r₂ q₂ h₂ with ⟨p₂, hp₂, hcall₂, -, -⟩
    exact h.single r₁ r₂ p₁ p₂ hp₁ hp₂ (hcall₁.symm.trans (hcall.trans hcall₂))

omit [DecidableEq Task] [DecidableEq Pid] in
theorem Kills.congr (h : s.Kills) (hcalls : s'.calls = s.calls) (htasks : s'.tasks = s.tasks)
    (hrequests : s'.shared.requests = s.shared.requests)
    (hsent : s'.shared.sent = s.shared.sent) : s'.Kills := by
  constructor
  · rw [htasks]
    exact h.consistent
  · rw [htasks, hrequests]
    exact h.target
  · rw [htasks, hrequests]
    exact h.sending
  · rw [hsent, hrequests]
    exact h.sent
  · rw [hsent]
    exact h.once
  · rw [hcalls]
    exact h.just
  · rw [hcalls, htasks]
    exact h.caller
  · rw [hcalls, hrequests]
    exact h.made
  · rw [hcalls, hrequests]
    exact h.asked
  · rw [hrequests]
    exact h.single

omit [DecidableEq Task] [DecidableEq Pid] in
/-- A new call is just, and its caller is there. -/
theorem Kills.entered (h : s.Kills) (hjust : c.Just)
    (hcaller : (s.tasks.home c.cur).isSome = true ∧ s.tasks.process c.cur = c.process) :
    ({ s with calls := s.calls ++ [c] } : ModuleSystem Task Pid).Kills where
  consistent := h.consistent
  target := h.target
  sending := h.sending
  sent := h.sent
  once := h.once
  just := by
    intro d hd
    rcases List.mem_append.1 hd with hd | hd
    · exact h.just d hd
    · rw [List.mem_singleton.1 hd]
      exact hjust
  caller := by
    intro d hd hrunning
    rcases List.mem_append.1 hd with hd | hd
    · exact h.caller d hd hrunning
    · rw [List.mem_singleton.1 hd]
      exact hcaller
  made := by
    intro r q hq
    rcases h.made r q hq with ⟨d, hd, hrest⟩
    exact ⟨d, getElem?_concat_some hd c, hrest⟩
  asked := by
    intro r q d hq hd
    rcases h.made r q hq with ⟨d', hd', -⟩
    have hsame := getElem?_concat_some hd' c
    rw [hd] at hsame
    cases hsame
    exact h.asked r q d hq hd'
  single := h.single

omit [DecidableEq Task] [DecidableEq Pid] in
/-- The kernel changes its tasks and keeps the targets of the requests. -/
theorem Kills.retasked (h : s.Kills) {tasks : TaskTable Task Pid}
    (hconsistent : ∀ t p, tasks.home t = some p ↔ tasks.attached p = some t)
    (htarget : ∀ q ∈ s.shared.requests, ∀ p t, q.heldPid = some p →
      tasks.attached p = some t → tasks.process t = q.process)
    (hsending : ∀ q ∈ s.shared.requests, ∀ t, q.heldTask = some t →
      tasks.process t = q.process)
    (hcaller : ∀ c ∈ s.calls, c.place.isReturned = false →
      (tasks.home c.cur).isSome = true ∧ tasks.process c.cur = c.process) :
    ({ s with tasks := tasks } : ModuleSystem Task Pid).Kills where
  consistent := hconsistent
  target := htarget
  sending := hsending
  sent := h.sent
  once := h.once
  just := h.just
  caller := hcaller
  made := h.made
  asked := h.asked
  single := h.single

/-- A task that is created takes structures to which nobody holds a reference. -/
theorem Kills.fork (h : s.Kills) (hcount : s.shared.Counted s.lentTasks s.lentPids) {t : Task}
    {p : Pid} (process : Nat) (hhome : s.tasks.home t = none) (hpid : s.tasks.attached p = none)
    (htask : s.shared.reg.refs t ≤ 0) (hrefs : s.shared.pidRefs p ≤ 0) :
    ({ s with tasks :=
      { attached := Function.update s.tasks.attached p (some t)
        home := Function.update s.tasks.home t (some p)
        process := Function.update s.tasks.process t process } } :
          ModuleSystem Task Pid).Kills := by
  have hother : ∀ p', s.tasks.attached p' ≠ some t := by
    intro p' hp'
    rw [(h.consistent t p').2 hp'] at hhome
    cases hhome
  have hfree : ∀ t', s.tasks.home t' ≠ some p := by
    intro t' ht'
    rw [(h.consistent t' p).1 ht'] at hpid
    cases hpid
  apply h.retasked
  · intro u v
    by_cases hu : u = t
    · by_cases hv : v = p
      · simp [hu, hv]
      · simp only [hu, Function.update_self, Function.update_of_ne hv, hother v, iff_false]
        exact fun heq => hv (Option.some.inj heq).symm
    · by_cases hv : v = p
      · simp only [hv, Function.update_self, Function.update_of_ne hu, hfree u, false_iff]
        exact fun heq => hu (Option.some.inj heq).symm
      · simp only [Function.update_of_ne hu, Function.update_of_ne hv]
        exact h.consistent u v
  · intro q hq p' t' hp' ht'
    rcases List.getElem?_of_mem hq with ⟨r, hr⟩
    have hne : p' ≠ p := by
      rintro rfl
      have hpos := hcount.pidRefs_pos (one_le_lentPids_request hr hp')
      omega
    simp only [Function.update_of_ne hne] at ht'
    have hne' : t' ≠ t := by
      rintro rfl
      exact hother p' ht'
    simp only [Function.update_of_ne hne']
    exact h.target q hq p' t' hp' ht'
  · intro q hq t' ht'
    rcases List.getElem?_of_mem hq with ⟨r, hr⟩
    have hne : t' ≠ t := by
      rintro rfl
      have hpos := hcount.refs_pos (one_le_lentTasks_request hr ht')
      omega
    simp only [Function.update_of_ne hne]
    exact h.sending q hq t' ht'
  · intro c hc hrunning
    rcases h.caller c hc hrunning with ⟨hsome, hprocess⟩
    have hne : c.cur ≠ t := by
      intro heq
      rw [heq, hhome] at hsome
      cases hsome
    simp only [Function.update_of_ne hne]
    exact ⟨hsome, hprocess⟩

/-- A task that is released is no longer anybody's target. -/
theorem Kills.releaseTask (h : s.Kills) {t : Task} {p : Pid} (hhome : s.tasks.home t = some p)
    (hleft : (s.calls.all fun c => c.cur ≠ t || c.place.isReturned) = true) :
    ({ s with tasks := { s.tasks with
      attached := Function.update s.tasks.attached p none
      home := Function.update s.tasks.home t none } } : ModuleSystem Task Pid).Kills := by
  have hattached := (h.consistent t p).1 hhome
  apply h.retasked
  · intro u v
    by_cases hu : u = t
    · by_cases hv : v = p
      · simp [hu, hv]
      · simp only [hu, Function.update_self, Function.update_of_ne hv, reduceCtorEq, false_iff]
        intro hv'
        rw [← h.consistent t v, hhome] at hv'
        exact hv (Option.some.inj hv').symm
    · by_cases hv : v = p
      · simp only [hv, Function.update_self, Function.update_of_ne hu, reduceCtorEq, iff_false]
        intro hu'
        rw [h.consistent u p, hattached] at hu'
        exact hu (Option.some.inj hu').symm
      · simp only [Function.update_of_ne hu, Function.update_of_ne hv]
        exact h.consistent u v
  · intro q hq p' t' hp' ht'
    by_cases hp : p' = p
    · simp [hp] at ht'
    · simp only [Function.update_of_ne hp] at ht'
      exact h.target q hq p' t' hp' ht'
  · exact h.sending
  · intro c hc hrunning
    have hne : c.cur ≠ t := by
      have hcall := List.all_eq_true.1 hleft c hc
      rw [hrunning, Bool.or_false] at hcall
      exact of_decide_eq_true hcall
    simp only [Function.update_of_ne hne]
    exact h.caller c hc hrunning

/-- A thread that takes over the pid of its leader belongs to the same process. -/
theorem Kills.deThread (h : s.Kills) {leader t : Task} {p p' : Pid}
    (hleader : s.tasks.home leader = some p) (ht : s.tasks.home t = some p')
    (hprocess : s.tasks.process leader = s.tasks.process t) :
    ({ s with tasks := { s.tasks with
      attached := Function.update (Function.update s.tasks.attached p (some t)) p' (some leader)
      home := Function.update (Function.update s.tasks.home leader (some p')) t (some p) } } :
        ModuleSystem Task Pid).Kills := by
  have hattached := (h.consistent leader p).1 hleader
  have hattached' := (h.consistent t p').1 ht
  have hhome : ∀ u, Function.update (Function.update s.tasks.home leader (some p')) t (some p) u =
      s.tasks.home (Equiv.swap leader t u) := by
    intro u
    by_cases hut : u = t
    · rw [hut, Function.update_self, Equiv.swap_apply_right, hleader]
    · by_cases hul : u = leader
      · rw [Function.update_of_ne hut, hul, Function.update_self, Equiv.swap_apply_left, ht]
      · rw [Function.update_of_ne hut, Function.update_of_ne hul,
          Equiv.swap_apply_of_ne_of_ne hul hut]
  have hmap : ∀ v,
      Function.update (Function.update s.tasks.attached p (some t)) p' (some leader) v =
        (s.tasks.attached v).map (Equiv.swap leader t) := by
    intro v
    by_cases hv' : v = p'
    · rw [hv', Function.update_self, hattached', Option.map_some, Equiv.swap_apply_right]
    · by_cases hv : v = p
      · rw [Function.update_of_ne hv', hv, Function.update_self, hattached, Option.map_some,
          Equiv.swap_apply_left]
      · rw [Function.update_of_ne hv', Function.update_of_ne hv]
        cases hw : s.tasks.attached v with
        | none => rfl
        | some w =>
            have hwl : w ≠ leader := by
              rintro rfl
              rw [← h.consistent, hleader] at hw
              exact hv (Option.some.inj hw).symm
            have hwt : w ≠ t := by
              rintro rfl
              rw [← h.consistent, ht] at hw
              exact hv' (Option.some.inj hw).symm
            rw [Option.map_some, Equiv.swap_apply_of_ne_of_ne hwl hwt]
  have hswap : ∀ u v, (s.tasks.attached v).map (Equiv.swap leader t) = some u ↔
      s.tasks.attached v = some (Equiv.swap leader t u) := by
    intro u v
    cases s.tasks.attached v with
    | none => simp
    | some w => rw [Option.map_some, Option.some.injEq, Option.some.injEq,
        Equiv.swap_apply_eq_iff]
  have hsame : ∀ u, s.tasks.process (Equiv.swap leader t u) = s.tasks.process u := by
    intro u
    rw [Equiv.swap_apply_def]
    split
    · rename_i hu
      rw [hu, hprocess]
    · split
      · rename_i hu
        rw [hu, hprocess]
      · rfl
  apply h.retasked
  · intro u v
    simp only [hhome, hmap, hswap]
    exact h.consistent _ v
  · intro q hq v u hv hu
    simp only [hmap, hswap] at hu
    rw [← hsame u]
    exact h.target q hq v _ hv hu
  · exact h.sending
  · intro c hc hrunning
    rcases h.caller c hc hrunning with ⟨hsome, hcprocess⟩
    refine ⟨?_, hcprocess⟩
    simp only [hhome, Equiv.swap_apply_def]
    split
    · rw [ht]
      rfl
    · split
      · rw [hleader]
        rfl
      · exact hsome

end ModuleSystem

end Anticheat
