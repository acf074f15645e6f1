import Anticheat.Kernel.Lifecycle
import Anticheat.Kernel.References

/-!
# Counts and requests while the module runs

A request is allocated, filled in and queued by one call, and then belongs to the worker.  The
references that calls, requests and the worker hold are the ones that the counters count.

Main results:

- Theorems {lit}`ModuleSystem.counted_acted` and {lit}`ModuleSystem.counted_worked`: the counts
  stay exact when a call or the worker executes a statement.
- Theorems {lit}`ModuleSystem.Requests.acted` and {lit}`ModuleSystem.Requests.worked`: a request
  that is not queued yet stays with its call.
-/

namespace Anticheat

open Foundation

/-! ## Requests and registrations in the code -/

section Places

variable {Task Pid : Type}

/-- The request that a call has allocated and not yet queued. -/
def ModPlace.request : ModPlace Task Pid → Option Nat
  | .getTaskPid r => some r
  | .queueWork r => some r
  | _ => none

/-- The action leaves the requests alone. -/
def ModAction.sparesRequests : ModAction Task Pid → Bool
  | .kmalloc => false
  | .setPid _ _ _ => false
  | .queueWork _ => false
  | _ => true

/-- The lookup is made for a registration. -/
def Lookup.adds : Lookup → Bool
  | .clonedChild => true
  | .nsReference _ _ => true
  | .addProc _ => true
  | _ => false

/-- The code from here on may register a task. -/
def ModPlace.registers : ModPlace Task Pid → Bool
  | .findGetPid _ why => why.adds
  | .getPidTask _ why => why.adds
  | .putPid _ _ why => why.adds
  | .findPidNs _ _ _ => true
  | .putRefTask _ _ _ => true
  | .taskJitAllowed _ => true
  | .addChild _ _ => true
  | .ioctl _ => true
  | .copyFromUser _ => true
  | .addProtTask _ _ => true
  | _ => false

theorem Lookup.request_resume (why : Lookup) (task : Option Task) :
    (why.resume task : ModPlace Task Pid).request = none := by
  cases why <;> cases task <;> rfl

theorem Lookup.registers_resume {why : Lookup} (h : why.adds = false) (task : Option Task) :
    (why.resume task : ModPlace Task Pid).registers = false := by
  cases why <;> cases task <;> first | rfl | cases h

theorem ModCommand.request_start (cmd : ModCommand) :
    (cmd.start : ModPlace Task Pid).request = none := by
  rcases cmd.start_cases Task Pid with ⟨nr, why, h⟩ | h
  · rw [h]
    rfl
  · rw [h]
    rfl

variable {tasks : TaskTable Task Pid} {sh : ModShared Task Pid} {c : ModCall Task Pid}
  {a : ModAction Task Pid} {place place' : ModPlace Task Pid}

/-- The life of a request in its call: it is allocated, filled in and queued. -/
theorem ModCall.Goes.request_cases (h : c.Goes tasks sh place a place') :
    (a = .kmalloc ∧ place = .kmalloc ∧ place' = .getTaskPid sh.requests.length) ∨
      (∃ r, a = .setPid r (tasks.home c.cur) (tasks.process c.cur) ∧ place = .getTaskPid r ∧
        place' = .queueWork r) ∨
      (∃ r, a = .queueWork r ∧ place = .queueWork r ∧ place'.request = none) ∨
      (a.sparesRequests = true ∧ place.request = none ∧ place'.request = none) := by
  cases h
  case allocated => exact Or.inl ⟨rfl, rfl, rfl⟩
  case pidSet r => exact Or.inr (Or.inl ⟨r, rfl, rfl, rfl⟩)
  case queued r => exact Or.inr (Or.inr (Or.inl ⟨r, rfl, rfl, rfl⟩))
  all_goals apply Or.inr; apply Or.inr; apply Or.inr
  case pidMissing nr why => exact ⟨rfl, rfl, why.request_resume none⟩
  case lookedUp pidp task why => exact ⟨rfl, rfl, why.request_resume task⟩
  case copied cmd => exact ⟨rfl, rfl, cmd.request_start⟩
  all_goals exact ⟨rfl, rfl, rfl⟩

/-- A call comes to register a task only by an ioctl or from a protected task. -/
theorem ModCall.Goes.registers (h : c.Goes tasks sh place a place')
    (hplace : place.registers = false) (hcur : c.cur ∉ sh.reg.registered) :
    place'.registers = false := by
  cases h
  case pidMissing nr why => exact Lookup.registers_resume hplace none
  case lookedUp pidp task why => exact Lookup.registers_resume hplace task
  case cloneLookup ret nr hmem => exact absurd hmem hcur
  all_goals first | rfl | exact hplace | cases hplace

theorem ModCall.Goes.registers_of_addProt (h : c.Goes tasks sh place a place')
    {info : Task → TaskInfo} {t : Task} {jit : Bool} (ha : a = .addProt info t jit) :
    place.registers = true := by
  subst ha
  cases h <;> rfl

theorem ModCall.Goes.not_sendSig (h : c.Goes tasks sh place a place') (kill : SentKill Task) :
    a ≠ .sendSig kill := by
  rintro rfl
  cases h

/-- The statements of the worker for the request `q`. -/
inductive AcKillReq.Goes (tasks : TaskTable Task Pid) (r : Nat) (q : AcKillReq Task Pid) :
    WorkPlace Task → ModAction Task Pid → WorkPlace Task → Prop
  | found t : q.pid.bind tasks.attached = some t →
      Goes tasks r q .queued (.getTask t) (.sendSig t)
  | missing : Goes tasks r q .queued .nothing .putPid
  | sent t : Goes tasks r q (.sendSig t)
      (.sendSig { request := r, task := t, process := tasks.process t }) (.putTask t)
  | taskPut t : Goes tasks r q (.putTask t) (.putTask t) .putPid
  | pidPut p : q.pid = some p → Goes tasks r q .putPid (.putPid p) .kfree
  | noPid : q.pid = none → Goes tasks r q .putPid .nothing .kfree
  | freed : Goes tasks r q .kfree .nothing .freed

variable {r : Nat} {q : AcKillReq Task Pid} {at' at'' : WorkPlace Task}

theorem AcKillReq.plan_goes (h : q.plan tasks r = some (a, at'')) :
    q.Goes tasks r q.place a at'' := by
  unfold AcKillReq.plan at h
  split at h
  all_goals rename_i hplace
  all_goals rw [hplace]
  all_goals (repeat' split at h)
  all_goals cases h
  all_goals constructor
  all_goals assumption

theorem AcKillReq.Goes.sparesRequests (h : q.Goes tasks r at' a at'') :
    a.sparesRequests = true := by
  cases h <;> rfl

theorem AcKillReq.Goes.not_fresh (h : q.Goes tasks r at' a at'') :
    at' ≠ .fresh ∧ at'' ≠ .fresh := by
  cases h <;> exact ⟨nofun, nofun⟩

theorem AcKillReq.Goes.storesPid (h : q.Goes tasks r at' a at'') : a.storesPid = none := by
  cases h <;> rfl

theorem AcKillReq.Goes.held_of_dropsTask (h : q.Goes tasks r q.place a at'') {t : Task}
    (ht : a.dropsTask = some t) : q.heldTask = some t := by
  rw [AcKillReq.heldTask]
  generalize q.place = here at h
  cases h <;> first | exact ht | cases ht

theorem AcKillReq.Goes.held_of_dropsPid (h : q.Goes tasks r q.place a at'') {p : Pid}
    (hp : a.dropsPid = some p) : q.heldPid = some p := by
  rw [AcKillReq.heldPid]
  generalize q.place = here at h
  cases h <;> first | (cases hp; assumption) | cases hp

theorem AcKillReq.Goes.heldTask [DecidableEq Task] (h : q.Goes tasks r q.place a at'') (t : Task) :
    share (AcKillReq.heldTask { q with place := at'' }) t =
      share q.heldTask t + share a.takesTask t - share a.dropsTask t := by
  unfold AcKillReq.heldTask
  generalize q.place = here at h
  cases h <;> simp [ModAction.takesTask, ModAction.dropsTask]

theorem AcKillReq.Goes.heldPid [DecidableEq Pid] (h : q.Goes tasks r q.place a at'') (p : Pid) :
    share (AcKillReq.heldPid { q with place := at'' }) p =
      share q.heldPid p + share a.takesPid p - share a.dropsPid p := by
  unfold AcKillReq.heldPid
  generalize q.place = here at h
  cases h
  case pidPut p' hpid => simp [ModAction.takesPid, ModAction.dropsPid, hpid]
  case noPid hpid => simp [ModAction.takesPid, ModAction.dropsPid, hpid]
  all_goals simp [ModAction.takesPid, ModAction.dropsPid]

variable [DecidableEq Task] [DecidableEq Pid]

theorem ModAction.run_requests (i : Nat) (h : a.sparesRequests = true) :
    (a.run i sh).requests = sh.requests := by
  cases a <;> simp only [ModAction.run] <;> first | rfl | (split <;> rfl) | cases h

@[simp]
theorem ModAction.run_queue (i : Nat) : (a.run i sh).queue = sh.queue := by
  cases a <;> simp only [ModAction.run] <;> (repeat' split) <;> rfl

theorem ModAction.run_sent (i : Nat) (h : ∀ kill, a ≠ .sendSig kill) :
    (a.run i sh).sent = sh.sent := by
  cases a <;> simp only [ModAction.run] <;> (repeat' split) <;>
    first | rfl | exact absurd rfl (h _)

theorem ModAction.run_pins (i : Nat) (h : ∀ pins, a ≠ .setPins pins) :
    (a.run i sh).pins = sh.pins := by
  cases a <;> simp only [ModAction.run] <;> (repeat' split) <;>
    first | rfl | exact absurd rfl (h _)

end Places

/-! ## Counts and requests of the system -/

namespace ModuleSystem

variable {Task Pid : Type}

/-- A request that is not queued yet belongs to the call that has allocated it. -/
structure Requests (s : ModuleSystem Task Pid) : Prop where
  owner : ∀ (r : Nat) (q : AcKillReq Task Pid), s.shared.requests[r]? = some q →
    q.place = .fresh → ∃ c, s.calls[q.call]? = some c ∧ c.place.request = some r
  owned : ∀ (i : Nat) (c : ModCall Task Pid) (r : Nat), s.calls[i]? = some c →
    c.place.request = some r → ∃ q, s.shared.requests[r]? = some q ∧ q.place = .fresh ∧ q.call = i ∧
      (c.place = .getTaskPid r → q.pid = none)

theorem Requests.congr {s s' : ModuleSystem Task Pid} (h : s.Requests)
    (hcalls : s'.calls = s.calls) (hrequests : s'.shared.requests = s.shared.requests) :
    s'.Requests := by
  constructor
  · rw [hcalls, hrequests]
    exact h.owner
  · rw [hcalls, hrequests]
    exact h.owned

section Counts

variable [DecidableEq Task] [DecidableEq Pid]

/-- The references to a task that calls and workers hold. -/
def lentTasks (s : ModuleSystem Task Pid) (t : Task) : Int :=
  holders (fun c => c.place.heldTask) s.calls t + holders AcKillReq.heldTask s.shared.requests t

/-- The references to a pid structure that calls and requests hold. -/
def lentPids (s : ModuleSystem Task Pid) (p : Pid) : Int :=
  holders (fun c => c.place.heldPid) s.calls p + holders AcKillReq.heldPid s.shared.requests p

/-- The call `i` has done the action `a`. -/
def acted (s : ModuleSystem Task Pid) (i : Nat) (a : ModAction Task Pid)
    (c : ModCall Task Pid) : ModuleSystem Task Pid :=
  { s with calls := s.calls.set i c, shared := a.run i s.shared }

variable {s : ModuleSystem Task Pid} {i : Nat} {c c' : ModCall Task Pid}
  {a : ModAction Task Pid}

omit [DecidableEq Pid] in
theorem one_le_lentTasks (hc : s.calls[i]? = some c) {t : Task} (ht : c.place.heldTask = some t) :
    1 ≤ s.lentTasks t := by
  have hcall := one_le_holders (fun c : ModCall Task Pid => c.place.heldTask)
    (List.mem_of_getElem? hc) ht
  have hrest := holders_nonneg AcKillReq.heldTask s.shared.requests t
  unfold lentTasks
  omega

omit [DecidableEq Task] in
theorem one_le_lentPids (hc : s.calls[i]? = some c) {p : Pid} (hp : c.place.heldPid = some p) :
    1 ≤ s.lentPids p := by
  have hcall := one_le_holders (fun c : ModCall Task Pid => c.place.heldPid)
    (List.mem_of_getElem? hc) hp
  have hrest := holders_nonneg AcKillReq.heldPid s.shared.requests p
  unfold lentPids
  omega

/-- What an action of a call changes in the references that requests hold. -/
theorem Requests.held_run (hreq : s.Requests) (hc : s.calls[i]? = some c)
    (hgoes : c.Goes s.tasks s.shared c.place a c'.place)
    (hqueue : ∀ r, a = .queueWork r → s.shared.queue = .live) :
    (∀ t, holders AcKillReq.heldTask (a.run i s.shared).requests t =
        holders AcKillReq.heldTask s.shared.requests t) ∧
      ∀ p, holders AcKillReq.heldPid (a.run i s.shared).requests p =
        holders AcKillReq.heldPid s.shared.requests p + share a.storesPid p := by
  rcases hgoes.request_cases with ⟨rfl, -, -⟩ | ⟨r, rfl, hplace, -⟩ | ⟨r, rfl, hplace, -⟩ |
    ⟨hspares, -, -⟩
  · simp only [ModAction.run, holders_append]
    exact ⟨fun t => Int.add_zero _, fun p => rfl⟩
  · rcases hreq.owned i c r hc (by rw [hplace]; rfl) with ⟨q, hq, hfresh, -, hpid⟩
    have hnone : q.heldPid = none := by
      rw [AcKillReq.heldPid, hfresh]
      exact hpid hplace
    simp only [ModAction.run, hq, if_pos hfresh]
    constructor
    · intro t
      rw [holders_set _ hq]
      simp [AcKillReq.heldTask, hfresh]
    · intro p
      rw [holders_set _ hq, hnone]
      simp [AcKillReq.heldPid, hfresh, ModAction.storesPid]
  · rcases hreq.owned i c r hc (by rw [hplace]; rfl) with ⟨q, hq, hfresh, -, -⟩
    simp only [ModAction.run, hq, if_pos (And.intro hfresh (hqueue r rfl))]
    constructor
    · intro t
      rw [holders_set _ hq]
      simp [AcKillReq.heldTask, hfresh]
    · intro p
      rw [holders_set _ hq]
      simp [AcKillReq.heldPid, hfresh, ModAction.storesPid]
  · rw [ModAction.run_requests i hspares]
    refine ⟨fun t => rfl, fun p => ?_⟩
    cases a <;> first | exact (Int.add_zero _).symm | cases hspares

theorem Requests.safe (hreq : s.Requests) (hc : s.calls[i]? = some c)
    (hgoes : c.Goes s.tasks s.shared c.place a c'.place)
    (hqueue : ∀ r, a = .queueWork r → s.shared.queue = .live) :
    a.Safe s.shared s.lentTasks s.lentPids where
  dropsTask t ht := one_le_lentTasks hc (hgoes.held_of_dropsTask ht)
  dropsPid p hp := one_le_lentPids hc (hgoes.held_of_dropsPid hp)
  sets := by
    rintro r p process rfl
    rcases hgoes.request_cases with ⟨h, -⟩ | ⟨r', h, hplace, -⟩ | ⟨r', h, -⟩ | ⟨h, -⟩
    · cases h
    · cases h
      rcases hreq.owned i c r hc (by rw [hplace]; rfl) with ⟨q, hq, hfresh, -⟩
      exact ⟨q, hq, hfresh⟩
    · cases h
    · cases h
  queues := by
    rintro r rfl
    refine ⟨hqueue r rfl, ?_⟩
    rcases hgoes.request_cases with ⟨h, -⟩ | ⟨r', h, -⟩ | ⟨r', h, hplace, -⟩ | ⟨h, -⟩
    · cases h
    · cases h
    · cases h
      rcases hreq.owned i c r hc (by rw [hplace]; rfl) with ⟨q, hq, hfresh, -⟩
      exact ⟨q, hq, hfresh⟩
    · cases h

/-- The counts stay exact when a call executes a statement. -/
theorem counted_acted (hcount : s.shared.Counted s.lentTasks s.lentPids) (hreq : s.Requests)
    (hc : s.calls[i]? = some c) (hgoes : c.Goes s.tasks s.shared c.place a c'.place)
    (hqueue : ∀ r, a = .queueWork r → s.shared.queue = .live) :
    (s.acted i a c').shared.Counted (s.acted i a c').lentTasks (s.acted i a c').lentPids ∧
      (s.acted i a c').shared.faulted = s.shared.faulted := by
  rcases ModAction.run_counted i hcount (hreq.safe hc hgoes hqueue) with ⟨hrun, hfault⟩
  rcases hreq.held_run hc hgoes hqueue with ⟨htask, hpid⟩
  refine ⟨hrun.congr ?_ ?_, hfault⟩
  · intro t
    have hset := holders_set (fun c : ModCall Task Pid => c.place.heldTask) hc c' t
    have hmove := hgoes.heldTask t
    simp only [lentTasks, acted, htask t]
    omega
  · intro p
    have hset := holders_set (fun c : ModCall Task Pid => c.place.heldPid) hc c' p
    have hmove := hgoes.heldPid p
    simp only [lentPids, acted, hpid p]
    omega

/-- The worker has done the action `a` for the request `q`. -/
def worked (s : ModuleSystem Task Pid) (r : Nat) (q : AcKillReq Task Pid)
    (a : ModAction Task Pid) (place : WorkPlace Task) : ModuleSystem Task Pid :=
  let sh := a.run q.call s.shared
  { s with shared := { sh with requests := sh.requests.set r { q with place := place } } }

variable {r : Nat} {q : AcKillReq Task Pid} {place : WorkPlace Task}

omit [DecidableEq Pid] in
theorem one_le_lentTasks_request (hq : s.shared.requests[r]? = some q) {t : Task}
    (ht : q.heldTask = some t) : 1 ≤ s.lentTasks t := by
  have hrequest := one_le_holders AcKillReq.heldTask (List.mem_of_getElem? hq) ht
  have hrest := holders_nonneg (fun c : ModCall Task Pid => c.place.heldTask) s.calls t
  unfold lentTasks
  omega

omit [DecidableEq Task] in
theorem one_le_lentPids_request (hq : s.shared.requests[r]? = some q) {p : Pid}
    (hp : q.heldPid = some p) : 1 ≤ s.lentPids p := by
  have hrequest := one_le_holders AcKillReq.heldPid (List.mem_of_getElem? hq) hp
  have hrest := holders_nonneg (fun c : ModCall Task Pid => c.place.heldPid) s.calls p
  unfold lentPids
  omega

/-- The counts stay exact when the worker executes a statement. -/
theorem counted_worked (hcount : s.shared.Counted s.lentTasks s.lentPids)
    (hq : s.shared.requests[r]? = some q) (hgoes : q.Goes s.tasks r q.place a place) :
    (s.worked r q a place).shared.Counted (s.worked r q a place).lentTasks
        (s.worked r q a place).lentPids ∧
      (s.worked r q a place).shared.faulted = s.shared.faulted := by
  have hspares := hgoes.sparesRequests
  have hsafe : a.Safe s.shared s.lentTasks s.lentPids :=
    { dropsTask := fun t ht => one_le_lentTasks_request hq (hgoes.held_of_dropsTask ht)
      dropsPid := fun p hp => one_le_lentPids_request hq (hgoes.held_of_dropsPid hp)
      sets := fun r' p process ha => by rw [ha] at hspares; cases hspares
      queues := fun r' ha => by rw [ha] at hspares; cases hspares }
  rcases ModAction.run_counted q.call hcount hsafe with ⟨hrun, hfault⟩
  have hrequests : (a.run q.call s.shared).requests = s.shared.requests :=
    ModAction.run_requests q.call hspares
  refine ⟨⟨?_, ?_⟩, hfault⟩
  · rcases hrun.reg with ⟨base, hwf, hreg⟩
    refine ⟨base, hwf, hreg.trans (congrArg base.lend (funext ?_))⟩
    intro t
    have hset := holders_set AcKillReq.heldTask hq { q with place := place } t
    have hmove := hgoes.heldTask t
    simp only [lentTasks, worked, hrequests]
    omega
  · intro p
    have hset := holders_set AcKillReq.heldPid hq { q with place := place } p
    have hmove := hgoes.heldPid p
    have hpid := hrun.pidRefs p
    have hstores := hgoes.storesPid
    rw [hstores] at hpid
    simp only [lentPids, worked, hrequests, share_none] at hpid ⊢
    omega

omit [DecidableEq Task] [DecidableEq Pid] in
/-- The owner of a request is not a call that has another one, or none. -/
theorem Requests.owner_other (hreq : s.Requests) (hc : s.calls[i]? = some c)
    (hq : s.shared.requests[r]? = some q) (hfresh : q.place = .fresh)
    (hne : c.place.request ≠ some r) :
    ∃ o, (s.calls.set i c')[q.call]? = some o ∧ o.place.request = some r := by
  rcases hreq.owner r q hq hfresh with ⟨o, ho, hor⟩
  have hcall : q.call ≠ i := by
    intro heq
    rw [heq, hc] at ho
    cases ho
    exact hne hor
  exact ⟨o, by rw [List.getElem?_set_ne (Ne.symm hcall), ho], hor⟩

omit [DecidableEq Task] [DecidableEq Pid] in
/-- A call that has no request goes on without one, and the requests stay as they are. -/
theorem Requests.frame (hreq : s.Requests) {s' : ModuleSystem Task Pid}
    (hc : s.calls[i]? = some c) (hcalls : s'.calls = s.calls.set i c')
    (hrequests : s'.shared.requests = s.shared.requests) (hnone : c.place.request = none)
    (hnone' : c'.place.request = none) : s'.Requests where
  owner r q hq hfresh := by
    rw [hrequests] at hq
    rw [hcalls]
    exact hreq.owner_other hc hq hfresh (by rw [hnone]; exact nofun)
  owned j d r hd hdr := by
    rw [hcalls] at hd
    rw [hrequests]
    rcases getElem?_set_cases hd with ⟨rfl, rfl⟩ | ⟨-, hd⟩
    · rw [hnone'] at hdr
      cases hdr
    · exact hreq.owned j d r hd hdr

omit [DecidableEq Task] [DecidableEq Pid] in
/-- A call changes its own request: it keeps it, or lets go of it. -/
theorem Requests.replaced (hreq : s.Requests) {s' : ModuleSystem Task Pid}
    (q' : AcKillReq Task Pid) (hc : s.calls[i]? = some c) (hr : c.place.request = some r)
    (hq : s.shared.requests[r]? = some q) (hcall : q.call = i)
    (hcalls : s'.calls = s.calls.set i c')
    (hrequests : s'.shared.requests = s.shared.requests.set r q')
    (hnext : (c'.place = .queueWork r ∧ q'.place = .fresh ∧ q'.call = i) ∨
      (c'.place.request = none ∧ q'.place ≠ .fresh)) : s'.Requests where
  owner r' p hp hfresh := by
    rw [hrequests] at hp
    rw [hcalls]
    rcases getElem?_set_cases hp with ⟨rfl, rfl⟩ | ⟨hne, hp⟩
    · rcases hnext with ⟨hplace', -, hcall'⟩ | ⟨-, hnot⟩
      · refine ⟨c', ?_, by rw [hplace']; rfl⟩
        rw [hcall']
        exact List.getElem?_set_self (List.getElem?_eq_some_iff.1 hc).1
      · exact absurd hfresh hnot
    · apply hreq.owner_other hc hp hfresh
      rw [hr]
      exact fun h => hne (Option.some.inj h).symm
  owned j d r' hd hdr := by
    rw [hcalls] at hd
    rw [hrequests]
    rcases getElem?_set_cases hd with ⟨rfl, rfl⟩ | ⟨hji, hd⟩
    · rcases hnext with ⟨hplace', hfresh', hcall'⟩ | ⟨hnone, -⟩
      · rw [hplace'] at hdr ⊢
        cases hdr
        exact ⟨q', List.getElem?_set_self (List.getElem?_eq_some_iff.1 hq).1, hfresh', hcall',
          nofun⟩
      · rw [hnone] at hdr
        cases hdr
    · rcases hreq.owned j d r' hd hdr with ⟨p, hp, hfresh, hpcall, hpid⟩
      have hne : r' ≠ r := by
        rintro rfl
        rw [hq] at hp
        cases hp
        exact hji (hpcall.symm.trans hcall)
      exact ⟨p, by rw [List.getElem?_set_ne (Ne.symm hne), hp], hfresh, hpcall, hpid⟩

/-- A statement of a call leaves every request with its owner. -/
theorem Requests.acted (hreq : s.Requests) (hc : s.calls[i]? = some c)
    (hgoes : c.Goes s.tasks s.shared c.place a c'.place)
    (hqueue : ∀ r, a = .queueWork r → s.shared.queue = .live) : (s.acted i a c').Requests := by
  rcases hgoes.request_cases with ⟨rfl, hplace, hplace'⟩ | ⟨r, rfl, hplace, hplace'⟩ |
    ⟨r, rfl, hplace, hnone'⟩ | ⟨hspares, hnone, hnone'⟩
  · constructor
    · intro r q hq hfresh
      rcases getElem?_concat_cases hq with hq | ⟨rfl, rfl⟩
      · exact hreq.owner_other hc hq hfresh (by simp [hplace, ModPlace.request])
      · refine ⟨c', List.getElem?_set_self (List.getElem?_eq_some_iff.1 hc).1, ?_⟩
        rw [hplace']
        rfl
    · intro j d r hd hdr
      rcases getElem?_set_cases hd with ⟨rfl, rfl⟩ | ⟨hji, hd⟩
      · rw [hplace'] at hdr
        cases hdr
        exact ⟨_, List.getElem?_concat_length, rfl, rfl, fun _ => rfl⟩
      · rcases hreq.owned j d r hd hdr with ⟨q, hq, hrest⟩
        exact ⟨q, getElem?_concat_some hq _, hrest⟩
  · have hr : c.place.request = some r := by
      rw [hplace]
      rfl
    rcases hreq.owned i c r hc hr with ⟨q, hq, hfresh, hcall, -⟩
    apply hreq.replaced { q with pid := s.tasks.home c.cur, process := s.tasks.process c.cur }
      hc hr hq hcall rfl
    · simp only [ModuleSystem.acted, ModAction.run, hq, if_pos hfresh]
    · exact Or.inl ⟨hplace', hfresh, hcall⟩
  · have hr : c.place.request = some r := by
      rw [hplace]
      rfl
    rcases hreq.owned i c r hc hr with ⟨q, hq, hfresh, hcall, -⟩
    apply hreq.replaced { q with place := .queued } hc hr hq hcall rfl
    · simp only [ModuleSystem.acted, ModAction.run, hq,
        if_pos (And.intro hfresh (hqueue r rfl))]
    · exact Or.inr ⟨hnone', by simp⟩
  · exact hreq.frame hc rfl (ModAction.run_requests i hspares) hnone hnone'

theorem Requests.worked (hreq : s.Requests) (hq : s.shared.requests[r]? = some q)
    (hgoes : q.Goes s.tasks r q.place a place) : (s.worked r q a place).Requests := by
  have hrequests : (s.worked r q a place).shared.requests =
      s.shared.requests.set r { q with place := place } := by
    simp only [ModuleSystem.worked, ModAction.run_requests q.call hgoes.sparesRequests]
  constructor
  · intro r' q' hq' hfresh
    rw [hrequests] at hq'
    rcases getElem?_set_cases hq' with ⟨rfl, rfl⟩ | ⟨hne, hq'⟩
    · exact absurd hfresh hgoes.not_fresh.2
    · exact hreq.owner r' q' hq' hfresh
  · intro j d r' hd hdr
    rcases hreq.owned j d r' hd hdr with ⟨q', hq', hfresh, hrest⟩
    have hne : r' ≠ r := by
      rintro rfl
      rw [hq] at hq'
      cases hq'
      exact hgoes.not_fresh.1 hfresh
    refine ⟨q', ?_, hfresh, hrest⟩
    rw [hrequests, List.getElem?_set_ne (Ne.symm hne), hq']

omit [DecidableEq Task] [DecidableEq Pid] in
/-- A new call has no request. -/
theorem Requests.entered (hreq : s.Requests) (hnone : c.place.request = none) :
    ({ s with calls := s.calls ++ [c] } : ModuleSystem Task Pid).Requests where
  owner r q hq hfresh := by
    rcases hreq.owner r q hq hfresh with ⟨o, ho, hor⟩
    exact ⟨o, getElem?_concat_some ho c, hor⟩
  owned j d r hd hdr := by
    rcases getElem?_concat_cases hd with hd | ⟨-, rfl⟩
    · exact hreq.owned j d r hd hdr
    · rw [hnone] at hdr
      cases hdr

end Counts

end ModuleSystem

end Anticheat
