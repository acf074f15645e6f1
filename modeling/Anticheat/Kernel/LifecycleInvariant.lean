import Anticheat.Kernel.LifecycleKills

/-!
# The module from load to unload

The counts, the requests, the stages and the targets of the kills are kept by every step, as long
as the pin is balanced: an UNLOCK that gives back a reference which is not there lets the module
be unloaded while files are open.

Main results:

- Theorem {lit}`ModuleSystem.Inv.step`: every step keeps the invariant.
- Theorem {lit}`module_never_faults`: no structure is used or dropped that is not held, no work is
  queued without a queue, no probe is taken back that is not registered, and no code runs after
  the module is gone.
- Theorem {lit}`module_ends_clean`: a module that is gone has left nothing behind.
- Theorem {lit}`kills_are_just`: whom the worker kills, and how often.
-/

namespace Anticheat

open Foundation

namespace ModuleSystem

variable {Task Pid : Type} [DecidableEq Task] [DecidableEq Pid]

/-- The invariant of the module. -/
structure Inv (s : ModuleSystem Task Pid) : Prop where
  counted : s.shared.Counted s.lentTasks s.lentPids
  unfaulted : s.shared.faulted = false
  requests : s.Requests
  stages : s.Stages
  kills : s.Kills

variable {s s' : ModuleSystem Task Pid}

theorem counted_initial (tasks : TaskTable Task Pid) :
    (initial tasks).shared.Counted (initial tasks).lentTasks (initial tasks).lentPids where
  reg := by
    refine ⟨Registry.empty Task, Registry.empty_wf, ?_⟩
    simp [initial, Registry.lend, lentTasks]
  pidRefs p := by
    simp [initial, lentPids]

omit [DecidableEq Task] [DecidableEq Pid] in
theorem stages_initial (tasks : TaskTable Task Pid) : (initial tasks).Stages where
  queue := rfl
  armed p hp := by cases hp
  flags _ _ := rfl
  running c hc := by cases hc
  opened c hc := by cases hc
  live hopen := by cases hopen
  device hdevice := by cases hdevice
  settled _ q hq := by cases hq
  empty _ := by
    constructor
    · simp [initial, Registry.registered, Registry.empty, SlotTable.occupied,
        SlotTable.replicate]
    · intro c hc
      cases hc
  pins := by
    constructor
    · exact rfl
    · exact Int.le_refl 0

omit [DecidableEq Task] [DecidableEq Pid] in
theorem kills_initial {tasks : TaskTable Task Pid}
    (htasks : ∀ t p, tasks.home t = some p ↔ tasks.attached p = some t) :
    (initial tasks).Kills where
  consistent := htasks
  target q hq := by cases hq
  sending q hq := by cases hq
  sent e he := by cases he
  once := List.nodup_nil
  just c hc := by cases hc
  caller c hc := by cases hc
  made r q hq := by simp [initial] at hq
  asked r q c hq := by simp [initial] at hq
  single r r' q q' hq := by simp [initial] at hq

theorem inv_initial {tasks : TaskTable Task Pid}
    (htasks : ∀ t p, tasks.home t = some p ↔ tasks.attached p = some t) :
    (initial tasks).Inv where
  counted := counted_initial tasks
  unfaulted := rfl
  requests :=
    { owner := fun r q hq => by simp [initial] at hq
      owned := fun i c r hc => by simp [initial] at hc }
  stages := stages_initial tasks
  kills := kills_initial htasks

/-! ## Calls and the worker -/

omit [DecidableEq Task] [DecidableEq Pid] in
theorem Stages.not_gone_of_running (h : s.Stages) {c : ModCall Task Pid} (hc : c ∈ s.calls)
    (hrunning : c.place.isReturned = false) : s.stage.isGone = false := by
  cases hstage : s.stage with
  | gone why =>
      have hreturned := h.returned (by rw [hstage]; rfl) hc
      rw [hrunning] at hreturned
      cases hreturned
  | _ => rfl

/-- The call `i` executes its next statement, and nothing else happens. -/
theorem Inv.advance_eq (h : s.Inv) {i : Nat} {k : KernelAnswers Task Pid}
    (hstep : s.advance i k = some s') :
    ∃ c a c', s.calls[i]? = some c ∧
      c.plan s.tasks k (s.stage = .live) s.shared = some (a, c') ∧ s' = s.acted i a c' := by
  unfold ModuleSystem.advance at hstep
  cases hc : s.calls[i]? with
  | none => simp [hc] at hstep
  | some c =>
      cases hplan : c.plan s.tasks k (s.stage = .live) s.shared with
      | none => simp [hc, hplan] at hstep
      | some next =>
          rcases next with ⟨a, c'⟩
          have hgone := h.stages.not_gone_of_running (List.mem_of_getElem? hc)
            (ModCall.running_of_plan hplan)
          have huse : s.shared.use c.place.usedTask c.place.usedPid = s.shared :=
            h.counted.use_eq
              (fun t ht => one_le_lentTasks hc (ModPlace.held_of_usedTask ht))
              (fun p hp => one_le_lentPids hc (ModPlace.held_of_usedPid hp))
          simp only [hc, hplan, huse, hgone, Bool.false_eq_true, if_false,
            Option.some.injEq] at hstep
          exact ⟨c, a, c', rfl, hplan, hstep.symm⟩

theorem Inv.advance (h : s.Inv) {i : Nat} {k : KernelAnswers Task Pid}
    (hrange : s.PinInRange (.advance i k)) (hstep : s.advance i k = some s') : s'.Inv := by
  rcases h.advance_eq hstep with ⟨c, a, c', hc, hplan, rfl⟩
  rcases ModCall.plan_goes hplan with ⟨hgoes, hsite, -, -⟩
  have hrunning := ModCall.running_of_plan hplan
  have hqueue : ∀ r, a = .queueWork r → s.shared.queue = .live :=
    fun _ _ => h.stages.queue_live (List.mem_of_getElem? hc) hrunning
  rcases counted_acted h.counted h.requests hc hgoes hqueue with ⟨hcount, hfault⟩
  refine ⟨hcount, hfault.trans h.unfaulted, h.requests.acted hc hgoes hqueue, ?_,
    h.kills.acted h.requests hc hplan hqueue⟩
  apply h.stages.acted hc hrunning hgoes hsite
  intro call hplace
  simpa [PinInRange, pinCall, hc, hplace] using hrange

theorem Inv.work (h : s.Inv) {r : Nat} (hstep : s.work r = some s') : s'.Inv := by
  unfold ModuleSystem.work at hstep
  cases hq : s.shared.requests[r]? with
  | none => simp [hq] at hstep
  | some q =>
      cases hplan : q.plan s.tasks r with
      | none => simp [hq, hplan] at hstep
      | some next =>
          rcases next with ⟨a, place⟩
          have hgoes := AcKillReq.plan_goes hplan
          have hgone : s.stage.isGone = false := by
            cases hstage : s.stage with
            | gone why =>
                have hfreed := h.stages.settled (by rw [hstage]; rfl) q (List.mem_of_getElem? hq)
                exact absurd hfreed hgoes.not_freed
            | _ => rfl
          have huse : s.shared.use q.usedTask q.usedPid = s.shared :=
            h.counted.use_eq
              (fun t ht => one_le_lentTasks_request hq (AcKillReq.held_of_usedTask ht))
              (fun p hp => one_le_lentPids_request hq (AcKillReq.held_of_usedPid hp))
          simp only [hq, hplan, huse, hgone, Bool.false_eq_true, if_false,
            Option.some.injEq] at hstep
          subst hstep
          rcases counted_worked h.counted hq hgoes with ⟨hcount, hfault⟩
          exact ⟨hcount, hfault.trans h.unfaulted, h.requests.worked hq hgoes,
            h.stages.worked hq hgoes, h.kills.worked hq hgoes⟩

/-! ## New calls -/

theorem Inv.entered (h : s.Inv) {c : ModCall Task Pid} (hrequest : c.place.request = none)
    (htask : c.place.heldTask = none) (hpid : c.place.heldPid = none) (hjust : c.Just)
    (hcaller : (s.tasks.home c.cur).isSome = true ∧ s.tasks.process c.cur = c.process)
    (hstages : ({ s with calls := s.calls ++ [c] } : ModuleSystem Task Pid).Stages) :
    ({ s with calls := s.calls ++ [c] } : ModuleSystem Task Pid).Inv where
  counted := by
    apply h.counted.congr
    · intro t
      simp [lentTasks, holders_append, htask]
    · intro p
      simp [lentPids, holders_append, hpid]
  unfaulted := h.unfaulted
  requests := h.requests.entered hrequest
  stages := hstages
  kills := h.kills.entered hjust hcaller

omit [DecidableEq Task] [DecidableEq Pid] in
theorem Stages.entered (h : s.Stages) {c : ModCall Task Pid}
    (hprobe : ∀ p, c.site = .probe p → s.armed p = true)
    (hfile : ∀ f, c.site = .file f → s.files[f]? = some true)
    (hempty : s.stage.isEmpty = true → c.place.registers = false) :
    ({ s with calls := s.calls ++ [c] } : ModuleSystem Task Pid).Stages where
  queue := h.queue
  armed := h.armed
  flags := h.flags
  running := by
    intro d hd p hsite hrunning
    rcases List.mem_append.1 hd with hd | hd
    · exact h.running d hd p hsite hrunning
    · rw [List.mem_singleton.1 hd] at hsite
      exact Or.inl (hprobe p hsite)
  opened := by
    intro d hd f hsite hrunning
    rcases List.mem_append.1 hd with hd | hd
    · exact h.opened d hd f hsite hrunning
    · rw [List.mem_singleton.1 hd] at hsite
      exact hfile f hsite
  live := h.live
  device := h.device
  settled := h.settled
  empty := by
    intro hstage
    rcases h.empty hstage with ⟨hreg, hcalls⟩
    refine ⟨hreg, ?_⟩
    intro d hd
    rcases List.mem_append.1 hd with hd | hd
    · exact hcalls d hd
    · rw [List.mem_singleton.1 hd]
      exact hempty hstage
  pins := h.pins

theorem Inv.hit (h : s.Inv) {p : AcProbe} {cur : Task} (args : PtRegs) (ret : BitVec 64)
    (harmed : s.armed p = true) (hcur : (s.tasks.home cur).isSome = true) :
    ({ s with calls := s.calls ++
      [{ site := .probe p, cur := cur, args := args, place := p.entry ret
         process := s.tasks.process cur }] } : ModuleSystem Task Pid).Inv := by
  apply h.entered
  · cases p <;> rfl
  · cases p <;> rfl
  · cases p <;> rfl
  · constructor
    · intro hplace
      cases p <;> first | exact ⟨_, rfl⟩ | cases hplace
    · intro hplace
      cases p <;> cases hplace
    · intro hplace
      cases p <;> cases hplace
  · exact ⟨hcur, rfl⟩
  · apply h.stages.entered
    · intro p' hsite
      cases hsite
      exact harmed
    · intro f hsite
      cases hsite
    · intro _
      cases p <;> rfl

theorem Inv.ioctl (h : s.Inv) {f : Nat} {cur : Task} (cmd : ModCommand)
    (hopen : s.files[f]? = some true) (hcur : (s.tasks.home cur).isSome = true) :
    ({ s with calls := s.calls ++
      [{ site := .file f, cur := cur, args := fun _ => 0, place := .ioctl cmd
         process := s.tasks.process cur }] } : ModuleSystem Task Pid).Inv := by
  apply h.entered rfl rfl rfl
  · exact ⟨nofun, nofun, nofun⟩
  · exact ⟨hcur, rfl⟩
  · apply h.stages.entered
    · intro p hsite
      cases hsite
    · intro f' hsite
      cases hsite
      exact hopen
    · intro hempty
      rw [h.stages.live (List.mem_of_getElem? hopen)] at hempty
      cases hempty

/-! ## The loader and the files -/

omit [DecidableEq Pid] in
/-- What the loader leaves alone.  Only `ac_clear_protected` changes the registry. -/
theorem load_frame {fails : Option Errno} (hload : s.load fails = some s') :
    s'.calls = s.calls ∧ s'.tasks = s.tasks ∧ s'.shared.requests = s.shared.requests ∧
      s'.shared.sent = s.shared.sent ∧ s'.shared.pidRefs = s.shared.pidRefs ∧
      (s'.shared.reg = s.shared.reg ∨ s'.shared.reg = acClearProtected s.shared.reg) := by
  unfold ModuleSystem.load ModuleSystem.register ModuleSystem.unregister at hload
  split at hload
  all_goals (repeat' split at hload)
  all_goals cases hload
  all_goals first
    | exact ⟨rfl, rfl, rfl, rfl, rfl, Or.inl rfl⟩
    | exact ⟨rfl, rfl, rfl, rfl, rfl, Or.inr rfl⟩

theorem Inv.load (h : s.Inv) {fails : Option Errno} (hload : s.load fails = some s') :
    s'.Inv := by
  rcases load_frame hload with ⟨hcalls, htasks, hrequests, hsent, hpids, hreg⟩
  rcases h.stages.load h.requests hload with ⟨hstages, hfault⟩
  have hlent : s'.lentTasks = s.lentTasks := by
    funext t
    rw [lentTasks, hcalls, hrequests, ← lentTasks]
  have hlentPids : s'.lentPids = s.lentPids := by
    funext p
    rw [lentPids, hcalls, hrequests, ← lentPids]
  constructor
  case counted =>
    rw [hlent, hlentPids]
    constructor
    · rcases h.counted.reg with ⟨base, hwf, hbase⟩
      rcases hreg with hreg | hreg
      · exact ⟨base, hwf, hreg.trans hbase⟩
      · refine ⟨acClearProtected base, (acClearProtected_spec hwf).1, ?_⟩
        rw [hreg, hbase, acClearProtected_lend]
    · rw [hpids]
      exact h.counted.pidRefs
  case unfaulted => exact hfault.trans h.unfaulted
  case requests => exact h.requests.congr hcalls hrequests
  case stages => exact hstages
  case kills => exact h.kills.congr hcalls htasks hrequests hsent

omit [DecidableEq Task] [DecidableEq Pid] in
/-- A module to which nobody holds a reference has no open file, if the pin is balanced. -/
theorem Stages.no_open_file (h : s.Stages) (hzero : s.refcount = 0) : true ∉ s.files := by
  intro hopen
  have hpins := (h.pins.1.balanced h.pins.2).released_le
  have hcount := List.count_pos_iff.2 hopen
  unfold refcount at hzero
  omega

omit [DecidableEq Task] [DecidableEq Pid] in
theorem Stages.unload (h : s.Stages) (hstage : s.stage = .live) (hzero : s.refcount = 0) :
    ({ s with stage := .miscDeregister } : ModuleSystem Task Pid).Stages where
  queue := by
    rw [h.queue, hstage]
    rfl
  armed p _ := ⟨Nat.zero_le _, p.index_lt⟩
  flags p _ := h.flags p (by rw [hstage]; exact Nat.zero_le _)
  running c hc p hsite hrunning := by
    have hold := h.running c hc p hsite hrunning
    rw [hstage] at hold
    exact hold
  opened := h.opened
  live hopen := absurd hopen (h.no_open_file hzero)
  device _ := Or.inr rfl
  settled := nofun
  empty := nofun
  pins := h.pins

omit [DecidableEq Task] [DecidableEq Pid] in
theorem Stages.openFile (h : s.Stages) (hstage : s.stage = .live) (capable : Bool) :
    ({ s with files := s.files ++ [capable] } : ModuleSystem Task Pid).Stages where
  queue := h.queue
  armed := h.armed
  flags := h.flags
  running := h.running
  opened c hc f hsite hrunning := getElem?_concat_some (h.opened c hc f hsite hrunning) capable
  live _ := hstage
  device := h.device
  settled := h.settled
  empty := h.empty
  pins := h.pins

omit [DecidableEq Task] [DecidableEq Pid] in
theorem Stages.release (h : s.Stages) {f : Nat} (hunused : s.unused f = true) :
    ({ s with files := s.files.set f false } : ModuleSystem Task Pid).Stages where
  queue := h.queue
  armed := h.armed
  flags := h.flags
  running := h.running
  opened := by
    intro c hc f' hsite hrunning
    have hne : f ≠ f' := by
      rintro rfl
      have hcall := List.all_eq_true.1 hunused c hc
      rw [hsite, hrunning] at hcall
      simp at hcall
    simp only [List.getElem?_set_ne hne]
    exact h.opened c hc f' hsite hrunning
  live := by
    intro hopen
    apply h.live
    rcases List.mem_or_eq_of_mem_set hopen with hopen | hopen
    · exact hopen
    · cases hopen
  device := h.device
  settled := h.settled
  empty := h.empty
  pins := h.pins

/-- A step that leaves the calls and what they share alone. -/
theorem Inv.framed (h : s.Inv) (hcalls : s'.calls = s.calls) (hshared : s'.shared = s.shared)
    (hstages : s'.Stages) (hkills : s'.Kills) : s'.Inv where
  counted := by
    rw [hshared]
    apply h.counted.congr
    · intro t
      rw [lentTasks, hcalls, hshared, ← lentTasks]
    · intro p
      rw [lentPids, hcalls, hshared, ← lentPids]
  unfaulted := by
    rw [hshared]
    exact h.unfaulted
  requests := h.requests.congr hcalls (by rw [hshared])
  stages := hstages
  kills := hkills

omit [DecidableEq Task] [DecidableEq Pid] in
theorem Stages.retasked (h : s.Stages) (tasks : TaskTable Task Pid) :
    ({ s with tasks := tasks } : ModuleSystem Task Pid).Stages where
  queue := h.queue
  armed := h.armed
  flags := h.flags
  running := h.running
  opened := h.opened
  live := h.live
  device := h.device
  settled := h.settled
  empty := h.empty
  pins := h.pins

/-! ## Every step -/

/-- Every step keeps the invariant, as long as the counter of the pin stays in range. -/
theorem Inv.step (h : s.Inv) {l : ModuleStep Task Pid} (hrange : s.PinInRange l)
    (hstep : s.step l = some s') : s'.Inv := by
  cases l with
  | loader fails => exact h.load hstep
  | unload =>
      by_cases hready : s.stage = .live ∧ s.refcount = 0
      · simp only [ModuleSystem.step, if_pos hready, Option.some.injEq] at hstep
        subst hstep
        exact h.framed rfl rfl (h.stages.unload hready.1 hready.2) (h.kills.congr rfl rfl rfl rfl)
      · simp [ModuleSystem.step, hready] at hstep
  | openFile capable =>
      by_cases hlive : s.stage = .live
      · simp only [ModuleSystem.step, if_pos hlive, Option.some.injEq] at hstep
        subst hstep
        exact h.framed rfl rfl (h.stages.openFile hlive capable) (h.kills.congr rfl rfl rfl rfl)
      · simp [ModuleSystem.step, hlive] at hstep
  | release f =>
      by_cases hready : s.files[f]? = some true ∧ s.unused f = true
      · have hlive := h.stages.live (List.mem_of_getElem? hready.1)
        have hthere : s.stage.isGone = false := by
          rw [hlive]
          rfl
        simp only [ModuleSystem.step, if_pos hready, hthere, Bool.false_eq_true, if_false,
          Option.some.injEq] at hstep
        subst hstep
        exact h.framed rfl rfl (h.stages.release hready.2) (h.kills.congr rfl rfl rfl rfl)
      · simp only [ModuleSystem.step, if_neg hready] at hstep
        cases hstep
  | ioctl f cur cmd =>
      by_cases hready : s.files[f]? = some true ∧ (s.tasks.home cur).isSome = true
      · simp only [ModuleSystem.step, if_pos hready, Option.some.injEq] at hstep
        subst hstep
        exact h.ioctl cmd hready.1 hready.2
      · simp only [ModuleSystem.step, if_neg hready] at hstep
        cases hstep
  | hit p cur args ret =>
      by_cases hready : s.armed p = true ∧ (s.tasks.home cur).isSome = true
      · simp only [ModuleSystem.step, if_pos hready, Option.some.injEq] at hstep
        subst hstep
        exact h.hit args ret hready.1 hready.2
      · simp only [ModuleSystem.step, if_neg hready] at hstep
        cases hstep
  | advance i k => exact h.advance hrange hstep
  | work r => exact h.work hstep
  | fork t p process =>
      by_cases hready : s.tasks.home t = none ∧ s.tasks.attached p = none ∧
          s.shared.reg.refs t ≤ 0 ∧ s.shared.pidRefs p ≤ 0
      · simp only [ModuleSystem.step, if_pos hready, Option.some.injEq] at hstep
        subst hstep
        rcases hready with ⟨hhome, hpid, htask, hrefs⟩
        exact h.framed rfl rfl (h.stages.retasked _)
          (h.kills.fork h.counted process hhome hpid htask hrefs)
      · simp only [ModuleSystem.step, if_neg hready] at hstep
        cases hstep
  | releaseTask t =>
      cases hhome : s.tasks.home t with
      | none => simp [ModuleSystem.step, hhome] at hstep
      | some p =>
          simp only [ModuleSystem.step, hhome] at hstep
          split at hstep
          · rename_i hleft
            cases hstep
            exact h.framed rfl rfl (h.stages.retasked _) (h.kills.releaseTask hhome hleft)
          · cases hstep
  | deThread leader t =>
      cases hleader : s.tasks.home leader with
      | none => simp [ModuleSystem.step, hleader] at hstep
      | some p =>
          cases ht : s.tasks.home t with
          | none => simp [ModuleSystem.step, hleader, ht] at hstep
          | some p' =>
              by_cases hprocess : s.tasks.process leader = s.tasks.process t
              · simp only [ModuleSystem.step, hleader, ht, if_pos hprocess,
                  Option.some.injEq] at hstep
                subst hstep
                exact h.framed rfl rfl (h.stages.retasked _)
                  (h.kills.deThread hleader ht hprocess)
              · simp [ModuleSystem.step, hleader, ht, hprocess] at hstep

/-- The invariant holds throughout every run whose pin stays in range. -/
theorem inv_always {tasks : TaskTable Task Pid}
    (htasks : ∀ t p, tasks.home t = some p ↔ tasks.attached p = some t)
    {steps : List (ModuleStep Task Pid)}
    (hrange : StepRun.Along step PinInRange (initial tasks) steps) :
    StepRun.Always step Inv (initial tasks) steps :=
  StepRun.always_of_along (fun _ _ _ h hp hstep => h.step hp hstep) (inv_initial htasks) hrange

/-- Nothing is left of the module: nothing is registered, allocated, queued, open or running, the
registry is empty, and every reference has been dropped. -/
structure Clean (s : ModuleSystem Task Pid) : Prop where
  queue : s.shared.queue = .absent
  device : s.device = false
  probes : ∀ p, s.armed p = false
  files : true ∉ s.files
  calls : ∀ c ∈ s.calls, c.place.isReturned = true
  requests : ∀ q ∈ s.shared.requests, q.place = .freed
  registry : s.shared.reg.registered = []
  tasks : ∀ t, s.shared.reg.refs t = 0
  pids : ∀ p, s.shared.pidRefs p = 0

theorem Inv.clean (h : s.Inv) (hgone : s.stage.isGone = true) : s.Clean := by
  have hidle : s.stage.isIdle = true ∧ s.stage.queue = .absent ∧ s.stage.bound = 0 ∧
      s.stage.isEmpty = true := by
    cases hstage : s.stage with
    | gone why => exact ⟨rfl, rfl, rfl, rfl⟩
    | _ =>
        rw [hstage] at hgone
        cases hgone
  have hcalls : ∀ c ∈ s.calls, c.place.isReturned = true :=
    fun c hc => h.stages.returned hidle.1 hc
  have hrequests := h.stages.settled hidle.2.1
  have hregistry := (h.stages.empty hidle.2.2.2).1
  have hnotLive : s.stage ≠ .live := by
    intro hstage
    rw [hstage] at hgone
    cases hgone
  constructor
  case queue => exact h.stages.queue.trans hidle.2.1
  case device =>
    apply h.stages.no_device
    · exact hnotLive
    · intro hstage
      rw [hstage] at hgone
      cases hgone
  case probes =>
    intro p
    apply Bool.eq_false_of_not_eq_true
    intro hp
    have hlt := (h.stages.armed p hp).2
    rw [hidle.2.2.1] at hlt
    exact absurd hlt (Nat.not_lt_zero _)
  case files =>
    intro hopen
    exact hnotLive (h.stages.live hopen)
  case calls => exact hcalls
  case requests => exact hrequests
  case registry => exact hregistry
  case tasks =>
    intro t
    rcases h.counted.reg with ⟨base, hwf, hreg⟩
    have hbase : base.registered = [] := by
      rw [hreg] at hregistry
      exact hregistry
    have hrefs := hwf.refs_eq t
    rw [hbase, if_neg List.not_mem_nil] at hrefs
    rw [hreg]
    simp only [Registry.lend, hrefs, lentTasks]
    rw [holders_eq_zero (fun c hc => ModPlace.heldTask_of_returned (hcalls c hc)),
      holders_eq_zero (fun q hq => by rw [AcKillReq.heldTask, hrequests q hq])]
    rfl
  case pids =>
    intro p
    rw [h.counted.pidRefs p, lentPids,
      holders_eq_zero (fun c hc => ModPlace.heldPid_of_returned (hcalls c hc)),
      holders_eq_zero (fun q hq => by rw [AcKillReq.heldPid, hrequests q hq])]
    rfl

end ModuleSystem

/-! ## A run -/

/-- Every task has the pid structure of its own number and is a process by itself. -/
def plainTasks : TaskTable Nat Nat where
  attached p := some p
  home t := some t
  process t := t

theorem plainTasks_consistent (t p : Nat) :
    plainTasks.home t = some p ↔ plainTasks.attached p = some t := by
  simp only [plainTasks, Option.some.injEq]
  exact eq_comm

/-- A kernel that finds every pid and has memory, with the policy to kill. -/
def plainAnswers : KernelAnswers Nat Nat where
  info t := { pid := t, comm := [] }
  findGetPid nr := some nr.toNat
  findPidNs _ nr := some nr.toNat
  policy := 1
  ok := true

/-- The frame of a native call that asks to attach to task 3. -/
def attachArgs : PtRegs
  | .di => 16
  | .si => 3
  | _ => 0

/-- The module is loaded, task 3 is protected, and task 5 tries to attach to it and is killed. -/
def attachAndKill : List (ModuleStep Nat Nat) :=
  List.flatten
    [List.replicate 9 (.loader none),
      [.openFile true, .ioctl 0 7 (.addProc 3 0 false)],
      List.replicate 7 (.advance 0 plainAnswers),
      [.hit (.ptrace .native) 5 attachArgs 0],
      List.replicate 11 (.advance 1 plainAnswers),
      List.replicate 5 (.work 0)]

/-- Then the module is unloaded. -/
def attachAndUnload : List (ModuleStep Nat Nat) :=
  List.flatten [attachAndKill, [.release 0, .unload], List.replicate 17 (.loader none)]

theorem attachAndUnload_inRange :
    StepRun.Along ModuleSystem.step ModuleSystem.PinInRange (ModuleSystem.initial plainTasks)
      attachAndUnload := by
  decide +kernel

/-! ## Runs -/

open ModuleSystem in
/-- Over every interleaving of loading and unloading, probe hits, ioctls, the worker and the
kernel's own tasks, with any outcome of what the module asks of the kernel: as long as the pin is
balanced, nothing is used that is not held, registered or there. -/
theorem module_never_faults {Task Pid : Type} [DecidableEq Task] [DecidableEq Pid]
    (tasks : TaskTable Task Pid)
    (htasks : ∀ t p, tasks.home t = some p ↔ tasks.attached p = some t)
    (steps : List (ModuleStep Task Pid))
    (hrange : StepRun.Along step PinInRange (initial tasks) steps) :
    StepRun.Always step (fun s => s.shared.faulted = false) (initial tasks) steps :=
  StepRun.Always.mono (fun _ h => h.unfaulted) (inv_always htasks hrange)

theorem attachAndUnload_never_faults :
    (StepRun.run ModuleSystem.step (ModuleSystem.initial plainTasks) attachAndUnload).isSome =
        true ∧
      StepRun.Always ModuleSystem.step (fun s => s.shared.faulted = false)
        (ModuleSystem.initial plainTasks) attachAndUnload :=
  ⟨by decide +kernel, module_never_faults plainTasks plainTasks_consistent attachAndUnload
    attachAndUnload_inRange⟩

open ModuleSystem in
/-- Over the same runs, a module that could not be loaded or that has been unloaded leaves nothing
behind. -/
theorem module_ends_clean {Task Pid : Type} [DecidableEq Task] [DecidableEq Pid]
    (tasks : TaskTable Task Pid)
    (htasks : ∀ t p, tasks.home t = some p ↔ tasks.attached p = some t)
    (steps : List (ModuleStep Task Pid))
    (hrange : StepRun.Along step PinInRange (initial tasks) steps) :
    StepRun.Always step (fun s => s.stage.isGone = true → s.Clean) (initial tasks) steps :=
  StepRun.Always.mono (fun _ h => h.clean) (inv_always htasks hrange)

theorem attachAndUnload_ends_clean :
    ((StepRun.run ModuleSystem.step (ModuleSystem.initial plainTasks) attachAndUnload).map
        ModuleSystem.stage) = some (.gone .unloaded) ∧
      StepRun.Always ModuleSystem.step (fun s => s.stage.isGone = true → s.Clean)
        (ModuleSystem.initial plainTasks) attachAndUnload :=
  ⟨by decide +kernel, module_ends_clean plainTasks plainTasks_consistent attachAndUnload
    attachAndUnload_inRange⟩

end Anticheat
