import Anticheat.Kernel.ModuleCalls

/-!
# Reference counts of the module's calls

The count of a task structure is one for its slot in the registry, and one for each call or
worker that holds it; the count of a pid structure is one for each call and each request.  An
action of a call that drops only what is held keeps these counts exact.

Main results:

- Theorem {lit}`ModShared.Counted.use_eq`: what is held can be used.
- Theorem {lit}`ModAction.run_counted`: what an action does to the counts.
-/

namespace Anticheat

open Foundation

/-! ## The registry and references held elsewhere -/

section Lend

variable {Task : Type}

/-- The registry with references that are held elsewhere. -/
def Registry.lend (r : Registry Task) (held : Task → Int) : Registry Task :=
  { r with refs := fun t => r.refs t + held t }

@[simp]
theorem Registry.registered_lend (r : Registry Task) (held : Task → Int) :
    (r.lend held).registered = r.registered :=
  rfl

variable [DecidableEq Task]

theorem getTaskStruct_lend (r : Registry Task) (held : Task → Int) (t : Task) :
    getTaskStruct t (r.lend held) = r.lend fun u => held u + share (some t) u := by
  simp only [getTaskStruct, Registry.lend, share_some, Int.add_assoc]

theorem putTaskStruct_lend (r : Registry Task) (held : Task → Int) (t : Task) :
    putTaskStruct t (r.lend held) = r.lend fun u => held u - share (some t) u := by
  simp only [putTaskStruct, Registry.lend, share_some, Int.add_sub_assoc]

theorem acAddProtTask_lend (r : Registry Task) (held : Task → Int) (info : Task → TaskInfo)
    (t : Task) (jit : Bool) :
    acAddProtTask (r.lend held) info t jit =
      ((acAddProtTask r info t jit).1, (acAddProtTask r info t jit).2.lend held) := by
  simp only [acAddProtTask, Registry.lend, getTaskStruct]
  split
  · rfl
  · rfl
  · simp only [Prod.mk.injEq, Registry.mk.injEq, true_and]
    funext u
    omega

theorem acDelProtTask_lend (r : Registry Task) (held : Task → Int) (t : Task) :
    acDelProtTask (r.lend held) t = (acDelProtTask r t).lend held := by
  simp only [acDelProtTask, Registry.lend, putTaskStruct]
  split
  · simp only [Registry.mk.injEq, true_and]
    funext u
    omega
  · rfl

theorem acClearProtected_lend (r : Registry Task) (held : Task → Int) :
    acClearProtected (r.lend held) = (acClearProtected r).lend held := by
  simp only [acClearProtected, foldl_putTaskStruct, Registry.lend, Registry.mk.injEq, true_and]
  funext u
  omega

/-- In a registry that is in order, a task that is held elsewhere has a reference. -/
theorem Registry.Wf.refs_lend_pos {r : Registry Task} (h : r.Wf) {held : Task → Int} {t : Task}
    (ht : 1 ≤ held t) : 0 < (r.lend held).refs t := by
  have hrefs := h.refs_eq t
  simp only [Registry.lend]
  split at hrefs <;> omega

end Lend

/-! ## Exact counts -/

section Counted

variable {Task Pid : Type}

/-- The pid reference that an action stores in a request. -/
def ModAction.storesPid : ModAction Task Pid → Option Pid
  | .setPid _ p _ => p
  | _ => none

variable [DecidableEq Task]

/-- The counters are exact: the module holds `tasks t` references to the task `t` beside that
of its slot in the registry, and `pids p` to the pid structure `p`. -/
structure ModShared.Counted (sh : ModShared Task Pid) (tasks : Task → Int)
    (pids : Pid → Int) : Prop where
  reg : ∃ base : Registry Task, base.Wf ∧ sh.reg = base.lend tasks
  pidRefs : ∀ p, sh.pidRefs p = pids p

/-- The action drops only what is held, and fills in or queues only a fresh request, the latter
on a live queue. -/
structure ModAction.Safe (a : ModAction Task Pid) (sh : ModShared Task Pid) (tasks : Task → Int)
    (pids : Pid → Int) : Prop where
  dropsTask : ∀ t, a.dropsTask = some t → 1 ≤ tasks t
  dropsPid : ∀ p, a.dropsPid = some p → 1 ≤ pids p
  sets : ∀ r p process, a = .setPid r p process →
    ∃ q, sh.requests[r]? = some q ∧ q.place = .fresh
  queues : ∀ r, a = .queueWork r →
    sh.queue = .live ∧ ∃ q, sh.requests[r]? = some q ∧ q.place = .fresh

variable {sh : ModShared Task Pid} {tasks : Task → Int} {pids : Pid → Int}

theorem ModShared.Counted.congr (h : sh.Counted tasks pids) {tasks' : Task → Int}
    {pids' : Pid → Int} (ht : ∀ t, tasks' t = tasks t) (hp : ∀ p, pids' p = pids p) :
    sh.Counted tasks' pids' := by
  rw [funext ht, funext hp]
  exact h

theorem ModShared.Counted.refs_pos (h : sh.Counted tasks pids) {t : Task} (ht : 1 ≤ tasks t) :
    0 < sh.reg.refs t := by
  rcases h.reg with ⟨base, hwf, hreg⟩
  rw [hreg]
  exact hwf.refs_lend_pos ht

theorem ModShared.Counted.pidRefs_pos (h : sh.Counted tasks pids) {p : Pid} (hp : 1 ≤ pids p) :
    0 < sh.pidRefs p := by
  rw [h.pidRefs p]
  exact hp

/-- Structures that are held can be used. -/
theorem ModShared.Counted.use_eq (h : sh.Counted tasks pids) {task : Option Task}
    {pidp : Option Pid} (ht : ∀ t, task = some t → 1 ≤ tasks t)
    (hp : ∀ p, pidp = some p → 1 ≤ pids p) : sh.use task pidp = sh := by
  have htask : (task.all fun t => 0 < sh.reg.refs t) = true := by
    cases task with
    | none => rfl
    | some t => exact decide_eq_true (h.refs_pos (ht t rfl))
  have hpid : (pidp.all fun p => 0 < sh.pidRefs p) = true := by
    cases pidp with
    | none => rfl
    | some p => exact decide_eq_true (h.pidRefs_pos (hp p rfl))
  rw [ModShared.use, htask, hpid]
  rfl

variable [DecidableEq Pid]

/-- A safe action moves the counters by what it takes, drops and stores. -/
theorem ModAction.run_counted {a : ModAction Task Pid} (i : Nat) (h : sh.Counted tasks pids)
    (ha : a.Safe sh tasks pids) :
    (a.run i sh).Counted (fun t => tasks t + share a.takesTask t - share a.dropsTask t)
        (fun p => pids p + share a.takesPid p - share a.dropsPid p + share a.storesPid p) ∧
      (a.run i sh).faulted = sh.faulted := by
  have hsame : sh.Counted (fun t => tasks t + 0 - 0) (fun p => pids p + 0 - 0 + 0) :=
    h.congr (by simp) (by simp)
  rcases h.reg with ⟨base, hwf, hreg⟩
  cases a with
  | nothing => exact ⟨hsame, rfl⟩
  | getTask t =>
      refine ⟨⟨⟨base, hwf, ?_⟩, hsame.pidRefs⟩, rfl⟩
      simp only [ModAction.run, hreg, getTaskStruct_lend, ModAction.takesTask,
        ModAction.dropsTask, share_none, Int.sub_zero]
  | putTask t =>
      have hpos := h.refs_pos (ha.dropsTask t rfl)
      simp only [ModAction.run, if_pos hpos]
      refine ⟨⟨⟨base, hwf, ?_⟩, hsame.pidRefs⟩, trivial⟩
      simp only [hreg, putTaskStruct_lend, ModAction.takesTask, ModAction.dropsTask, share_none,
        Int.add_zero]
  | getPid p =>
      refine ⟨⟨hsame.reg, ?_⟩, rfl⟩
      intro q
      simp only [ModAction.run, h.pidRefs, ModAction.takesPid, ModAction.dropsPid,
        ModAction.storesPid, share_none]
      omega
  | putPid p =>
      have hpos := h.pidRefs_pos (ha.dropsPid p rfl)
      simp only [ModAction.run, if_pos hpos]
      refine ⟨⟨hsame.reg, ?_⟩, trivial⟩
      intro q
      simp only [h.pidRefs, ModAction.takesPid, ModAction.dropsPid, ModAction.storesPid,
        share_none]
      omega
  | emit e => exact ⟨⟨hsame.reg, hsame.pidRefs⟩, rfl⟩
  | addProt info t jit =>
      refine ⟨⟨⟨(acAddProtTask base info t jit).2, ?_, ?_⟩, hsame.pidRefs⟩, rfl⟩
      · exact (acAddProtTask_spec hwf info t jit).1
      · simp only [ModAction.run, hreg, acAddProtTask_lend, ModAction.takesTask,
          ModAction.dropsTask, share_none, Int.add_zero, Int.sub_zero]
  | delProt t =>
      refine ⟨⟨⟨acDelProtTask base t, ?_, ?_⟩, hsame.pidRefs⟩, rfl⟩
      · exact (acDelProtTask_spec hwf t).1
      · simp only [ModAction.run, hreg, acDelProtTask_lend, ModAction.takesTask,
          ModAction.dropsTask, share_none, Int.add_zero, Int.sub_zero]
  | kmalloc => exact ⟨⟨hsame.reg, hsame.pidRefs⟩, rfl⟩
  | setPid r p process =>
      rcases ha.sets r p process rfl with ⟨q, hq, hfresh⟩
      simp only [ModAction.run, hq, if_pos hfresh]
      refine ⟨⟨hsame.reg, ?_⟩, trivial⟩
      intro u
      simp only [h.pidRefs, ModAction.takesPid, ModAction.dropsPid, ModAction.storesPid,
        share_none]
      omega
  | queueWork r =>
      rcases ha.queues r rfl with ⟨hlive, q, hq, hfresh⟩
      simp only [ModAction.run, hq, if_pos (And.intro hfresh hlive)]
      exact ⟨⟨hsame.reg, hsame.pidRefs⟩, trivial⟩
  | sendSig kill => exact ⟨⟨hsame.reg, hsame.pidRefs⟩, rfl⟩
  | setPins pins => exact ⟨⟨hsame.reg, hsame.pidRefs⟩, rfl⟩

end Counted

end Anticheat
