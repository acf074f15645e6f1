import Mathlib.Data.Set.Card
import Anticheat.Foundation.StepRun
import Anticheat.Kernel.EventRing
import Anticheat.Kernel.Registry

/-!
# Callers of the registry

The registry is changed from four places: the ADD_PROC and DEL_PROC ioctls, the
return handler of `kernel_clone`, the handler at the entry of `do_exit`, and
module unload.  Each of them runs under the registry's lock at the moment it
touches the table, so a history of the module is a sequence of these calls.

The kernel's pid lookup is a parameter of each call: it answers with the task
that a number names in the caller's namespace at that moment.

Main results:

- Theorem {lit}`RegOp.effect_of_step`: every call registers one task, removes
  one, clears the table or leaves it.
- Theorem {lit}`RegOp.step_spec`: every call is an update of a finite map from
  tasks to JIT flags.
- Theorem {lit}`registry_refines_map`: the table represents that map after any
  history, and a freshly created task is not protected until it is added.
-/

namespace Anticheat

open Foundation

/-- The conversion of a `long` to the 32-bit `pid_t`. -/
def pidOfLong (x : BitVec 64) : Int :=
  (x.setWidth 32).toInt

variable {Task : Type} [DecidableEq Task]

/-- `ac_add_prot_pid`; the lookup's reference is dropped at the end. -/
def acAddProtPid (r : Registry Task) (info : Task → TaskInfo)
    (find : Int → Option Task) (findInNsOf : Int → Int → Option Task)
    (pid refPid : Int) (jitAllowed : Bool) : Except Errno Unit × Registry Task :=
  match if refPid > 0 then findInNsOf pid refPid else find pid with
  | none => (.error .ESRCH, r)
  | some t =>
      let (ret, r) := acAddProtTask (getTaskStruct t r) info t jitAllowed
      (ret, putTaskStruct t r)

/-- `AC_IOCTL_DEL_PROC` -/
def acIoctlDelProc (r : Registry Task) (find : Int → Option Task) (pid : Int) :
    Except Errno Unit × Registry Task :=
  match find pid with
  | none => (.error .ESRCH, r)
  | some t => (.ok (), putTaskStruct t (acDelProtTask (getTaskStruct t r) t))

/-- The event that a fork of a protected task leaves. -/
def forkEvent (info : Task → TaskInfo) (cur child : Task) : EmitCall where
  type := .fork
  pid := (info child).pid
  comm := some (info child).comm
  data := CStr.ascii "child of protected pid " ++ CStr.decimal (info cur).pid ++
    CStr.ascii " (" ++ CStr.bounded acMaxComm (info cur).comm ++
    CStr.ascii "); protection inherited"

/-- `ac_clone_ret`: the return handler of `kernel_clone` in task `cur`, where
`ret` is the value returned.  The result of the registration is ignored. -/
def acCloneRet (r : Registry Task) (info : Task → TaskInfo)
    (find : Int → Option Task) (cur : Task) (ret : BitVec 64) :
    List EmitCall × Registry Task :=
  if ret.toInt ≤ 0 then
    ([], r)
  else if !acIsProtectedTask r cur then
    ([], r)
  else
    match find (pidOfLong ret) with
    | none => ([], r)
    | some child =>
        let r := getTaskStruct child r
        let (_, r) := acAddProtTask r info child (acTaskJitAllowed r cur)
        ([forkEvent info cur child], putTaskStruct child r)

/-- `ac_exit_pre`: the handler at the entry of `do_exit` in task `cur`. -/
def acExitPre (r : Registry Task) (info : Task → TaskInfo) (cur : Task) :
    List EmitCall × Registry Task :=
  if !acIsProtectedTask r cur then
    ([], r)
  else
    ([{ type := .exit
        pid := (info cur).pid
        comm := some (info cur).comm
        data := CStr.ascii "protected process exited" }],
      acDelProtTask r cur)

/-- `ac_exec_pre`: the handler at the entry of `execve` in task `cur`. -/
def acExecPre (r : Registry Task) (info : Task → TaskInfo) (cur : Task) :
    List EmitCall :=
  if !acIsProtectedTask r cur then
    []
  else
    [{ type := .exec
       pid := (info cur).pid
       comm := some (info cur).comm
       data := CStr.ascii "execve() invoked (path is a user pointer, not resolved)" }]

/-! ## Histories -/

/-- What can happen to the registry.  The last case is the kernel creating a
task: `others` counts the references to that task structure held elsewhere. -/
inductive RegOp (Task : Type) where
  | addTask (info : Task → TaskInfo) (t : Task) (jit : Bool)
  | addPid (info : Task → TaskInfo) (find : Int → Option Task)
      (findInNsOf : Int → Int → Option Task) (pid refPid : Int) (jit : Bool)
  | delTask (t : Task)
  | delPid (find : Int → Option Task) (pid : Int)
  | cloneRet (info : Task → TaskInfo) (find : Int → Option Task) (cur : Task)
      (ret : BitVec 64)
  | exitPre (info : Task → TaskInfo) (cur : Task)
  | clear
  | create (t : Task) (others : Nat)

/-- One step of a history.  A task structure whose reference count is positive
is never reused, so its creation is not enabled. -/
def RegOp.step (r : Registry Task) : RegOp Task → Option (Registry Task)
  | .addTask info t jit => some (acAddProtTask r info t jit).2
  | .addPid info find findInNsOf pid refPid jit =>
      some (acAddProtPid r info find findInNsOf pid refPid jit).2
  | .delTask t => some (acDelProtTask r t)
  | .delPid find pid => some (acIoctlDelProc r find pid).2
  | .cloneRet info find cur ret => some (acCloneRet r info find cur ret).2
  | .exitPre info cur => some (acExitPre r info cur).2
  | .clear => some (acClearProtected r)
  | .create t others => if 0 < r.refs t + others then none else some r

/-! ## The abstract map -/

/-- A partial map from tasks to JIT flags. -/
abbrev ProtMap (Task : Type) := Task → Option Bool

/-- Number of tasks in the map. -/
noncomputable def ProtMap.size {Task : Type} (m : ProtMap Task) : Nat :=
  {t | (m t).isSome}.ncard

open Classical in
/-- Adding to a map that may hold 64 tasks. -/
noncomputable def ProtMap.add (m : ProtMap Task) (t : Task) (jit : Bool) :
    Except Errno Unit × ProtMap Task :=
  if m t = none ∧ m.size = acProtMax then
    (.error .ENOSPC, m)
  else
    (.ok (), Function.update m t (some jit))

/-- The task that a step asks to register, with its flag. -/
def ProtMap.adds (m : ProtMap Task) : RegOp Task → Option (Task × Bool)
  | .addTask _ t jit => some (t, jit)
  | .addPid _ find findInNsOf pid refPid jit =>
      (if refPid > 0 then findInNsOf pid refPid else find pid).map fun t => (t, jit)
  | .cloneRet _ find cur ret =>
      if ret.toInt ≤ 0 then none
      else
        match m cur, find (pidOfLong ret) with
        | some jit, some child => some (child, jit)
        | _, _ => none
  | _ => none

/-- The tasks that a step removes. -/
def RegOp.Removes : RegOp Task → Task → Prop
  | .delTask t, u => u = t
  | .delPid find pid, u => find pid = some u
  | .exitPre _ cur, u => u = cur
  | .clear, _ => True
  | _, _ => False

open Classical in
/-- One step of a history, as an update of the map. -/
noncomputable def ProtMap.step (m : ProtMap Task) (op : RegOp Task) : ProtMap Task :=
  match m.adds op with
  | some (t, jit) => (m.add t jit).2
  | none => fun u => if op.Removes u then none else m u

/-- The map after a history. -/
noncomputable def protMapRun (ops : List (RegOp Task)) : ProtMap Task :=
  ops.foldl ProtMap.step fun _ => none

/-- The task fields that a step reads when it registers a task. -/
def RegOp.info {Task : Type} : RegOp Task → Task → TaskInfo
  | .addTask info _ _ => info
  | .addPid info _ _ _ _ _ => info
  | .cloneRet info _ _ _ => info
  | _ => fun _ => default

open Classical in
/-- Who each task was when it was last given a place in the map.  Adding a task
again does not read its fields again. -/
noncomputable def ProtMap.identify (m : ProtMap Task) (ids : Task → TaskInfo)
    (op : RegOp Task) : Task → TaskInfo :=
  match m.adds op with
  | some (t, _) =>
      if m t = none ∧ m.size ≠ acProtMax then Function.update ids t (op.info t) else ids
  | none => ids

/-- Who each task was when it was last registered, after more of a history. -/
noncomputable def ProtMap.identities :
    ProtMap Task → (Task → TaskInfo) → List (RegOp Task) → Task → TaskInfo
  | _, ids, [] => ids
  | m, ids, op :: ops => (m.step op).identities (m.identify ids op) ops

/-- The pid and the name that each task had when the history registered it. -/
noncomputable def registeredAs (ops : List (RegOp Task)) : Task → TaskInfo :=
  ProtMap.identities (fun _ => none) (fun _ => default) ops

/-! ## Each step refines the map -/

theorem Registry.Wf.size_jitMap {r : Registry Task} (h : r.Wf) :
    ProtMap.size r.jitMap = r.registered.length := by
  have hset : {t | (r.jitMap t).isSome} = (r.registered.toFinset : Set Task) := by
    ext t
    simp [Registry.jitMap_isSome_iff]
  rw [ProtMap.size, hset, Set.ncard_coe_finset, List.toFinset_card_of_nodup h.nodup]

/-- Adding to the registry is adding to the map, with the same result. -/
theorem acAddProtTask_refines {r : Registry Task} (h : r.Wf) (info : Task → TaskInfo)
    (t : Task) (jit : Bool) :
    (acAddProtTask r info t jit).2.Wf ∧
      (acAddProtTask r info t jit).1 = (ProtMap.add r.jitMap t jit).1 ∧
      (acAddProtTask r info t jit).2.jitMap = (ProtMap.add r.jitMap t jit).2 := by
  rcases acAddProtTask_spec h info t jit with ⟨hwf, hspec⟩
  refine ⟨hwf, ?_⟩
  have hcond : r.jitMap t = none ∧ ProtMap.size r.jitMap = acProtMax ↔
      t ∉ r.registered ∧ r.registered.length = acProtMax := by
    rw [h.size_jitMap, Registry.jitMap_eq_none_iff]
  by_cases hfull : t ∉ r.registered ∧ r.registered.length = acProtMax
  · rw [if_pos hfull] at hspec
    rw [ProtMap.add, if_pos (hcond.2 hfull), hspec]
    exact ⟨rfl, rfl⟩
  · rw [if_neg hfull] at hspec
    rw [ProtMap.add, if_neg (fun hc => hfull (hcond.1 hc))]
    exact hspec

theorem acAddProtPid_eq (r : Registry Task) (info : Task → TaskInfo)
    (find : Int → Option Task) (findInNsOf : Int → Int → Option Task)
    (pid refPid : Int) (jit : Bool) :
    acAddProtPid r info find findInNsOf pid refPid jit =
      match if refPid > 0 then findInNsOf pid refPid else find pid with
      | none => (.error .ESRCH, r)
      | some t => acAddProtTask r info t jit := by
  rw [acAddProtPid]
  cases (if refPid > 0 then findInNsOf pid refPid else find pid) with
  | none => rfl
  | some t =>
      simp only [acAddProtTask_getTaskStruct, putTaskStruct_getTaskStruct]

theorem acIoctlDelProc_eq (r : Registry Task) (find : Int → Option Task) (pid : Int) :
    acIoctlDelProc r find pid =
      match find pid with
      | none => (.error .ESRCH, r)
      | some t => (.ok (), acDelProtTask r t) := by
  rw [acIoctlDelProc]
  cases find pid with
  | none => rfl
  | some t => simp only [acDelProtTask_getTaskStruct, putTaskStruct_getTaskStruct]

/-- The registry after the return handler of `kernel_clone`. -/
theorem acCloneRet_registry (r : Registry Task) (info : Task → TaskInfo)
    (find : Int → Option Task) (cur : Task) (ret : BitVec 64) :
    (acCloneRet r info find cur ret).2 =
      match ProtMap.adds r.jitMap (.cloneRet info find cur ret) with
      | none => r
      | some (child, jit) => (acAddProtTask r info child jit).2 := by
  have hjit : ∀ u, acTaskJitAllowed (getTaskStruct u r) cur = (r.jitMap cur).getD false :=
    fun u => acTaskJitAllowed_eq r cur
  simp only [acCloneRet, ProtMap.adds]
  by_cases hret : ret.toInt ≤ 0
  · simp [hret]
  · simp only [if_neg hret]
    cases hcur : r.jitMap cur with
    | none =>
        have hno : acIsProtectedTask r cur = false := by
          rw [Bool.eq_false_iff, Ne, acIsProtectedTask_iff, ← Registry.jitMap_isSome_iff, hcur]
          simp
        simp [hno]
    | some jit =>
        have hyes : acIsProtectedTask r cur = true := by
          rw [acIsProtectedTask_iff, ← Registry.jitMap_isSome_iff, hcur]
          rfl
        simp only [hyes, Bool.not_true, Bool.false_eq_true, if_false]
        cases hfind : find (pidOfLong ret) with
        | none => rfl
        | some child =>
            simp only [hjit, hcur, Option.getD_some, acAddProtTask_getTaskStruct,
              putTaskStruct_getTaskStruct]

/-- The handler at `do_exit` removes the exiting task, if it is registered. -/
theorem acExitPre_registry (r : Registry Task) (info : Task → TaskInfo) (cur : Task) :
    (acExitPre r info cur).2 = acDelProtTask r cur := by
  by_cases hcur : acIsProtectedTask r cur
  · simp [acExitPre, hcur]
  · have hscan : ∃ free, r.prots.scan AcProtEntry.task cur = .miss free := by
      cases hfound : r.prots.scan AcProtEntry.task cur with
      | hit i =>
          have hmem := (SlotTable.scan_hit_iff AcProtEntry.task cur r.prots).1 ⟨i, hfound⟩
          exact absurd ((acIsProtectedTask_iff r cur).2 hmem) hcur
      | miss free => exact ⟨free, rfl⟩
    rcases hscan with ⟨free, hscan⟩
    simp [acExitPre, hcur, acDelProtTask, hscan]

/-- A step that registers nobody and removes one task. -/
theorem ProtMap.step_removes_one {m : ProtMap Task} {op : RegOp Task} {t : Task}
    (hadds : m.adds op = none) (hone : ∀ u, op.Removes u ↔ u = t) :
    m.step op = Function.update m t none := by
  ext1 u
  unfold ProtMap.step
  rw [hadds]
  by_cases hu : u = t
  · subst u
    simp [hone]
  · simp [hone, hu]

/-- A step that registers and removes nobody. -/
theorem ProtMap.step_idle {m : ProtMap Task} {op : RegOp Task}
    (hadds : m.adds op = none) (hnone : ∀ u, ¬op.Removes u) : m.step op = m := by
  ext1 u
  unfold ProtMap.step
  rw [hadds]
  exact if_neg (hnone u)

/-- A task structure is created only when nobody holds a reference to it. -/
theorem RegOp.step_create {r r' : Registry Task} {t : Task} {others : Nat}
    (hstep : RegOp.step r (.create t others) = some r') :
    r.refs t + others ≤ 0 ∧ r = r' := by
  by_cases hrefs : 0 < r.refs t + others
  · simp [RegOp.step, hrefs] at hstep
  · simp only [RegOp.step, if_neg hrefs, Option.some.injEq] at hstep
    exact ⟨not_lt.1 hrefs, hstep⟩

/-- What one step does to the table: it registers a task, removes one, clears
the table, or leaves it. -/
inductive RegOp.Effect (r : Registry Task) (op : RegOp Task) : Registry Task → Prop
  | adds (t : Task) (jit : Bool) (hadds : ProtMap.adds r.jitMap op = some (t, jit)) :
      RegOp.Effect r op (acAddProtTask r op.info t jit).2
  | removes (t : Task) (hadds : ProtMap.adds r.jitMap op = none)
      (hone : ∀ u, op.Removes u ↔ u = t) : RegOp.Effect r op (acDelProtTask r t)
  | clears (hadds : ProtMap.adds r.jitMap op = none) (hall : ∀ u, op.Removes u) :
      RegOp.Effect r op (acClearProtected r)
  | idle (hadds : ProtMap.adds r.jitMap op = none) (hnone : ∀ u, ¬op.Removes u) :
      RegOp.Effect r op r

theorem RegOp.effect_of_step {r r' : Registry Task} {op : RegOp Task}
    (hstep : op.step r = some r') : op.Effect r r' := by
  cases op with
  | addTask info t jit =>
      cases hstep
      exact .adds t jit rfl
  | addPid info find findInNsOf pid refPid jit =>
      simp only [RegOp.step, acAddProtPid_eq, Option.some.injEq] at hstep
      cases hfind : (if refPid > 0 then findInNsOf pid refPid else find pid) with
      | none =>
          rw [hfind] at hstep
          subst r'
          exact .idle (by simp [ProtMap.adds, hfind]) (fun _ => id)
      | some t =>
          rw [hfind] at hstep
          subst r'
          exact .adds t jit (by simp only [ProtMap.adds, hfind, Option.map_some])
  | delTask t =>
      cases hstep
      exact .removes t rfl fun _ => Iff.rfl
  | delPid find pid =>
      simp only [RegOp.step, acIoctlDelProc_eq, Option.some.injEq] at hstep
      cases hfind : find pid with
      | none =>
          rw [hfind] at hstep
          subst r'
          apply Effect.idle rfl
          intro u hu
          rw [RegOp.Removes, hfind] at hu
          contradiction
      | some t =>
          rw [hfind] at hstep
          subst r'
          apply Effect.removes t rfl
          intro u
          simp only [RegOp.Removes, hfind, Option.some.injEq]
          exact eq_comm
  | cloneRet info find cur ret =>
      simp only [RegOp.step, acCloneRet_registry, Option.some.injEq] at hstep
      cases hadds : ProtMap.adds r.jitMap (.cloneRet info find cur ret) with
      | none =>
          rw [hadds] at hstep
          subst r'
          exact .idle hadds (fun _ => id)
      | some added =>
          rw [hadds] at hstep
          subst r'
          exact .adds added.1 added.2 hadds
  | exitPre info cur =>
      simp only [RegOp.step, acExitPre_registry, Option.some.injEq] at hstep
      subst r'
      exact .removes cur rfl fun _ => Iff.rfl
  | clear =>
      cases hstep
      exact .clears rfl fun _ => trivial
  | create t others =>
      rcases RegOp.step_create hstep with ⟨-, rfl⟩
      exact .idle rfl (fun _ => id)

/-- Every step of a history is the corresponding update of the map. -/
theorem RegOp.step_spec {r r' : Registry Task} (h : r.Wf) {op : RegOp Task}
    (hstep : op.step r = some r') :
    r'.Wf ∧ r'.jitMap = ProtMap.step r.jitMap op := by
  cases RegOp.effect_of_step hstep with
  | adds t jit hadds =>
      rcases acAddProtTask_refines h op.info t jit with ⟨hwf, -, hmap⟩
      refine ⟨hwf, hmap.trans ?_⟩
      simp only [ProtMap.step, hadds]
  | removes t hadds hone =>
      rcases acDelProtTask_spec h t with ⟨hwf, hmap⟩
      exact ⟨hwf, hmap.trans (ProtMap.step_removes_one hadds hone).symm⟩
  | clears hadds hall =>
      rcases acClearProtected_spec h with ⟨hwf, hmap⟩
      refine ⟨hwf, hmap.trans ?_⟩
      simp only [ProtMap.step, hadds, hall, if_true]
  | idle hadds hnone => exact ⟨h, (ProtMap.step_idle hadds hnone).symm⟩

/-- Every slot keeps the identity of its task through a step. -/
theorem RegOp.step_named {r r' : Registry Task} (h : r.Wf) {op : RegOp Task}
    {ids : Task → TaskInfo} (hids : r.Named ids) (hstep : op.step r = some r') :
    r'.Named (ProtMap.identify r.jitMap ids op) := by
  unfold ProtMap.identify
  cases RegOp.effect_of_step hstep with
  | adds t jit hadds =>
      rw [hadds]
      simp only [h.size_jitMap, Registry.jitMap_eq_none_iff]
      by_cases hmem : t ∈ r.registered
      · rw [if_neg fun hc => hc.1 hmem]
        exact hids.add_registered op.info jit hmem
      · by_cases hfull : r.registered.length = acProtMax
        · rw [if_neg fun hc => hc.2 hfull, acAddProtTask_full op.info jit hmem hfull]
          exact hids
        · rw [if_pos ⟨hmem, hfull⟩]
          exact hids.add_new op.info jit hmem hfull
  | removes t hadds =>
      rw [hadds]
      exact hids.del t
  | clears hadds =>
      rw [hadds]
      exact r.clear_named ids
  | idle hadds =>
      rw [hadds]
      exact hids

/-- Every history is the corresponding sequence of updates. -/
theorem registry_run_spec {r r' : Registry Task} (h : r.Wf) {ops : List (RegOp Task)}
    (hrun : StepRun.run RegOp.step r ops = some r') :
    r'.Wf ∧ r'.jitMap = ops.foldl ProtMap.step r.jitMap := by
  induction ops generalizing r with
  | nil =>
      cases hrun
      exact ⟨h, rfl⟩
  | cons op ops ih =>
      rcases StepRun.run_cons_some hrun with ⟨r₁, hstep, hrest⟩
      rcases RegOp.step_spec h hstep with ⟨hwf, hmap⟩
      rw [List.foldl_cons, ← hmap]
      exact ih hwf hrest

/-- After a history each slot holds who its task was when it was registered. -/
theorem registry_run_named {r r' : Registry Task} (h : r.Wf) {ops : List (RegOp Task)}
    {ids : Task → TaskInfo} (hids : r.Named ids)
    (hrun : StepRun.run RegOp.step r ops = some r') :
    r'.Named (ProtMap.identities r.jitMap ids ops) := by
  induction ops generalizing r ids with
  | nil =>
      cases hrun
      exact hids
  | cons op ops ih =>
      rcases StepRun.run_cons_some hrun with ⟨r₁, hstep, hrest⟩
      rcases RegOp.step_spec h hstep with ⟨hwf, hmap⟩
      rw [ProtMap.identities, ← hmap]
      exact ih hwf (RegOp.step_named h hids hstep) hrest

/-- The registered tasks after a step: a task that is asked for gets a slot if
there is one. -/
theorem RegOp.mem_registered_step {r r' : Registry Task} (h : r.Wf) {op : RegOp Task}
    (hstep : op.step r = some r') (u : Task) :
    u ∈ r'.registered ↔
      match ProtMap.adds r.jitMap op with
      | some (t, _) => u ∈ r.registered ∨ (u = t ∧ r.registered.length ≠ acProtMax)
      | none => u ∈ r.registered ∧ ¬op.Removes u := by
  rcases RegOp.step_spec h hstep with ⟨-, hmap⟩
  rw [← r'.jitMap_isSome_iff, ← r.jitMap_isSome_iff, hmap]
  unfold ProtMap.step
  cases hadded : ProtMap.adds r.jitMap op with
  | none =>
      by_cases hrem : op.Removes u
      · simp [hrem]
      · simp [hrem]
  | some added =>
      unfold ProtMap.add
      rw [h.size_jitMap]
      by_cases hfull : r.registered.length = acProtMax
      · by_cases hnew : r.jitMap added.1 = none
        · simp [hfull, hnew]
        · have hold : (r.jitMap added.1).isSome := Option.isSome_iff_ne_none.2 hnew
          by_cases hu : u = added.1
          · subst u
            simp [hfull, hnew, hold]
          · simp [hfull, hnew, hu]
      · by_cases hu : u = added.1
        · subst u
          simp [hfull]
        · simp [hfull, hu]

/-- Only a step that asks for a task makes it registered. -/
theorem RegOp.not_registered_step {r r' : Registry Task} (h : r.Wf) {op : RegOp Task}
    {t : Task} (hnot : t ∉ r.registered)
    (hadds : ∀ jit, ProtMap.adds r.jitMap op ≠ some (t, jit))
    (hstep : op.step r = some r') : t ∉ r'.registered := by
  rw [RegOp.mem_registered_step h hstep]
  cases hadded : ProtMap.adds r.jitMap op with
  | none => exact fun hmem => hnot hmem.1
  | some added =>
      rintro (hmem | ⟨rfl, -⟩)
      · exact hnot hmem
      · exact hadds added.2 hadded

/-! ## The registry as a map -/

/-- The table holds the map `m`, and its operations act as those of the map.
The listing names each task as `ids` does. -/
structure Represents (r : Registry Task) (m : ProtMap Task) (ids : Task → TaskInfo) :
    Prop where
  distinct : r.registered.Nodup
  registered_iff : ∀ t, t ∈ r.registered ↔ (m t).isSome
  flag_eq : ∀ t jit, m t = some jit → acTaskJitAllowed r t = jit
  count_eq : r.protCount.toNat = r.registered.length
  count_le : r.protCount.toNat ≤ acProtMax
  refs_eq : ∀ t, r.refs t = if (m t).isSome then 1 else 0
  add_enospc_iff : ∀ info t jit, (acAddProtTask r info t jit).1 = .error .ENOSPC ↔
    m t = none ∧ m.size = acProtMax
  add_enospc : ∀ info t jit, (acAddProtTask r info t jit).1 = .error .ENOSPC →
    (acAddProtTask r info t jit).2 = r
  add_ok : ∀ info t jit, (acAddProtTask r info t jit).1 ≠ .error .ENOSPC →
    (acAddProtTask r info t jit).1 = .ok () ∧
      (acAddProtTask r info t jit).2.jitMap = Function.update m t (some jit)
  del : ∀ t, (acDelProtTask r t).jitMap = Function.update m t none
  list_count : ∀ out, (acListProtected r out).count = r.registered.length
  list_items : ∀ out, (acListProtected r out).reported = r.registered.map fun t =>
    { pid := (ids t).pid
      jitAllowed := (m t).getD false
      comm := CStr.bounded acMaxComm (ids t).comm }

theorem Registry.Wf.represents {r : Registry Task} (h : r.Wf) {ids : Task → TaskInfo}
    (hids : r.Named ids) : Represents r r.jitMap ids where
  distinct := h.nodup
  registered_iff t := (r.jitMap_isSome_iff t).symm
  flag_eq t jit ht := by rw [acTaskJitAllowed_eq, ht, Option.getD_some]
  count_eq := h.count_eq
  count_le := by
    rw [h.count_eq]
    exact r.registered_length_le
  refs_eq t := by
    rw [h.refs_eq t]
    simp only [r.jitMap_isSome_iff]
  add_enospc_iff info t jit := by
    rw [(acAddProtTask_refines h info t jit).2.1]
    unfold ProtMap.add
    split <;> simp_all
  add_enospc info t jit herr := by
    have hspec := (acAddProtTask_spec h info t jit).2
    split at hspec
    · rw [hspec]
    · rw [hspec.1] at herr
      contradiction
  add_ok info t jit hok := by
    have hspec := (acAddProtTask_spec h info t jit).2
    split at hspec
    · rw [hspec] at hok
      contradiction
    · exact hspec
  del t := (acDelProtTask_spec h t).2
  list_count out := (acListProtected_spec r out).1
  list_items out := by
    rw [h.list_items hids out]
    simp only [acTaskJitAllowed_eq]

/-- For every history of the module from the empty table, the table represents
the finite map that the history describes, and the listing gives each registered
task the pid and the name it was registered with.  A task that the history
creates at some point is not seen as protected unless a later step registers it. -/
theorem registry_refines_map {ops : List (RegOp Task)} {r : Registry Task}
    (hrun : StepRun.run RegOp.step (Registry.empty Task) ops = some r) :
    Represents r (protMapRun ops) (registeredAs ops) ∧
      ∀ before t others later r₁, ops = before ++ .create t others :: later →
        StepRun.run RegOp.step (Registry.empty Task) before = some r₁ →
        StepRun.Along RegOp.step
          (fun r op => ∀ jit, ProtMap.adds r.jitMap op ≠ some (t, jit)) r₁ later →
        acIsProtectedTask r t = false := by
  rcases registry_run_spec Registry.empty_wf hrun with ⟨hwf, hmap⟩
  have hids := registry_run_named Registry.empty_wf (Registry.empty_named fun _ => default) hrun
  rw [Registry.empty_jitMap] at hmap hids
  refine ⟨?_, ?_⟩
  · have hrep := hwf.represents hids
    rwa [hmap] at hrep
  · intro before t others later r₁ hops hbefore hlater
    subst ops
    rcases StepRun.run_append_some hrun with ⟨r₂, hrun₂, hrest⟩
    rw [hbefore] at hrun₂
    cases hrun₂
    have hwf₁ := (registry_run_spec Registry.empty_wf hbefore).1
    rcases StepRun.run_cons_some hrest with ⟨r₂, hcreate, hlast⟩
    -- the kernel had no reference left to the structure, so no slot held it
    rcases RegOp.step_create hcreate with ⟨hrefs, rfl⟩
    have hfree : t ∉ r₁.registered := by
      intro hmem
      rw [hwf₁.refs_eq t, if_pos hmem] at hrefs
      omega
    have hinv := StepRun.invariant_of_along (Q := fun r => r.Wf ∧ t ∉ r.registered)
      (fun s op s' hs hadds hstep =>
        ⟨(RegOp.step_spec hs.1 hstep).1, RegOp.not_registered_step hs.1 hs.2 hadds hstep⟩)
      ⟨hwf₁, hfree⟩ hlater hlast
    rw [Bool.eq_false_iff, Ne, acIsProtectedTask_iff]
    exact hinv.2

/-- Two protected tasks; one exits, and a new task is created in its structure. -/
def reusedStructure : List (RegOp Nat) :=
  let info := fun t : Nat => { pid := t + 1000, comm := CStr.ascii "game" }
  [.addTask info 7 true, .addTask info 8 false, .exitPre info 7, .create 7 0]

/-- The new task does not inherit the protection of the old one, and the other
task is still listed. -/
theorem reused_structure_not_protected :
    ∃ r, StepRun.run RegOp.step (Registry.empty Nat) reusedStructure = some r ∧
      Represents r (protMapRun reusedStructure) (registeredAs reusedStructure) ∧
      acIsProtectedTask r 7 = false ∧ acIsProtectedTask r 8 = true := by
  have hsome : (StepRun.run RegOp.step (Registry.empty Nat) reusedStructure).isSome := by
    decide
  rcases Option.isSome_iff_exists.1 hsome with ⟨r, hrun⟩
  have hmain := registry_refines_map hrun
  have hother : (StepRun.run RegOp.step (Registry.empty Nat) reusedStructure).map
      (acIsProtectedTask · 8) = some true := by
    decide
  rw [hrun] at hother
  exact ⟨r, hrun, hmain.1, hmain.2 (reusedStructure.take 3) 7 0 [] _ rfl rfl trivial,
    Option.some.inj hother⟩

end Anticheat
