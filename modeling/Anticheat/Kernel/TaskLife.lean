import Anticheat.Kernel.TaskProbes

/-!
# The life of tasks under the probes

A task is created by a clone and may at once clone, exec or exit itself; the
return handler of the clone that created it runs in the parent at some later
time, and ADD_PROC and DEL_PROC may run in between.  A task stays inside its
clone until the return handler has run.  After its exit a task can still be
found by its pid until it is reaped.

Beside the registry, the state records who created each task, whether the
parent was protected at that moment, and whether the return handler has run.

Main results:

- Theorem {lit}`inheritance_closed_of_inOrder`: protection reaches every
  descendant of a protected task in the runs where no heir returns from a clone
  before its own creation has been handled.
- Theorem {lit}`no_dead_entries_iff`: no exited task stays in the registry in
  exactly the runs that never register a task after its exit.
-/

namespace Anticheat

open Foundation

/-- Where a task is in its life. -/
inductive Phase where
  | absent
  | live
  | exited
  | reaped
deriving DecidableEq, Repr

/-- How a task came into being. -/
structure Birth (Task : Type) where
  parent : Task
  parentProtected : Bool
deriving DecidableEq

/-- The registry and the tasks of the system.  A task inside a clone is mapped
to the child; `birth` and `handled` are the record of past clones. -/
structure Life (Task : Type) where
  reg : Registry Task
  phase : Task → Phase
  cloning : Task → Option Task
  birth : Task → Option (Birth Task)
  handled : Task → Bool

/-- The state at module load, with some tasks already alive. -/
def Life.initial {Task : Type} (alive : Task → Bool) : Life Task where
  reg := Registry.empty Task
  phase t := if alive t then .live else .absent
  cloning _ := none
  birth _ := none
  handled _ := false

variable {Task : Type} [DecidableEq Task]

/-- The steps of the system.  A step that runs code of the module carries what
that code reads: the fields of tasks and the answers of pid lookups. -/
inductive LifeOp (Task : Type) where
  | clone (p c : Task)
  | cloneRet (info : Task → TaskInfo) (find : Int → Option Task) (p c : Task)
      (ret : BitVec 64)
  | exec (info : Task → TaskInfo) (t : Task)
  | exit (info : Task → TaskInfo) (t : Task)
  | reap (t : Task)
  | addProc (info : Task → TaskInfo) (find : Int → Option Task)
      (findInNsOf : Int → Int → Option Task) (pid refPid : Int) (jit : Bool)
  | delProc (find : Int → Option Task) (pid : Int)

/-- A lookup finds only tasks that have been created. -/
def Life.Known {Task : Type} (s : Life Task) (found : Option Task) : Prop :=
  (found.all fun t => s.phase t != .absent) = true

instance {Task : Type} (s : Life Task) (found : Option Task) :
    Decidable (s.Known found) :=
  inferInstanceAs (Decidable (_ = true))

/-- When a step can be taken.  The lookup of a handler precedes its update of
the registry, so the task it found may have exited or been reaped since; a
child that is still there was found. -/
def Life.Enabled (s : Life Task) : LifeOp Task → Prop
  | .clone p c => s.phase p = .live ∧ s.cloning p = none ∧ s.phase c = .absent
  | .cloneRet _ find p c ret =>
      s.cloning p = some c ∧ 0 < ret.toInt ∧
        (s.phase c ≠ .reaped → find (pidOfLong ret) = some c) ∧
        s.Known (find (pidOfLong ret))
  | .exec _ t => s.phase t = .live ∧ s.cloning t = none
  | .exit _ t => s.phase t = .live ∧ s.cloning t = none
  | .reap t => s.phase t = .exited
  | .addProc _ find findInNsOf pid refPid _ =>
      s.Known (if refPid > 0 then findInNsOf pid refPid else find pid)
  | .delProc find pid => s.Known (find pid)

instance (s : Life Task) : (op : LifeOp Task) → Decidable (s.Enabled op)
  | .clone _ _ => inferInstanceAs (Decidable (_ ∧ _ ∧ _))
  | .cloneRet _ _ _ _ _ => inferInstanceAs (Decidable (_ ∧ _ ∧ (_ → _) ∧ _))
  | .exec _ _ => inferInstanceAs (Decidable (_ ∧ _))
  | .exit _ _ => inferInstanceAs (Decidable (_ ∧ _))
  | .reap _ => inferInstanceAs (Decidable (_ = _))
  | .addProc _ _ _ _ _ _ => inferInstanceAs (Decidable (Life.Known _ _))
  | .delProc _ _ => inferInstanceAs (Decidable (Life.Known _ _))

/-- The state after a step. -/
def Life.after (s : Life Task) : LifeOp Task → Life Task
  | .clone p c =>
      { s with
        phase := Function.update s.phase c .live
        cloning := Function.update s.cloning p (some c)
        birth := Function.update s.birth c
          (some { parent := p, parentProtected := acIsProtectedTask s.reg p }) }
  | .cloneRet info find p c ret =>
      { s with
        reg := (acCloneRet s.reg info find p ret).2
        cloning := Function.update s.cloning p none
        handled := Function.update s.handled c true }
  -- the handler at execve only emits an event
  | .exec _ _ => s
  | .exit info t =>
      { s with
        reg := (acExitPre s.reg info t).2
        phase := Function.update s.phase t .exited }
  | .reap t => { s with phase := Function.update s.phase t .reaped }
  | .addProc info find findInNsOf pid refPid jit =>
      { s with reg := (acAddProtPid s.reg info find findInNsOf pid refPid jit).2 }
  | .delProc find pid => { s with reg := (acIoctlDelProc s.reg find pid).2 }

/-- One step of the system. -/
def Life.step (s : Life Task) (op : LifeOp Task) : Option (Life Task) :=
  if s.Enabled op then some (s.after op) else none

/-- The call that a step makes on the registry. -/
def LifeOp.regOp : LifeOp Task → Option (RegOp Task)
  | .cloneRet info find p _ ret => some (.cloneRet info find p ret)
  | .exit info t => some (.exitPre info t)
  | .addProc info find findInNsOf pid refPid jit =>
      some (.addPid info find findInNsOf pid refPid jit)
  | .delProc find pid => some (.delPid find pid)
  | _ => none

/-- The task that a step asks to register. -/
def Life.registers (s : Life Task) (op : LifeOp Task) : Option Task :=
  (op.regOp.bind (ProtMap.adds s.reg.jitMap)).map Prod.fst

/-- The tasks that a step removes from the registry. -/
def LifeOp.Removes (op : LifeOp Task) (u : Task) : Prop :=
  ∃ ro, op.regOp = some ro ∧ ro.Removes u

/-! ## The registry along a run -/

theorem Life.step_some_iff {s s' : Life Task} {op : LifeOp Task} :
    s.step op = some s' ↔ s.Enabled op ∧ s' = s.after op := by
  unfold Life.step
  by_cases hen : s.Enabled op
  · simp [hen, eq_comm]
  · simp [hen]

/-- A step acts on the registry through its call, or not at all. -/
theorem Life.after_reg (s : Life Task) (op : LifeOp Task) :
    match op.regOp with
    | some ro => ro.step s.reg = some (s.after op).reg
    | none => (s.after op).reg = s.reg := by
  cases op <;> rfl

theorem Life.after_wf {s : Life Task} (h : s.reg.Wf) (op : LifeOp Task) :
    (s.after op).reg.Wf := by
  have hreg := s.after_reg op
  cases hro : op.regOp with
  | none =>
      rw [hro] at hreg
      rw [hreg]
      exact h
  | some ro =>
      rw [hro] at hreg
      exact (RegOp.step_spec h hreg).1

/-- The registered tasks after a step. -/
theorem Life.mem_registered_after {s : Life Task} (h : s.reg.Wf) (op : LifeOp Task)
    (u : Task) :
    u ∈ (s.after op).reg.registered ↔
      match s.registers op with
      | some t => u ∈ s.reg.registered ∨ (u = t ∧ s.reg.registered.length ≠ acProtMax)
      | none => u ∈ s.reg.registered ∧ ¬op.Removes u := by
  have hreg := s.after_reg op
  unfold Life.registers LifeOp.Removes
  cases hro : op.regOp with
  | none =>
      rw [hro] at hreg
      rw [hreg]
      simp
  | some ro =>
      rw [hro] at hreg
      rw [RegOp.mem_registered_step h hreg]
      cases hadds : ProtMap.adds s.reg.jitMap ro with
      | none => simp [hadds]
      | some added => simp [hadds]

/-! ## Exited tasks in the registry -/

/-- The handler at `do_exit` has run for this task. -/
def Life.Gone {Task : Type} (s : Life Task) (t : Task) : Prop :=
  s.phase t = .exited ∨ s.phase t = .reaped

/-- No registered task has exited. -/
def Life.NoDeadEntries {Task : Type} (s : Life Task) : Prop :=
  ∀ t ∈ s.reg.registered, ¬s.Gone t

/-- A registration that finds an exited task also finds the table full. -/
def Life.RegistersNoneGone (s : Life Task) (op : LifeOp Task) : Prop :=
  s.Enabled op → ∀ t, s.registers op = some t → s.Gone t →
    s.reg.registered.length = acProtMax

/-- The phase of a registered task changes only by its exit, which removes it. -/
theorem Life.gone_after_iff {s : Life Task} {op : LifeOp Task} (hen : s.Enabled op)
    (hclean : s.NoDeadEntries) {u : Task}
    (hmem : u ∈ (s.after op).reg.registered) (h : s.reg.Wf) :
    (s.after op).Gone u ↔ s.Gone u := by
  have hin := (Life.mem_registered_after h op u).1 hmem
  cases op with
  | clone p c =>
      by_cases hu : u = c
      · subst u
        simp [Life.after, Life.Gone, hen.2.2]
      · simp [Life.after, Life.Gone, hu]
  | exit info t =>
      have hne : u ≠ t := by
        rintro rfl
        exact hin.2 ⟨_, rfl, rfl⟩
      simp [Life.after, Life.Gone, hne]
  | reap t =>
      have hne : u ≠ t := by
        rintro rfl
        exact hclean u hin.1 (.inl hen)
      simp [Life.after, Life.Gone, hne]
  | cloneRet info find p c ret => exact Iff.rfl
  | exec info t => exact Iff.rfl
  | addProc info find findInNsOf pid refPid jit => exact Iff.rfl
  | delProc find pid => exact Iff.rfl

/-- A step keeps exited tasks out of the registry exactly when it does not
register one. -/
theorem Life.noDeadEntries_after_iff {s : Life Task} {op : LifeOp Task} (h : s.reg.Wf)
    (hen : s.Enabled op) (hclean : s.NoDeadEntries) :
    (s.after op).NoDeadEntries ↔ s.RegistersNoneGone op := by
  constructor
  · intro hafter _ t ht hgone
    by_contra hroom
    have hmem : t ∈ (s.after op).reg.registered := by
      rw [Life.mem_registered_after h, ht]
      exact .inr ⟨rfl, hroom⟩
    exact hafter t hmem ((Life.gone_after_iff hen hclean hmem h).2 hgone)
  · intro hsafe u hmem hgone
    rw [Life.gone_after_iff hen hclean hmem h] at hgone
    rw [Life.mem_registered_after h] at hmem
    cases hreg : s.registers op with
    | none =>
        rw [hreg] at hmem
        exact hclean u hmem.1 hgone
    | some t =>
        rw [hreg] at hmem
        rcases hmem with hmem | ⟨rfl, hroom⟩
        · exact hclean u hmem hgone
        · exact hroom (hsafe hen u hreg hgone)

/-- For every run of the system from module load, the registry never holds an
exited task exactly when no step registers a task that has already exited,
unless the table is full and the registration fails. -/
theorem no_dead_entries_iff (alive : Task → Bool) (ops : List (LifeOp Task)) :
    StepRun.Always Life.step Life.NoDeadEntries (Life.initial alive) ops ↔
      StepRun.Along Life.step Life.RegistersNoneGone (Life.initial alive) ops := by
  refine StepRun.always_iff_along (I := fun s => s.reg.Wf) ?_ ?_ ?_ Registry.empty_wf ?_
  · intro s op s' hwf _ hstep
    rw [(Life.step_some_iff.1 hstep).2]
    exact Life.after_wf hwf op
  · intro s op s' hwf hclean hstep
    rcases Life.step_some_iff.1 hstep with ⟨hen, rfl⟩
    exact Life.noDeadEntries_after_iff hwf hen hclean
  · intro s op hstep hen
    simp [Life.step, hen] at hstep
  · intro t hmem
    exact absurd hmem (Registry.empty_not_registered t)

/-- Task 1 is protected and clones task 2, which exits before the return
handler of the clone has run. -/
def lateRegistration : List (LifeOp Nat) :=
  let info := fun t : Nat => { pid := t, comm := [] }
  let find := fun pid : Int => some pid.toNat
  [.addProc info find (fun _ _ => none) 1 0 false,
    .clone 1 2,
    .exit info 2,
    .cloneRet info find 1 2 2]

/-- The handler then registers the exited child. -/
theorem late_registration_leaves_dead_entry :
    ¬StepRun.Always Life.step Life.NoDeadEntries (Life.initial fun t => t == 1)
      lateRegistration := by
  intro hclean
  have hlast := (StepRun.always_iff_initial _ _ _ _).1 hclean lateRegistration _
    List.prefix_rfl rfl
  exact hlast 2 (by decide) (.inl rfl)

/-! ## Inheritance -/

/-- The task descends from a task that was protected when the descent began. -/
inductive Life.Heir {Task : Type} (s : Life Task) : Task → Prop
  | child {c : Task} {b : Birth Task} (hbirth : s.birth c = some b)
      (hprot : b.parentProtected = true) : s.Heir c
  | descend {c : Task} {b : Birth Task} (hbirth : s.birth c = some b)
      (hparent : s.Heir b.parent) : s.Heir c

/-- The same, where the return handlers of all the clones on the way have run. -/
inductive Life.Covered {Task : Type} (s : Life Task) : Task → Prop
  | child {c : Task} {b : Birth Task} (hbirth : s.birth c = some b)
      (hhandled : s.handled c = true) (hprot : b.parentProtected = true) : s.Covered c
  | descend {c : Task} {b : Birth Task} (hbirth : s.birth c = some b)
      (hhandled : s.handled c = true) (hparent : s.Covered b.parent) : s.Covered c

/-- Every live task that is covered is registered. -/
def Life.Inherits {Task : Type} (s : Life Task) : Prop :=
  ∀ t, s.phase t = .live → s.Covered t → t ∈ s.reg.registered

/-- The registry has a free slot. -/
def Life.HasRoom {Task : Type} (s : Life Task) : Prop :=
  s.reg.registered.length < acProtMax

instance {Task : Type} : DecidablePred fun s : Life Task => s.HasRoom :=
  fun _ => inferInstanceAs (Decidable (_ < _))

/-- The step is not a DEL_PROC. -/
def LifeOp.IsNotDel {Task : Type} : LifeOp Task → Prop
  | .delProc _ _ => False
  | _ => True

instance {Task : Type} : (op : LifeOp Task) → Decidable op.IsNotDel
  | .delProc _ _ => .isFalse id
  | .clone _ _ | .cloneRet .. | .exec _ _ | .exit _ _ | .reap _ | .addProc .. =>
      .isTrue trivial

/-- A return handler that runs in an heir runs after the one of the heir's own
creation, unless the heir has been registered otherwise. -/
def Life.InOrder {Task : Type} (s : Life Task) : LifeOp Task → Prop
  | .cloneRet _ _ p _ _ => s.Heir p → s.handled p = true ∨ p ∈ s.reg.registered
  | _ => True

theorem Life.Covered.heir {Task : Type} {s : Life Task} {t : Task} (h : s.Covered t) :
    s.handled t = true ∧ s.Heir t := by
  induction h with
  | child hbirth hhandled hprot => exact ⟨hhandled, .child hbirth hprot⟩
  | descend hbirth hhandled _ ih => exact ⟨hhandled, .descend hbirth ih.2⟩

/-- The records of past clones are consistent, and every live heir whose own
creation has been handled is registered. -/
structure Life.Inv (s : Life Task) : Prop where
  wf : s.reg.Wf
  birth_known : ∀ c b, s.birth c = some b → s.phase c ≠ .absent ∧ s.phase b.parent ≠ .absent
  handled_known : ∀ c, s.handled c = true → s.phase c ≠ .absent
  cloning_live : ∀ p c, s.cloning p = some c → s.phase p = .live
  cloning_birth : ∀ p c, s.cloning p = some c → ∃ b, s.birth c = some b ∧ b.parent = p ∧
    (b.parentProtected = true → p ∈ s.reg.registered)
  heirs : ∀ t, s.phase t = .live → s.handled t = true → s.Heir t → t ∈ s.reg.registered

theorem Life.Inv.inherits {s : Life Task} (h : s.Inv) : s.Inherits := by
  intro t hlive hcov
  exact h.heirs t hlive hcov.heir.1 hcov.heir.2

theorem Life.initial_inv (alive : Task → Bool) : (Life.initial alive).Inv where
  wf := Registry.empty_wf
  birth_known _ _ hb := by cases hb
  handled_known _ hh := by cases hh
  cloning_live _ _ hc := by cases hc
  cloning_birth _ _ hc := by cases hc
  heirs _ _ hh := by cases hh

/-- Heirs depend on the record of births alone. -/
theorem Life.Heir.of_birth_eq {Task : Type} {s s' : Life Task} {t : Task}
    (h : s'.Heir t) (hbirth : s'.birth = s.birth) : s.Heir t := by
  induction h with
  | child hb hprot => exact .child (by rw [← hbirth]; exact hb) hprot
  | descend hb _ ih => exact .descend (by rw [← hbirth]; exact hb) ih

/-- A clone makes no heir but the child. -/
theorem Life.Heir.of_clone {s : Life Task} (h : s.Inv) {p c t : Task}
    (hen : s.Enabled (.clone p c)) (hheir : (s.after (.clone p c)).Heir t) :
    t ≠ c → s.Heir t := by
  induction hheir with
  | @child t b hb hprot =>
      intro hne
      simp only [Life.after, Function.update_of_ne hne] at hb
      exact .child hb hprot
  | @descend t b hb _ ih =>
      intro hne
      simp only [Life.after, Function.update_of_ne hne] at hb
      refine .descend hb (ih ?_)
      rintro rfl
      exact (h.birth_known t b hb).2 hen.2.2

/-- Without DEL_PROC, only the exit of a task removes it. -/
theorem Life.registered_mono {s : Life Task} (h : s.reg.Wf) (op : LifeOp Task)
    (hdel : op.IsNotDel) {u : Task} (hmem : u ∈ s.reg.registered)
    (hexit : ∀ info, op ≠ .exit info u) : u ∈ (s.after op).reg.registered := by
  rw [Life.mem_registered_after h]
  cases hreg : s.registers op with
  | some t => exact .inl hmem
  | none =>
      refine ⟨hmem, ?_⟩
      rintro ⟨ro, hro, hrem⟩
      cases op with
      | exit info t =>
          cases hro
          exact hexit info (by rw [show u = t from hrem])
      | delProc find pid => exact hdel
      | cloneRet info find p c ret =>
          cases hro
          exact hrem
      | addProc info find findInNsOf pid refPid jit =>
          cases hro
          exact hrem
      | clone p c => contradiction
      | exec info t => contradiction
      | reap t => contradiction

/-- The return handler of a clone in a registered task registers the child. -/
theorem Life.cloneRet_registers {s : Life Task} (h : s.reg.Wf) (hroom : s.HasRoom)
    {info : Task → TaskInfo} {find : Int → Option Task} {p c : Task} {ret : BitVec 64}
    (hen : s.Enabled (.cloneRet info find p c ret)) (hp : p ∈ s.reg.registered)
    (hc : s.phase c ≠ .reaped) :
    c ∈ (s.after (.cloneRet info find p c ret)).reg.registered := by
  have hfind := hen.2.2.1 hc
  rcases Option.isSome_iff_exists.1 ((s.reg.jitMap_isSome_iff p).2 hp) with ⟨jit, hjit⟩
  have hregs : s.registers (.cloneRet info find p c ret) = some c := by
    simp [Life.registers, LifeOp.regOp, ProtMap.adds, hjit, hfind, not_le.2 hen.2.1]
  rw [Life.mem_registered_after h, hregs]
  exact .inr ⟨rfl, Nat.ne_of_lt hroom⟩

/-! ### The steps keep the invariant -/

theorem Life.Inv.clone {s : Life Task} (h : s.Inv) {p c : Task}
    (hen : s.Enabled (.clone p c)) : (s.after (.clone p c)).Inv := by
  have hpc : p ≠ c := by
    rintro rfl
    have hlive := hen.1
    rw [hen.2.2] at hlive
    contradiction
  have hstay : ∀ t, s.phase t ≠ .absent → t ≠ c := by
    rintro t ht rfl
    exact ht hen.2.2
  refine ⟨h.wf, ?_, ?_, ?_, ?_, ?_⟩
  · intro t b hb
    by_cases ht : t = c
    · subst t
      simp only [Life.after, Function.update_self, Option.some.injEq] at hb
      subst b
      simp [Life.after, hpc, hen.1]
    · simp only [Life.after, Function.update_of_ne ht] at hb ⊢
      have hknown := h.birth_known t b hb
      rw [Function.update_of_ne (hstay _ hknown.2)]
      exact hknown
  · intro t ht
    have hne := hstay t (h.handled_known t ht)
    simp only [Life.after, Function.update_of_ne hne]
    exact h.handled_known t ht
  · intro q d hq
    by_cases hqp : q = p
    · subst q
      simp [Life.after, hpc, hen.1]
    · simp only [Life.after, Function.update_of_ne hqp] at hq ⊢
      have hlive := h.cloning_live q d hq
      rw [Function.update_of_ne (hstay q (by rw [hlive]; decide))]
      exact hlive
  · intro q d hq
    by_cases hqp : q = p
    · subst q
      simp only [Life.after, Function.update_self, Option.some.injEq] at hq
      subst d
      refine ⟨{ parent := p, parentProtected := acIsProtectedTask s.reg p },
        by simp [Life.after], rfl, ?_⟩
      exact (acIsProtectedTask_iff s.reg p).1
    · simp only [Life.after, Function.update_of_ne hqp] at hq ⊢
      rcases h.cloning_birth q d hq with ⟨b, hb, hrest⟩
      refine ⟨b, ?_, hrest⟩
      rw [Function.update_of_ne (hstay d (h.birth_known d b hb).1)]
      exact hb
  · intro t hlive hhandled hheir
    have hne := hstay t (h.handled_known t hhandled)
    simp only [Life.after, Function.update_of_ne hne] at hlive
    exact h.heirs t hlive hhandled (hheir.of_clone h hen hne)

/-- The child of an heir, or of a protected task, is registered when the return
handlers run in order. -/
theorem Life.Inv.cloneRet {s : Life Task} (h : s.Inv) (hroom : s.HasRoom)
    {info : Task → TaskInfo} {find : Int → Option Task} {p c : Task} {ret : BitVec 64}
    (hen : s.Enabled (.cloneRet info find p c ret))
    (horder : s.InOrder (.cloneRet info find p c ret)) :
    (s.after (.cloneRet info find p c ret)).Inv := by
  have hmono : ∀ u ∈ s.reg.registered,
      u ∈ (s.after (.cloneRet info find p c ret)).reg.registered :=
    fun u hu => Life.registered_mono h.wf (.cloneRet info find p c ret) trivial hu
      (fun _ => by simp)
  rcases h.cloning_birth p c hen.1 with ⟨b, hb, rfl, hprot⟩
  refine ⟨Life.after_wf h.wf _, h.birth_known, ?_, ?_, ?_, ?_⟩
  · intro t ht
    by_cases htc : t = c
    · subst t
      exact (h.birth_known c b hb).1
    · simp only [Life.after, Function.update_of_ne htc] at ht
      exact h.handled_known t ht
  · intro q d hq
    by_cases hqp : q = b.parent
    · simp [Life.after, hqp] at hq
    · simp only [Life.after, Function.update_of_ne hqp] at hq
      exact h.cloning_live q d hq
  · intro q d hq
    by_cases hqp : q = b.parent
    · simp [Life.after, hqp] at hq
    · simp only [Life.after, Function.update_of_ne hqp] at hq
      rcases h.cloning_birth q d hq with ⟨b', hb', hpar, hprot'⟩
      exact ⟨b', hb', hpar, fun hp => hmono q (hprot' hp)⟩
  · intro t hlive hhandled hheir
    have hheir : s.Heir t := hheir.of_birth_eq (s := s) rfl
    by_cases htc : t = c
    · subst t
      have hp : b.parent ∈ s.reg.registered := by
        rcases hheir with ⟨hb', hbp⟩ | ⟨hb', hpar⟩
        · rw [hb] at hb'
          cases hb'
          exact hprot hbp
        · rw [hb] at hb'
          cases hb'
          rcases horder hpar with hdone | hreg
          · exact h.heirs _ (h.cloning_live _ _ hen.1) hdone hpar
          · exact hreg
      refine Life.cloneRet_registers h.wf hroom hen hp ?_
      intro hreaped
      rw [show s.phase c = .live from hlive] at hreaped
      contradiction
    · simp only [Life.after, Function.update_of_ne htc] at hhandled
      exact hmono t (h.heirs t hlive hhandled hheir)

/-- An exit or a reaping only takes tasks out of the live ones. -/
theorem Life.Inv.leave {s s' : Life Task} (h : s.Inv) (hwf : s'.reg.Wf) {t : Task}
    {ph : Phase} (hph : ph ≠ .absent ∧ ph ≠ .live) (hphase : s'.phase = Function.update s.phase t ph)
    (hcloning : s'.cloning = s.cloning) (hbirth : s'.birth = s.birth)
    (hhandled : s'.handled = s.handled) (hidle : s.cloning t = none)
    (hreg : ∀ u ∈ s.reg.registered, u ≠ t → u ∈ s'.reg.registered) : s'.Inv := by
  have hknown : ∀ u, s.phase u ≠ .absent → s'.phase u ≠ .absent := by
    intro u hu
    rw [hphase]
    by_cases hut : u = t
    · subst u
      simpa using hph.1
    · simpa [hut] using hu
  have hbusy : ∀ p c, s.cloning p = some c → p ≠ t := by
    rintro p c hp rfl
    rw [hidle] at hp
    contradiction
  refine ⟨hwf, ?_, ?_, ?_, ?_, ?_⟩
  · intro c b hb
    rw [hbirth] at hb
    exact ⟨hknown _ (h.birth_known c b hb).1, hknown _ (h.birth_known c b hb).2⟩
  · intro c hc
    rw [hhandled] at hc
    exact hknown c (h.handled_known c hc)
  · intro p c hp
    rw [hcloning] at hp
    rw [hphase, Function.update_of_ne (hbusy p c hp)]
    exact h.cloning_live p c hp
  · intro p c hp
    rw [hcloning] at hp
    rcases h.cloning_birth p c hp with ⟨b, hb, hpar, hprot⟩
    refine ⟨b, by rw [hbirth]; exact hb, hpar, ?_⟩
    intro hbp
    exact hreg p (hprot hbp) (hbusy p c hp)
  · intro u hlive hdone hheir
    rw [hhandled] at hdone
    have hut : u ≠ t := by
      rintro rfl
      rw [hphase, Function.update_self] at hlive
      exact hph.2 hlive
    rw [hphase, Function.update_of_ne hut] at hlive
    exact hreg u (h.heirs u hlive hdone (hheir.of_birth_eq hbirth)) hut

theorem Life.Inv.exit {s : Life Task} (h : s.Inv) {info : Task → TaskInfo} {t : Task}
    (hen : s.Enabled (.exit info t)) : (s.after (.exit info t)).Inv := by
  refine h.leave (Life.after_wf h.wf _) (by decide) rfl rfl rfl rfl hen.2 ?_
  intro u hu hne
  refine Life.registered_mono h.wf (.exit info t) trivial hu ?_
  intro info' heq
  cases heq
  exact hne rfl

theorem Life.Inv.reap {s : Life Task} (h : s.Inv) {t : Task} (hen : s.Enabled (.reap t)) :
    (s.after (.reap t)).Inv := by
  have hidle : s.cloning t = none := by
    cases hc : s.cloning t with
    | none => rfl
    | some c =>
        have hlive := h.cloning_live t c hc
        rw [show s.phase t = .exited from hen] at hlive
        contradiction
  exact h.leave h.wf (by decide) rfl rfl rfl rfl hidle (fun u hu _ => hu)

theorem Life.Inv.addProc {s : Life Task} (h : s.Inv) (info : Task → TaskInfo)
    (find : Int → Option Task) (findInNsOf : Int → Int → Option Task) (pid refPid : Int)
    (jit : Bool) : (s.after (.addProc info find findInNsOf pid refPid jit)).Inv := by
  have hmono : ∀ u ∈ s.reg.registered,
      u ∈ (s.after (.addProc info find findInNsOf pid refPid jit)).reg.registered :=
    fun u hu => Life.registered_mono h.wf (.addProc info find findInNsOf pid refPid jit)
      trivial hu (fun _ => by simp)
  refine ⟨Life.after_wf h.wf _, h.birth_known, h.handled_known, h.cloning_live, ?_, ?_⟩
  · intro p c hp
    rcases h.cloning_birth p c hp with ⟨b, hb, hpar, hprot⟩
    exact ⟨b, hb, hpar, fun hbp => hmono p (hprot hbp)⟩
  · intro t hlive hhandled hheir
    exact hmono t (h.heirs t hlive hhandled (hheir.of_birth_eq (s := s) rfl))

/-- Every step in order keeps the invariant. -/
theorem Life.Inv.step {s s' : Life Task} {op : LifeOp Task} (h : s.Inv)
    (hdel : op.IsNotDel) (hroom : s.HasRoom) (horder : s.InOrder op)
    (hstep : s.step op = some s') : s'.Inv := by
  rcases Life.step_some_iff.1 hstep with ⟨hen, rfl⟩
  cases op with
  | clone p c => exact h.clone hen
  | cloneRet info find p c ret => exact h.cloneRet hroom hen horder
  | exec info t => exact h
  | exit info t => exact h.exit hen
  | reap t => exact h.reap hen
  | addProc info find findInNsOf pid refPid jit =>
      exact h.addProc info find findInNsOf pid refPid jit
  | delProc find pid => exact absurd hdel id

/-- In every run without DEL_PROC that never fills the registry and whose
return handlers run in order, every live task that descends from a protected
task and whose line has been handled is registered, at every moment. -/
theorem inheritance_closed_of_inOrder {alive : Task → Bool} {ops : List (LifeOp Task)}
    (hdel : ∀ op ∈ ops, op.IsNotDel)
    (hroom : StepRun.Always Life.step Life.HasRoom (Life.initial alive) ops)
    (horder : StepRun.Along Life.step Life.InOrder (Life.initial alive) ops) :
    StepRun.Always Life.step Life.Inherits (Life.initial alive) ops := by
  have hinv := Life.initial_inv alive
  generalize Life.initial alive = s at hroom horder hinv ⊢
  -- the induction is on the run, for every state that meets the invariant
  induction ops generalizing s with
  | nil => exact hinv.inherits
  | cons op ops ih =>
      refine ⟨hinv.inherits, ?_⟩
      intro s' hstep
      refine ih (fun o ho => hdel o (List.mem_cons_of_mem _ ho)) s' (hroom.2 s' hstep)
        (horder.2 s' hstep) ?_
      exact hinv.step (hdel op List.mem_cons_self) hroom.1 horder.1 hstep

/-- A computable condition for order, which does not ask about descent. -/
def Life.parentReady (s : Life Task) : LifeOp Task → Bool
  | .cloneRet _ _ p _ _ => s.handled p || acIsProtectedTask s.reg p
  | _ => true

theorem Life.inOrder_of_parentReady (s : Life Task) {op : LifeOp Task}
    (h : s.parentReady op = true) : s.InOrder op := by
  cases op with
  | cloneRet info find p c ret =>
      intro _
      rw [Life.parentReady, Bool.or_eq_true, acIsProtectedTask_iff] at h
      exact h
  | _ => trivial

/-- Task 1 is protected and clones task 2, which clones task 3. -/
def twoClones : List (LifeOp Nat) :=
  [.addProc (fun t => { pid := t, comm := [] }) (fun pid => some pid.toNat)
      (fun _ _ => none) 1 0 false,
    .clone 1 2,
    .clone 2 3]

/-- The return handler of the clone of `c` by `p`. -/
def returnOf (p c : Nat) : LifeOp Nat :=
  .cloneRet (fun t => { pid := t, comm := [] }) (fun pid => some pid.toNat) p c
    (BitVec.ofNat 64 c)

/-- When the handlers run in the order of the clones, both descendants are
protected. -/
theorem two_clones_inherit :
    StepRun.Always Life.step Life.Inherits (Life.initial fun t => t == 1)
      (twoClones ++ [returnOf 1 2, returnOf 2 3]) := by
  refine inheritance_closed_of_inOrder (by decide) (by decide) ?_
  have hready : StepRun.Along Life.step (fun s op => s.parentReady op = true)
      (Life.initial fun t => t == 1) (twoClones ++ [returnOf 1 2, returnOf 2 3]) := by
    decide
  exact hready.mono fun s op hop => s.inOrder_of_parentReady hop

/-- When the handler of the second clone runs first, the grandchild is never
protected, though the registry has room and all handlers have run. -/
theorem swapped_handlers_break_inheritance :
    (∀ op ∈ twoClones ++ [returnOf 2 3, returnOf 1 2], op.IsNotDel) ∧
      StepRun.Always Life.step Life.HasRoom (Life.initial fun t => t == 1)
        (twoClones ++ [returnOf 2 3, returnOf 1 2]) ∧
      ¬StepRun.Always Life.step Life.Inherits (Life.initial fun t => t == 1)
        (twoClones ++ [returnOf 2 3, returnOf 1 2]) := by
  refine ⟨by decide, by decide, ?_⟩
  intro hclosed
  have hlast := (StepRun.always_iff_initial _ _ _ _).1 hclosed _ _ List.prefix_rfl rfl 3 rfl
    (.descend rfl rfl (.child rfl rfl rfl))
  revert hlast
  decide

end Anticheat
