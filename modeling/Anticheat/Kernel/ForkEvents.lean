import Anticheat.Kernel.TaskProbes

/-!
# Fork events

The return handler of `kernel_clone` takes the registry's lock three times: to see
whether the parent is protected, to read the parent's JIT flag, and to register the
child.  Other calls may change the registry in between, so the handler is modelled
here on the three registries that it meets.

The event says that the child has inherited the protection.  The handler sends it
whatever the registration returned, so it is true exactly when the child was
registered before or there was room for it.

Main results:

- Theorem {lit}`acCloneRet_eq_at`: without other calls in between, this is the handler
  as a whole.
- Theorem {lit}`fork_event_truthful_iff`: when the event tells the truth.
-/

namespace Anticheat

open Foundation

variable {Task : Type} [DecidableEq Task]

/-- `ac_clone_ret`, where the registry is `r₁` at the first lookup of the parent, `r₂` at
the second one and `r₃` when the child is added. -/
def acCloneRetAt (r₁ r₂ r₃ : Registry Task) (info : Task → TaskInfo)
    (find : Int → Option Task) (cur : Task) (ret : BitVec 64) :
    List EmitCall × Registry Task :=
  if ret.toInt ≤ 0 then
    ([], r₃)
  else if !acIsProtectedTask r₁ cur then
    ([], r₃)
  else
    match find (pidOfLong ret) with
    | none => ([], r₃)
    | some child =>
        let (_, r) := acAddProtTask (getTaskStruct child r₃) info child
          (acTaskJitAllowed r₂ cur)
        ([forkEvent info cur child], putTaskStruct child r)

/-- The handler without other calls in between. -/
theorem acCloneRet_eq_at (r : Registry Task) (info : Task → TaskInfo)
    (find : Int → Option Task) (cur : Task) (ret : BitVec 64) :
    acCloneRet r info find cur ret = acCloneRetAt r r r info find cur ret := by
  unfold acCloneRet acCloneRetAt
  split
  · rfl
  · split
    · rfl
    · cases find (pidOfLong ret) with
      | none => rfl
      | some child => rfl

/-- The task that a clone which returned `ret` has made, as the handler finds it. -/
def CloneMade (find : Int → Option Task) (ret : BitVec 64) (child : Task) : Prop :=
  0 < ret.toInt ∧ find (pidOfLong ret) = some child

/-- The child is registered with the flag that the handler read for the parent. -/
def Inherits (r₂ r : Registry Task) (cur child : Task) : Prop :=
  r.jitMap child = some (acTaskJitAllowed r₂ cur)

/-- There is a slot for the child: its own one, or a free one. -/
def HasSlotFor (r : Registry Task) (child : Task) : Prop :=
  child ∈ r.registered ∨ r.registered.length < acProtMax

/-- The handler of a protected task adds the child and sends one event. -/
theorem acCloneRetAt_made {r₁ r₂ r₃ : Registry Task} {info : Task → TaskInfo}
    {find : Int → Option Task} {cur child : Task} {ret : BitVec 64}
    (hcur : acIsProtectedTask r₁ cur = true) (hmade : CloneMade find ret child) :
    acCloneRetAt r₁ r₂ r₃ info find cur ret =
      ([forkEvent info cur child],
        (acAddProtTask r₃ info child (acTaskJitAllowed r₂ cur)).2) := by
  rcases hmade with ⟨hret, hfind⟩
  rw [acCloneRetAt, if_neg (not_le.2 hret), hcur, Bool.not_true, if_neg Bool.false_ne_true, hfind]
  simp only [acAddProtTask_getTaskStruct, putTaskStruct_getTaskStruct]

/-- Adding a task leaves it registered with its flag exactly when there is a slot. -/
theorem acAddProtTask_jitMap_iff {r : Registry Task} (h : r.Wf) (info : Task → TaskInfo)
    (t : Task) (jit : Bool) :
    (acAddProtTask r info t jit).2.jitMap t = some jit ↔ HasSlotFor r t := by
  have hspec := (acAddProtTask_spec h info t jit).2
  have hle := r.registered_length_le
  split at hspec
  · rename_i hfull
    rw [hspec, (r.jitMap_eq_none_iff t).2 hfull.1]
    refine iff_of_false (by simp) ?_
    rintro (hmem | hlt)
    · exact hfull.1 hmem
    · omega
  · rename_i hslot
    rw [hspec.2, Function.update_self]
    refine iff_of_true rfl ?_
    by_cases hmem : t ∈ r.registered
    · exact Or.inl hmem
    · refine Or.inr (lt_of_le_of_ne hle fun hlen => hslot ⟨hmem, hlen⟩)

/-- The fork event of a protected task's child tells the truth exactly when there was a
slot for the child; a clone that made no task leaves no event. -/
theorem fork_event_truthful_iff (r₁ r₂ : Registry Task) {r₃ : Registry Task} (h : r₃.Wf)
    (info : Task → TaskInfo) (find : Int → Option Task) {cur : Task} (ret : BitVec 64)
    (hcur : acIsProtectedTask r₁ cur = true) :
    (∀ child, CloneMade find ret child →
      ((forkEvent info cur child ∈ (acCloneRetAt r₁ r₂ r₃ info find cur ret).1 ↔
          Inherits r₂ (acCloneRetAt r₁ r₂ r₃ info find cur ret).2 cur child) ↔
        HasSlotFor r₃ child)) ∧
    ((¬∃ child, CloneMade find ret child) →
      acCloneRetAt r₁ r₂ r₃ info find cur ret = ([], r₃)) := by
  constructor
  · intro child hmade
    rw [acCloneRetAt_made hcur hmade, Inherits, acAddProtTask_jitMap_iff h]
    simp
  · intro hnone
    rw [acCloneRetAt, hcur]
    split
    · rfl
    · rename_i hret
      cases hfind : find (pidOfLong ret) with
      | none => rfl
      | some child => exact absurd ⟨child, not_le.1 hret, hfind⟩ hnone

/-- Tasks that are numbered by their pids. -/
def numbered (t : Nat) : TaskInfo where
  pid := t
  comm := CStr.ascii "game"

/-- The registry after some tasks were protected. -/
def protecting (tasks : List Nat) : Registry Nat :=
  tasks.foldl (fun r t => (acAddProtTask r numbered t false).2) (Registry.empty Nat)

theorem protecting_wf (tasks : List Nat) : (protecting tasks).Wf := by
  unfold protecting
  induction tasks using List.reverseRecOn with
  | nil => exact Registry.empty_wf
  | append_singleton tasks t ih =>
      rw [List.foldl_append]
      exact (acAddProtTask_spec ih numbered t false).1

theorem child_of_one_inherits :
    forkEvent numbered 1 2 ∈ (acCloneRetAt (protecting [1]) (protecting [1]) (protecting [1])
        numbered (fun pid => some pid.toNat) 1 2).1 ∧
      Inherits (protecting [1]) (acCloneRetAt (protecting [1]) (protecting [1]) (protecting [1])
        numbered (fun pid => some pid.toNat) 1 2).2 1 2 := by
  have htruth := (fork_event_truthful_iff (protecting [1]) (protecting [1]) (protecting_wf [1])
    numbered (fun pid => some pid.toNat) 2
    (show acIsProtectedTask (protecting [1]) 1 = true by decide +kernel)).1 2
    ⟨by decide, by decide⟩
  have hroom : HasSlotFor (protecting [1]) 2 := Or.inr (by decide +kernel)
  have hevent : forkEvent numbered 1 2 ∈ (acCloneRetAt (protecting [1]) (protecting [1])
      (protecting [1]) numbered (fun pid => some pid.toNat) 1 2).1 := List.mem_singleton.2 rfl
  exact ⟨hevent, (htruth.2 hroom).1 hevent⟩

/-- With 64 tasks protected, task 1 among them, the child 65 of task 1 is not registered
and the event is sent. -/
theorem full_registry_fork_event :
    (protecting (List.range' 1 64)).Wf ∧
      acIsProtectedTask (protecting (List.range' 1 64)) 1 = true ∧
      CloneMade (fun pid => some pid.toNat) 65 65 ∧
      ¬(forkEvent numbered 1 65 ∈ (acCloneRet (protecting (List.range' 1 64)) numbered
          (fun pid => some pid.toNat) 1 65).1 ↔
        Inherits (protecting (List.range' 1 64)) (acCloneRet (protecting (List.range' 1 64))
          numbered (fun pid => some pid.toNat) 1 65).2 1 65) := by
  have hcur : acIsProtectedTask (protecting (List.range' 1 64)) 1 = true := by decide +kernel
  have hmade : CloneMade (fun pid : Int => some pid.toNat) 65 65 := ⟨by decide, by decide⟩
  refine ⟨protecting_wf _, hcur, hmade, ?_⟩
  rw [acCloneRet_eq_at, acCloneRetAt_made hcur hmade, Inherits,
    acAddProtTask_jitMap_iff (protecting_wf _)]
  intro htruth
  have hslot := htruth.1 (List.mem_singleton.2 rfl)
  have hfull : ¬(65 ∈ (protecting (List.range' 1 64)).registered ∨
      (protecting (List.range' 1 64)).registered.length < acProtMax) := by decide +kernel
  exact hfull hslot

end Anticheat
