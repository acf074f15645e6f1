import Anticheat.Kernel.Abi

/-!
# The protected process registry

The module protects processes by keeping pointers to their task structures in
a table of 64 slots.  Each occupied slot owns one reference to its task; a
counter of occupied slots is kept beside the table.

Tasks are pointers, that is, values of an arbitrary type with decidable
equality.  The two fields that the module reads through a pointer come from a
function that stands for the memory of the kernel at that moment.

Main results:

- Structure {lit}`Registry.Wf`: the slots name distinct tasks, the counter and
  the references agree with them.
- Theorems {lit}`acAddProtTask_spec`, {lit}`acDelProtTask_spec` and
  {lit}`acClearProtected_spec`: the three updates, seen as updates of a finite
  map from tasks to JIT flags.
- Theorem {lit}`acListProtected_spec`: the listing reports each protected task
  once.
-/

namespace Anticheat

open Foundation

/-- `AC_PROT_MAX` -/
def acProtMax : Nat := 64

/-- The fields of a task structure that the module reads. -/
structure TaskInfo where
  pid : Int
  comm : CStr
deriving DecidableEq, Inhabited

/-- `struct ac_prot_entry`.  A slot whose task is NULL is free; its other
fields keep what the last occupant left there. -/
structure AcProtEntry (Task : Type) where
  task : Option Task := none
  pid : Int := 0
  jitAllowed : Bool := false
  comm : CStr := []
deriving DecidableEq

/-- `ac_prots` and `ac_prot_count`, with the task references that the module
has taken and not yet given back. -/
structure Registry (Task : Type) where
  prots : SlotTable (AcProtEntry Task) acProtMax
  protCount : UInt32
  refs : Task → Int

/-- The registry at module load. -/
def Registry.empty (Task : Type) : Registry Task where
  prots := SlotTable.replicate acProtMax {}
  protCount := 0
  refs := fun _ => 0

variable {Task : Type} [DecidableEq Task]

/-- `get_task_struct` -/
def getTaskStruct (t : Task) (r : Registry Task) : Registry Task :=
  { r with refs := fun u => r.refs u + if u = t then 1 else 0 }

/-- `put_task_struct` -/
def putTaskStruct (t : Task) (r : Registry Task) : Registry Task :=
  { r with refs := fun u => r.refs u - if u = t then 1 else 0 }

/-- The slot of a newly protected task. -/
def protEntry (info : Task → TaskInfo) (t : Task) (jitAllowed : Bool) :
    AcProtEntry Task where
  task := some t
  pid := (info t).pid
  jitAllowed := jitAllowed
  comm := CStr.bounded acMaxComm (info t).comm

/-- `ac_add_prot_task` -/
def acAddProtTask (r : Registry Task) (info : Task → TaskInfo) (t : Task)
    (jitAllowed : Bool) : Except Errno Unit × Registry Task :=
  match r.prots.scan AcProtEntry.task t with
  | .hit i =>
      -- already protected; the flag is updatable by protecting again
      (.ok (), { r with
        prots := r.prots.modify i fun e => { e with jitAllowed := jitAllowed } })
  | .miss none => (.error .ENOSPC, r)
  | .miss (some slot) =>
      let r := getTaskStruct t r
      (.ok (), { r with
        prots := r.prots.set slot (protEntry info t jitAllowed)
        protCount := r.protCount + 1 })

/-- `ac_del_prot_task` -/
def acDelProtTask (r : Registry Task) (t : Task) : Registry Task :=
  match r.prots.scan AcProtEntry.task t with
  | .hit i =>
      let r := putTaskStruct t r
      { r with
        prots := r.prots.modify i fun e => { e with task := none }
        protCount := r.protCount - 1 }
  | .miss _ => r

/-- `ac_task_jit_allowed` -/
def acTaskJitAllowed (r : Registry Task) (t : Task) : Bool :=
  match r.prots.lookup AcProtEntry.task t with
  | some e => e.jitAllowed
  | none => false

/-- `ac_is_protected_task` -/
def acIsProtectedTask (r : Registry Task) (t : Task) : Bool :=
  (r.prots.lookup AcProtEntry.task t).isSome

/-- `ac_is_protected_pid`: the task that `ac_find_task` returns for the pid is
protected.  When it is, its name is copied out. -/
def acIsProtectedPid (r : Registry Task) (info : Task → TaskInfo)
    (find : Int → Option Task) (pid : Int) : Option CStr :=
  match find pid with
  | none => none
  | some t =>
      if acIsProtectedTask r t then some (CStr.bounded acMaxComm (info t).comm)
      else none

/-- `ac_protected_count` -/
def acProtectedCount (r : Registry Task) : UInt32 :=
  r.protCount

/-- The item that the listing makes of an occupied slot. -/
def AcProtEntry.item {Task : Type} (e : AcProtEntry Task) : AcProtItem where
  pid := e.pid
  jitAllowed := e.jitAllowed
  comm := CStr.bounded acMaxComm e.comm

/-- The loop of `ac_list_protected`: `n` items have been written. -/
def listLoop {Task : Type} : List (AcProtEntry Task) → Nat →
    SlotTable AcProtItem acMaxProts → Nat × SlotTable AcProtItem acMaxProts
  | [], n, items => (n, items)
  | e :: rest, n, items =>
      if n < acMaxProts then
        if e.task.isNone then listLoop rest n items
        else listLoop rest (n + 1) (items.set n e.item)
      else (n, items)

/-- `ac_list_protected` -/
def acListProtected {Task : Type} (r : Registry Task) (out : AcProtList) : AcProtList :=
  let (n, items) := listLoop r.prots.slots 0 out.items
  { count := n, items := items }

/-- `ac_clear_protected` -/
def acClearProtected (r : Registry Task) : Registry Task :=
  let r := r.prots.slots.foldl (fun r e =>
    match e.task with
    | some t => putTaskStruct t r
    | none => r) r
  { r with
    prots := r.prots.map fun e => { e with task := none }
    protCount := 0 }

/-! ## Views of the table -/

/-- The registered tasks, in slot order. -/
def Registry.registered {Task : Type} (r : Registry Task) : List Task :=
  r.prots.occupied AcProtEntry.task

/-- The occupied slots. -/
def Registry.entries {Task : Type} (r : Registry Task) : List (AcProtEntry Task) :=
  r.prots.slots.filter fun e => e.task.isSome

/-- The finite map from registered tasks to their JIT flag. -/
def Registry.jitMap (r : Registry Task) : Task → Option Bool :=
  r.prots.toMap AcProtEntry.task AcProtEntry.jitAllowed

/-- The table names each task at most once, and the counter and the references
say the same as the table. -/
structure Registry.Wf (r : Registry Task) : Prop where
  nodup : r.registered.Nodup
  count_eq : r.protCount.toNat = r.registered.length
  refs_eq : ∀ t, r.refs t = if t ∈ r.registered then 1 else 0

omit [DecidableEq Task] in
theorem Registry.registered_length_le (r : Registry Task) :
    r.registered.length ≤ acProtMax :=
  SlotTable.occupied_length_le _ _

theorem Registry.Wf.refines {r : Registry Task} (h : r.Wf) :
    SlotTable.Refines AcProtEntry.task AcProtEntry.jitAllowed r.prots r.jitMap :=
  ⟨h.nodup, rfl⟩

/-- A task is reported as protected exactly when it is registered. -/
theorem acIsProtectedTask_iff (r : Registry Task) (t : Task) :
    acIsProtectedTask r t = true ↔ t ∈ r.registered := by
  rw [Registry.registered, ← SlotTable.toMap_isSome_iff AcProtEntry.task AcProtEntry.jitAllowed,
    SlotTable.toMap, Option.isSome_map]
  rfl

theorem Registry.jitMap_isSome_iff (r : Registry Task) (t : Task) :
    (r.jitMap t).isSome ↔ t ∈ r.registered :=
  SlotTable.toMap_isSome_iff _ _ _ _

theorem Registry.jitMap_eq_none_iff (r : Registry Task) (t : Task) :
    r.jitMap t = none ↔ t ∉ r.registered := by
  rw [← Option.not_isSome_iff_eq_none, Registry.jitMap_isSome_iff]

/-- The JIT flag that the module reads is the one in the map. -/
theorem acTaskJitAllowed_eq (r : Registry Task) (t : Task) :
    acTaskJitAllowed r t = (r.jitMap t).getD false := by
  simp only [acTaskJitAllowed, Registry.jitMap, SlotTable.toMap]
  cases r.prots.lookup AcProtEntry.task t with
  | none => rfl
  | some e => rfl

theorem Registry.empty_wf : (Registry.empty Task).Wf := by
  have hnil : (Registry.empty Task).registered = [] := by
    simp [Registry.registered, Registry.empty, SlotTable.occupied, SlotTable.replicate]
  refine ⟨by rw [hnil]; exact List.nodup_nil, by rw [hnil]; rfl, ?_⟩
  intro t
  rw [hnil]
  simp [Registry.empty]

theorem Registry.empty_jitMap : (Registry.empty Task).jitMap = fun _ => none :=
  (SlotTable.Refines.replicate_free (s := ({} : AcProtEntry Task)) rfl).map_eq

theorem Registry.empty_not_registered (t : Task) : t ∉ (Registry.empty Task).registered := by
  rw [← Registry.jitMap_eq_none_iff, Registry.empty_jitMap]

/-! ## Adding a task -/

/-- Adding a registered task changes its flag. -/
theorem acAddProtTask_registered {r : Registry Task} (h : r.Wf)
    (info : Task → TaskInfo) {t : Task} (jit : Bool) (hmem : t ∈ r.registered) :
    ∃ r', acAddProtTask r info t jit = (.ok (), r') ∧ r'.Wf ∧
      r'.registered = r.registered ∧
      r'.jitMap = Function.update r.jitMap t (some jit) := by
  rcases (SlotTable.scan_hit_iff AcProtEntry.task t r.prots).2 hmem with ⟨i, hscan⟩
  rcases h.refines.update (f := fun e => { e with jitAllowed := jit }) hscan
      (fun _ => rfl) (fun _ => rfl) with ⟨href, hocc⟩
  have heq : acAddProtTask r info t jit = (.ok (), { r with
      prots := r.prots.modify i fun e => { e with jitAllowed := jit } }) := by
    rw [acAddProtTask, hscan]
  refine ⟨_, heq, ⟨href.nodup, ?_, ?_⟩, hocc, href.map_eq⟩
  · simp only [Registry.registered, hocc]
    exact h.count_eq
  · simp only [Registry.registered, hocc]
    exact h.refs_eq

/-- Adding a new task to a full table fails and changes nothing. -/
theorem acAddProtTask_full {r : Registry Task} (info : Task → TaskInfo) {t : Task}
    (jit : Bool) (hnew : t ∉ r.registered) (hfull : r.registered.length = acProtMax) :
    acAddProtTask r info t jit = (.error .ENOSPC, r) := by
  have hscan := (SlotTable.scan_eq_miss_none_iff AcProtEntry.task t r.prots).2 ⟨hnew, hfull⟩
  rw [acAddProtTask, hscan]

/-- Adding a new task to a table with room takes one slot, one reference and
one count. -/
theorem acAddProtTask_new {r : Registry Task} (h : r.Wf) (info : Task → TaskInfo)
    {t : Task} (jit : Bool) (hnew : t ∉ r.registered)
    (hroom : r.registered.length ≠ acProtMax) :
    ∃ r', acAddProtTask r info t jit = (.ok (), r') ∧ r'.Wf ∧
      r'.registered.Perm (t :: r.registered) ∧
      r'.jitMap = Function.update r.jitMap t (some jit) := by
  have hslot : ∃ slot, r.prots.scan AcProtEntry.task t = .miss (some slot) := by
    cases hscan : r.prots.scan AcProtEntry.task t with
    | hit i => exact absurd ((SlotTable.scan_hit_iff _ _ _).1 ⟨i, hscan⟩) hnew
    | miss free =>
        cases free with
        | none => exact absurd ((SlotTable.scan_eq_miss_none_iff _ _ _).1 hscan).2 hroom
        | some slot => exact ⟨slot, rfl⟩
  rcases hslot with ⟨slot, hscan⟩
  have href := h.refines.insert (protEntry info t jit) hscan rfl
  have hperm := SlotTable.occupied_set_perm (protEntry info t jit) hscan rfl
  have heq : acAddProtTask r info t jit = (.ok (), { getTaskStruct t r with
      prots := r.prots.set slot (protEntry info t jit)
      protCount := r.protCount + 1 }) := by
    rw [acAddProtTask, hscan]
    rfl
  refine ⟨_, heq, ⟨href.nodup, ?_, ?_⟩, hperm, href.map_eq⟩
  · have hle := r.registered_length_le
    have hmax : acProtMax = 64 := rfl
    change (r.protCount + 1).toNat =
      ((r.prots.set slot (protEntry info t jit)).occupied AcProtEntry.task).length
    rw [hperm.length_eq, List.length_cons, UInt32.toNat_add, h.count_eq, UInt32.toNat_one]
    change (r.registered.length + 1) % 2 ^ 32 = r.registered.length + 1
    omega
  · intro u
    have hmem : u ∈ (r.prots.set slot (protEntry info t jit)).occupied AcProtEntry.task ↔
        u = t ∨ u ∈ r.registered := by
      rw [hperm.mem_iff, List.mem_cons]
      rfl
    change r.refs u + (if u = t then 1 else 0) =
      if u ∈ (r.prots.set slot (protEntry info t jit)).occupied AcProtEntry.task then 1 else 0
    rw [h.refs_eq u]
    by_cases hu : u = t
    · subst u
      simp [hmem, hnew]
    · simp [hmem, hu]

/-- Adding a task fails exactly when 64 other tasks are registered, and then
changes nothing; otherwise it sets that task's flag and no other's. -/
theorem acAddProtTask_spec {r : Registry Task} (h : r.Wf) (info : Task → TaskInfo)
    (t : Task) (jit : Bool) :
    (acAddProtTask r info t jit).2.Wf ∧
      if t ∉ r.registered ∧ r.registered.length = acProtMax then
        acAddProtTask r info t jit = (.error .ENOSPC, r)
      else
        (acAddProtTask r info t jit).1 = .ok () ∧
          (acAddProtTask r info t jit).2.jitMap =
            Function.update r.jitMap t (some jit) := by
  by_cases hmem : t ∈ r.registered
  · rcases acAddProtTask_registered h info jit hmem with ⟨r', heq, hwf, -, hmap⟩
    rw [if_neg (fun hc => hc.1 hmem), heq]
    exact ⟨hwf, rfl, hmap⟩
  · by_cases hfull : r.registered.length = acProtMax
    · rw [if_pos ⟨hmem, hfull⟩, acAddProtTask_full info jit hmem hfull]
      exact ⟨h, rfl⟩
    · rcases acAddProtTask_new h info jit hmem hfull with ⟨r', heq, hwf, -, hmap⟩
      rw [if_neg (fun hc => hfull hc.2), heq]
      exact ⟨hwf, rfl, hmap⟩

/-! ## Removing tasks -/

/-- Removing a task forgets that task and no other. -/
theorem acDelProtTask_spec {r : Registry Task} (h : r.Wf) (t : Task) :
    (acDelProtTask r t).Wf ∧
      (acDelProtTask r t).jitMap = Function.update r.jitMap t none := by
  cases hscan : r.prots.scan AcProtEntry.task t with
  | hit i =>
      rcases h.refines.delete (f := fun e => { e with task := none }) hscan
          (fun _ => rfl) with ⟨href, hperm⟩
      have hcons := hperm.nodup_iff.1 h.nodup
      rw [acDelProtTask, hscan]
      refine ⟨⟨href.nodup, ?_, ?_⟩, href.map_eq⟩
      · have hle := r.registered_length_le
        have hlen := hperm.length_eq
        have hmax : acProtMax = 64 := rfl
        have hcount := h.count_eq
        rw [List.length_cons] at hlen
        simp only [Registry.registered, putTaskStruct] at hle hcount ⊢
        rw [UInt32.toNat_sub_of_le]
        · rw [hcount, hlen]
          rfl
        · rw [UInt32.le_iff_toNat_le, hcount, hlen]
          simp
      · intro u
        have hmem : u ∈ r.registered ↔ u = t ∨
            u ∈ (r.prots.modify i fun e => { e with task := none }).occupied
              AcProtEntry.task := by
          rw [Registry.registered, hperm.mem_iff, List.mem_cons]
        change r.refs u - (if u = t then 1 else 0) =
          if u ∈ (r.prots.modify i fun e => { e with task := none }).occupied
            AcProtEntry.task then 1 else 0
        rw [h.refs_eq u]
        by_cases hu : u = t
        · subst u
          simp [hmem, (List.nodup_cons.1 hcons).1]
        · simp [hmem, hu]
  | miss free =>
      have hnot : t ∉ r.registered := by
        intro hmem
        rcases (SlotTable.scan_hit_iff AcProtEntry.task t r.prots).2 hmem with ⟨i, hhit⟩
        rw [hscan] at hhit
        contradiction
      rw [acDelProtTask, hscan]
      refine ⟨h, ?_⟩
      rw [← (r.jitMap_eq_none_iff t).2 hnot, Function.update_eq_self]

/-- The references after giving back one for each occupied slot of a list. -/
theorem foldl_putTaskStruct (l : List (AcProtEntry Task)) (r : Registry Task) :
    l.foldl (fun r e =>
        match e.task with
        | some t => putTaskStruct t r
        | none => r) r =
      { r with refs := fun u => r.refs u - (l.filterMap AcProtEntry.task).count u } := by
  induction l generalizing r with
  | nil => simp
  | cons e l ih =>
      rw [List.foldl_cons, ih]
      cases ht : e.task with
      | none => simp [ht]
      | some t =>
          simp only [putTaskStruct, List.filterMap_cons, ht, List.count_cons]
          congr 1
          funext u
          by_cases hu : u = t
          · subst u
            simp
            omega
          · simp [hu, Ne.symm hu]

/-- Clearing the registry forgets every task and gives every reference back. -/
theorem acClearProtected_spec {r : Registry Task} (h : r.Wf) :
    (acClearProtected r).Wf ∧ (acClearProtected r).jitMap = fun _ => none := by
  have hocc : (acClearProtected r).registered = [] := by
    simp [acClearProtected, foldl_putTaskStruct, Registry.registered, SlotTable.occupied]
  have hcount : ∀ u, (r.registered.count u : Int) = if u ∈ r.registered then 1 else 0 := by
    intro u
    by_cases hu : u ∈ r.registered
    · simp [hu, List.count_eq_one_of_mem h.nodup hu]
    · simp [hu, List.count_eq_zero_of_not_mem hu]
  refine ⟨⟨by rw [hocc]; exact List.nodup_nil, by rw [hocc]; rfl, ?_⟩, ?_⟩
  · intro u
    have hrefs : (acClearProtected r).refs u = r.refs u - r.registered.count u := by
      simp only [acClearProtected, foldl_putTaskStruct]
      rfl
    rw [hrefs, hcount, h.refs_eq u, hocc]
    simp
  · funext t
    rw [Registry.jitMap_eq_none_iff, hocc]
    simp

/-! ## References of lookups -/

@[simp]
theorem putTaskStruct_getTaskStruct (t : Task) (r : Registry Task) :
    putTaskStruct t (getTaskStruct t r) = r := by
  simp [putTaskStruct, getTaskStruct]

/-- A reference held across the call does not change what adding does. -/
theorem acAddProtTask_getTaskStruct (r : Registry Task) (info : Task → TaskInfo)
    (t u : Task) (jit : Bool) :
    acAddProtTask (getTaskStruct u r) info t jit =
      ((acAddProtTask r info t jit).1, getTaskStruct u (acAddProtTask r info t jit).2) := by
  simp only [acAddProtTask, getTaskStruct]
  split
  · rfl
  · rfl
  · simp only [Prod.mk.injEq, Registry.mk.injEq, true_and]
    funext v
    omega

/-- A reference held across the call does not change what removing does. -/
theorem acDelProtTask_getTaskStruct (r : Registry Task) (t u : Task) :
    acDelProtTask (getTaskStruct u r) t = getTaskStruct u (acDelProtTask r t) := by
  simp only [acDelProtTask, getTaskStruct, putTaskStruct]
  split
  · simp only [Registry.mk.injEq, true_and]
    funext v
    omega
  · rfl

/-! ## Listing -/

omit [DecidableEq Task] in
theorem Registry.entries_task (r : Registry Task) :
    r.entries.map AcProtEntry.task = r.registered.map some := by
  rw [Registry.entries, Registry.registered, SlotTable.occupied]
  induction r.prots.slots with
  | nil => rfl
  | cons e l ih =>
      cases ht : e.task with
      | none => simpa [ht] using ih
      | some t => simpa [ht] using ih

omit [DecidableEq Task] in
theorem Registry.length_entries (r : Registry Task) :
    r.entries.length = r.registered.length := by
  have h := congrArg List.length r.entries_task
  simpa using h

omit [DecidableEq Task] in
/-- The loop appends the items of the occupied slots, if they all fit. -/
theorem listLoop_spec (l : List (AcProtEntry Task)) (n : Nat)
    (items : SlotTable AcProtItem acMaxProts)
    (hfit : n + (l.filter fun e => e.task.isSome).length ≤ acMaxProts) :
    (listLoop l n items).1 = n + (l.filter fun e => e.task.isSome).length ∧
      (listLoop l n items).2.slots.take (listLoop l n items).1 =
        items.slots.take n ++ (l.filter fun e => e.task.isSome).map AcProtEntry.item := by
  induction l generalizing n items with
  | nil => simp [listLoop]
  | cons e l ih =>
      by_cases hn : n < acMaxProts
      · cases ht : e.task with
        | none =>
            have hskip : listLoop (e :: l) n items = listLoop l n items := by
              simp [listLoop, hn, ht]
            have hfilter : ((e :: l).filter fun e => e.task.isSome) =
                l.filter fun e => e.task.isSome := by
              simp [ht]
            rw [hskip, hfilter]
            rw [hfilter] at hfit
            exact ih n items hfit
        | some t =>
            have htake : listLoop (e :: l) n items =
                listLoop l (n + 1) (items.set n e.item) := by
              simp [listLoop, hn, ht]
            have hfilter : ((e :: l).filter fun e => e.task.isSome) =
                e :: l.filter fun e => e.task.isSome := by
              simp [ht]
            rw [hfilter, List.length_cons] at hfit
            rcases ih (n + 1) (items.set n e.item) (by omega) with ⟨hcount, hitems⟩
            rw [htake, hfilter]
            refine ⟨by rw [hcount, List.length_cons]; omega, ?_⟩
            have hlen : n < items.slots.length := by
              rw [items.length_slots]
              exact hn
            rw [hitems, SlotTable.set_slots, List.take_add_one, List.getElem?_set_self hlen,
              List.take_set_of_le (Nat.le_refl _)]
            simp
      · have hzero : (((e :: l).filter fun e => e.task.isSome)).length = 0 := by omega
        rw [List.length_eq_zero_iff] at hzero
        have hstop : listLoop (e :: l) n items = (n, items) := by
          simp [listLoop, hn]
        rw [hstop, hzero]
        simp

omit [DecidableEq Task] in
/-- The listing reports each occupied slot once and counts them. -/
theorem acListProtected_spec (r : Registry Task) (out : AcProtList) :
    (acListProtected r out).count = r.registered.length ∧
      (acListProtected r out).reported = r.entries.map AcProtEntry.item := by
  have hle := r.registered_length_le
  have hfit : 0 + r.entries.length ≤ acMaxProts := by
    rw [Nat.zero_add, r.length_entries]
    exact hle
  rcases listLoop_spec r.prots.slots 0 out.items hfit with ⟨hcount, hitems⟩
  refine ⟨?_, ?_⟩
  · rw [← r.length_entries]
    simpa [acListProtected, Registry.entries] using hcount
  · simpa [acListProtected, AcProtList.reported, Registry.entries] using hitems

/-- The flag in an occupied slot is the flag of its task. -/
theorem Registry.Wf.jitMap_entry {r : Registry Task} (h : r.Wf) {e : AcProtEntry Task}
    {t : Task} (he : e ∈ r.entries) (ht : e.task = some t) :
    r.jitMap t = some e.jitAllowed := by
  rw [Registry.entries, List.mem_filter] at he
  rcases List.append_of_mem he.1 with ⟨pre, post, hslots⟩
  have hocc := SlotTable.occupied_split AcProtEntry.task hslots
  have hnodup := h.nodup
  rw [Registry.registered, hocc, ht] at hnodup
  have hpre : t ∉ pre.filterMap AcProtEntry.task := by
    intro hmem
    exact (List.disjoint_of_nodup_append hnodup) hmem (by simp)
  rw [Registry.jitMap, SlotTable.toMap, SlotTable.lookup, hslots,
    SlotTable.find?_split, if_neg hpre, if_pos ht]
  rfl

/-! ## What the listing says of a task -/

/-- Each occupied slot holds the pid and the name that `ids` gives its task. -/
def Registry.Named (r : Registry Task) (ids : Task → TaskInfo) : Prop :=
  ∀ e ∈ r.prots.slots, ∀ t, e.task = some t →
    e.pid = (ids t).pid ∧ e.comm = CStr.bounded acMaxComm (ids t).comm

omit [DecidableEq Task] in
theorem Registry.empty_named (ids : Task → TaskInfo) : (Registry.empty Task).Named ids := by
  intro e he t ht
  rw [List.eq_of_mem_replicate he] at ht
  contradiction

/-- Adding a task that has a slot leaves its pid and its name. -/
theorem Registry.Named.add_registered {r : Registry Task} {ids : Task → TaskInfo}
    (h : r.Named ids) (info : Task → TaskInfo) {t : Task} (jit : Bool)
    (hmem : t ∈ r.registered) : (acAddProtTask r info t jit).2.Named ids := by
  rcases (SlotTable.scan_hit_iff AcProtEntry.task t r.prots).2 hmem with ⟨i, hscan⟩
  rw [acAddProtTask, hscan]
  exact SlotTable.forall_modify h fun e he => he

/-- A task that gets a slot is named by what the module reads of it then. -/
theorem Registry.Named.add_new {r : Registry Task} {ids : Task → TaskInfo}
    (h : r.Named ids) (info : Task → TaskInfo) {t : Task} (jit : Bool)
    (hnew : t ∉ r.registered) (hroom : r.registered.length ≠ acProtMax) :
    (acAddProtTask r info t jit).2.Named (Function.update ids t (info t)) := by
  -- the other slots name other tasks
  have hothers : r.Named (Function.update ids t (info t)) := by
    intro e he u hu
    have hne : u ≠ t := by
      rintro rfl
      exact hnew (List.mem_filterMap.2 ⟨e, he, hu⟩)
    rw [Function.update_of_ne hne]
    exact h e he u hu
  cases hscan : r.prots.scan AcProtEntry.task t with
  | hit i => exact absurd ((SlotTable.scan_hit_iff _ _ _).1 ⟨i, hscan⟩) hnew
  | miss free =>
      cases free with
      | none => exact absurd ((SlotTable.scan_eq_miss_none_iff _ _ _).1 hscan).2 hroom
      | some slot =>
          rw [acAddProtTask, hscan]
          apply SlotTable.forall_set hothers
          intro u hu
          cases hu
          rw [Function.update_self]
          exact ⟨rfl, rfl⟩

theorem Registry.Named.del {r : Registry Task} {ids : Task → TaskInfo} (h : r.Named ids)
    (t : Task) : (acDelProtTask r t).Named ids := by
  rw [acDelProtTask]
  cases r.prots.scan AcProtEntry.task t with
  | hit i =>
      apply SlotTable.forall_modify h
      intro e _ u hu
      contradiction
  | miss free => exact h

theorem Registry.clear_named (r : Registry Task) (ids : Task → TaskInfo) :
    (acClearProtected r).Named ids := by
  intro e he t ht
  rcases List.mem_map.1 he with ⟨old, -, rfl⟩
  contradiction

omit [DecidableEq Task] in
/-- A list made from the occupied slots, read off the registered tasks. -/
theorem Registry.map_entries {β : Type} (r : Registry Task) {f : AcProtEntry Task → β}
    {g : Task → β} (h : ∀ e ∈ r.entries, ∀ t, e.task = some t → f e = g t) :
    r.entries.map f = r.registered.map g := by
  have hreg : r.registered = r.entries.filterMap AcProtEntry.task := by
    rw [Registry.registered, SlotTable.occupied, Registry.entries, List.filterMap_filter]
    congr 1
    funext e
    cases e.task with
    | none => rfl
    | some t => rfl
  rw [hreg, List.map_filterMap, ← List.filterMap_eq_map]
  apply List.filterMap_congr
  intro e he
  rcases Option.isSome_iff_exists.1 (List.mem_filter.1 he).2 with ⟨t, ht⟩
  rw [ht, Function.comp_apply, h e he t ht]
  rfl

/-- The listing has one item for each registered task, in slot order: the pid
and the name of the task when it was registered, and its flag. -/
theorem Registry.Wf.list_items {r : Registry Task} (h : r.Wf) {ids : Task → TaskInfo}
    (hids : r.Named ids) (out : AcProtList) :
    (acListProtected r out).reported = r.registered.map fun t =>
      { pid := (ids t).pid
        jitAllowed := acTaskJitAllowed r t
        comm := CStr.bounded acMaxComm (ids t).comm } := by
  rw [(acListProtected_spec r out).2]
  apply r.map_entries
  intro e he t ht
  rcases hids e (List.mem_of_mem_filter he) t ht with ⟨hpid, hcomm⟩
  rw [AcProtEntry.item, hpid, hcomm, CStr.bounded_bounded, acTaskJitAllowed_eq,
    h.jitMap_entry he ht]
  rfl

end Anticheat
