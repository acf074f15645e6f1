import Anticheat.Kernel.EventRing

/-!
# Building snapshots

A scan copies the memory areas of a process, in address order, into an array
that is attached to the open file; a module listing does the same with the
module list.  Both arrays have a fixed capacity and are not cleared when they
are allocated, so a cell is either written by the copying loop or indefinite.

Main results:

- Theorem {lit}`vmaLoop_spec`: what the copying loop leaves in the array and in
  the counters.
- Theorems {lit}`acBuildVmaSnapshot_ok` and {lit}`acBuildVmaSnapshot_fails`: a
  scan records the first areas of the process, or leaves an empty snapshot.
- Theorem {lit}`acBuildModSnapshot_spec`: the same for the module list.
-/

namespace Anticheat

open Foundation

/-! ## Address spaces -/

/-- The file behind a memory area: its inode number, if it has an inode, its
path, and whether `d_path` can write that path into a buffer. -/
structure VmFile where
  ino : Option UInt64
  path : CStr
  dPathOk : Bool
deriving DecidableEq

/-- The fields of `struct vm_area_struct` that the module reads. -/
structure VmArea where
  vmStart : UInt64
  vmEnd : UInt64
  vmPgoff : UInt64
  vmFlags : UInt64
  vmFile : Option VmFile
deriving DecidableEq

/-- `PAGE_SHIFT` -/
def pageShift : UInt64 := 12

/-- The area is executable. -/
def VmArea.isExec (a : VmArea) : Bool :=
  (a.vmFlags &&& acVmExec) != 0

/-- The area is writable and executable. -/
def VmArea.isRwx (a : VmArea) : Bool :=
  (a.vmFlags &&& (acVmExec ||| acVmWrite)) == (acVmExec ||| acVmWrite)

/-- The area is executable and has no file behind it. -/
def VmArea.isAnonExec (a : VmArea) : Bool :=
  a.vmFile.isNone && a.isExec

/-- The path that is recorded for a file, where `buf` is the outcome of the
allocation of the path buffer. -/
def vmaPath (buf : Bool) (f : VmFile) : CStr :=
  if buf then
    if f.dPathOk then CStr.bounded acVmaPath f.path else []
  else []

/-- The record of one area. -/
def vmaInfo (buf : Bool) (a : VmArea) : AcVmaInfo where
  start := a.vmStart
  stop := a.vmEnd
  offset := a.vmPgoff <<< pageShift
  inode :=
    match a.vmFile with
    | some f => f.ino.getD 0
    | none => 0
  flags := a.vmFlags
  isFile := a.vmFile.isSome
  path :=
    match a.vmFile with
    | some f => vmaPath buf f
    | none => []

/-! ## The state of an open file -/

/-- `struct ac_fd_state`.  An array that is not allocated is a NULL pointer; a
cell that was not written since the allocation is `none`. -/
structure AcFdState where
  vmas : Option (SlotTable (Option AcVmaInfo) acMaxVmas) := none
  nVmas : Nat := 0
  rwxCount : Nat := 0
  execCount : Nat := 0
  anonExecCount : Nat := 0
  truncated : Bool := false
  mods : Option (SlotTable (Option AcModInfo) acMaxMods) := none
  nMods : Nat := 0
deriving DecidableEq

/-! ## Scanning a process -/

/-- The event for a writable and executable area. -/
def rwxEvent (pid : Int) (vi : AcVmaInfo) : EmitCall where
  type := .rwx
  pid := pid
  comm := some (CStr.ascii "?")
  data := CStr.ascii "RWX mapping [0x" ++ CStr.hex vi.start.toNat ++ CStr.ascii "-0x" ++
    CStr.hex vi.stop.toNat ++ CStr.ascii "] " ++
    if vi.path.isEmpty then CStr.ascii "(anonymous)" else vi.path

/-- The event for an executable area without a file. -/
def anonExecEvent (pid : Int) (vi : AcVmaInfo) : EmitCall where
  type := .anonExec
  pid := pid
  comm := some (CStr.ascii "?")
  data := CStr.ascii "anonymous executable mapping [0x" ++ CStr.hex vi.start.toNat ++
    CStr.ascii "-0x" ++ CStr.hex vi.stop.toNat ++ CStr.ascii "]"

/-- The events for one area. -/
def areaEvents (pid : Int) (emitEvents : Bool) (a : VmArea) (vi : AcVmaInfo) :
    List EmitCall :=
  (if a.isRwx && emitEvents then [rwxEvent pid vi] else []) ++
    if a.isAnonExec && emitEvents then [anonExecEvent pid vi] else []

/-- The body of the loop: record one area in cell `n`. -/
def recordArea (buf : Bool) (n : Nat) (a : VmArea) (st : AcFdState) : AcFdState :=
  { st with
    vmas := st.vmas.map fun t => t.set n (some (vmaInfo buf a))
    rwxCount := st.rwxCount + if a.isRwx then 1 else 0
    anonExecCount := st.anonExecCount + if a.isAnonExec then 1 else 0
    execCount := st.execCount + if a.isExec then 1 else 0 }

/-- The loop over the areas, where `n` of them have been recorded; `bufs` says
which allocations of a path buffer succeed. -/
def vmaLoop (pid : Int) (emitEvents : Bool) (bufs : Nat → Bool) :
    List VmArea → Nat → AcFdState → Nat × AcFdState × List EmitCall
  | [], n, st => (n, st, [])
  | a :: rest, n, st =>
      if n ≥ acMaxVmas then
        (n, { st with truncated := true }, [])
      else
        let (m, st, later) := vmaLoop pid emitEvents bufs rest (n + 1)
          (recordArea (bufs n) n a st)
        (m, st, areaEvents pid emitEvents a (vmaInfo (bufs n) a) ++ later)

/-- What a scan meets: the process that the pid names with its memory areas, if
it has any, and the outcomes of the allocations. -/
structure ScanEnv where
  task : Bool
  mm : Option (List VmArea)
  alloc : Bool
  bufs : Nat → Bool

/-- `ac_build_vma_snapshot` -/
def acBuildVmaSnapshot (env : ScanEnv) (pid : Int) (emitEvents : Bool) (st : AcFdState) :
    Except Errno Unit × AcFdState × List EmitCall :=
  let st : AcFdState := { st with
    vmas := none, nVmas := 0, rwxCount := 0, execCount := 0, anonExecCount := 0,
    truncated := false }
  if !env.task then
    (.error .ESRCH, st, [])
  else
    match env.mm with
    | none => (.error .ESRCH, st, [])
    | some areas =>
        if !env.alloc then
          (.error .ENOMEM, st, [])
        else
          let st : AcFdState := { st with vmas := some (SlotTable.replicate acMaxVmas none) }
          let (n, st, emitted) := vmaLoop pid emitEvents env.bufs areas 0 st
          (.ok (), { st with nVmas := n }, emitted)

/-! ## Listing the modules -/

/-- The fields of `struct module` that the module reads. -/
structure KModule where
  name : CStr
  state : UInt32
  textBase : UInt64
  textSize : UInt64
  coreSizes : List UInt64
deriving DecidableEq

/-- `MODULE_STATE_LIVE` -/
def moduleStateLive : UInt32 := 0

/-- `ac_module_size` -/
def acModuleSize (m : KModule) : UInt64 :=
  m.coreSizes.foldl (fun size s => size + s) 0

/-- `ac_module_sane` -/
def acModuleSane (m : KModule) : Bool :=
  if m.state != moduleStateLive then false
  else if m.textBase == 0 || m.textSize == 0 then false
  else if m.textSize > 0x40000000 then false
  else true

/-- The record of one module. -/
def modInfo (m : KModule) : AcModInfo where
  name := CStr.bounded acModNameLen m.name
  size := acModuleSize m
  state := m.state

/-- The walk over the module list, where `n` modules have been recorded. -/
def modLoop : List KModule → Nat → SlotTable (Option AcModInfo) acMaxMods →
    Nat × SlotTable (Option AcModInfo) acMaxMods
  | [], n, t => (n, t)
  | m :: rest, n, t =>
      if !acModuleSane m then modLoop rest n t
      else if n ≥ acMaxMods then (n, t)
      else modLoop rest (n + 1) (t.set n (some (modInfo m)))

/-- `ac_build_mod_snapshot`, where `walk` is what the walk over the module list
reads. -/
def acBuildModSnapshot (alloc : Bool) (walk : List KModule) (st : AcFdState) :
    Except Errno Unit × AcFdState :=
  let st : AcFdState := { st with mods := none, nMods := 0 }
  if !alloc then
    (.error .ENOMEM, st)
  else
    let (n, t) := modLoop walk 0 (SlotTable.replicate acMaxMods none)
    (.ok (), { st with mods := some t, nMods := n })

/-! ## What a scan records -/

/-- The records that a scan makes from its `n`-th area on. -/
def recordsFrom (bufs : Nat → Bool) (n : Nat) (areas : List VmArea) : List AcVmaInfo :=
  (areas.take (acMaxVmas - n)).mapIdx fun i a => vmaInfo (bufs (n + i)) a

theorem recordsFrom_cons {bufs : Nat → Bool} {n : Nat} (hn : n < acMaxVmas) (a : VmArea)
    (rest : List VmArea) :
    recordsFrom bufs n (a :: rest) =
      vmaInfo (bufs n) a :: recordsFrom bufs (n + 1) rest := by
  have hroom : acMaxVmas - n = (acMaxVmas - (n + 1)) + 1 := by omega
  simp only [recordsFrom, hroom, List.take_succ_cons, List.mapIdx_cons, Nat.add_zero]
  congr 2
  ext1 i
  rw [show n + (i + 1) = n + 1 + i by omega]

/-- The loop records the areas up to the capacity and counts them; it reports
whether some were left. -/
theorem vmaLoop_spec (pid : Int) (emitEvents : Bool) (bufs : Nat → Bool)
    (areas : List VmArea) (st : AcFdState) {l : List AcVmaInfo}
    {t : SlotTable (Option AcVmaInfo) acMaxVmas} (hst : st.vmas = some t) (ht : t.Holds l)
    (hl : l.length ≤ acMaxVmas) :
    ∃ t' emitted, vmaLoop pid emitEvents bufs areas l.length st =
        (l.length + (recordsFrom bufs l.length areas).length,
          { st with
            vmas := some t'
            rwxCount := st.rwxCount + (areas.take (acMaxVmas - l.length)).countP VmArea.isRwx
            execCount := st.execCount + (areas.take (acMaxVmas - l.length)).countP VmArea.isExec
            anonExecCount := st.anonExecCount +
              (areas.take (acMaxVmas - l.length)).countP VmArea.isAnonExec
            truncated := st.truncated || decide (acMaxVmas - l.length < areas.length) },
          emitted) ∧
      t'.Holds (l ++ recordsFrom bufs l.length areas) := by
  induction areas generalizing l t st with
  | nil =>
      refine ⟨t, [], ?_, by simpa [recordsFrom] using ht⟩
      simp [vmaLoop, recordsFrom, ← hst]
  | cons a rest ih =>
      by_cases hn : l.length < acMaxVmas
      · have hst' : (recordArea (bufs l.length) l.length a st).vmas =
            some (t.set l.length (some (vmaInfo (bufs l.length) a))) := by
          simp [recordArea, hst]
        have hpush := ht.push hn (vmaInfo (bufs l.length) a)
        have hlen : (l ++ [vmaInfo (bufs l.length) a]).length = l.length + 1 := by simp
        rcases ih _ hst' hpush (by rw [hlen]; omega) with ⟨t', emitted, hrun, hholds⟩
        rw [hlen] at hrun hholds
        have hroom : acMaxVmas - l.length = (acMaxVmas - (l.length + 1)) + 1 := by omega
        refine ⟨t', areaEvents pid emitEvents a (vmaInfo (bufs l.length) a) ++ emitted, ?_, ?_⟩
        · rw [vmaLoop, if_neg (by omega), hrun, recordsFrom_cons hn]
          simp only [hroom, List.take_succ_cons, List.countP_cons, recordArea, List.length_cons,
            Prod.mk.injEq, AcFdState.mk.injEq, and_true, true_and, Nat.add_lt_add_iff_right]
          refine ⟨by omega, by omega, by omega, by omega⟩
        · rw [recordsFrom_cons hn]
          simpa using hholds
      · have hfull : acMaxVmas - l.length = 0 := by omega
        refine ⟨t, [], ?_, by simpa [recordsFrom, hfull] using ht⟩
        rw [vmaLoop, if_pos (by omega)]
        simp [recordsFrom, hfull, ← hst]

/-- The snapshot that a scan produces, if it succeeds. -/
def ScanEnv.snapshot (env : ScanEnv) : Option (List AcVmaInfo) :=
  match env.task, env.mm, env.alloc with
  | true, some areas, true => some (recordsFrom env.bufs 0 areas)
  | _, _, _ => none

theorem ScanEnv.snapshot_some (env : ScanEnv) {l : List AcVmaInfo} (h : env.snapshot = some l) :
    ∃ areas, env.task = true ∧ env.mm = some areas ∧ env.alloc = true ∧
      l = recordsFrom env.bufs 0 areas := by
  unfold ScanEnv.snapshot at h
  split at h
  · rename_i areas htask hmm halloc
    cases h
    exact ⟨areas, htask, hmm, halloc, rfl⟩
  · contradiction

/-- A scan that fails leaves an empty snapshot. -/
theorem acBuildVmaSnapshot_fails {env : ScanEnv} (henv : env.snapshot = none) (pid : Int)
    (emitEvents : Bool) (st : AcFdState) :
    ∃ e, acBuildVmaSnapshot env pid emitEvents st =
      (.error e, { st with
        vmas := none, nVmas := 0, rwxCount := 0, execCount := 0, anonExecCount := 0,
        truncated := false }, []) := by
  unfold acBuildVmaSnapshot
  unfold ScanEnv.snapshot at henv
  cases htask : env.task with
  | false => exact ⟨.ESRCH, by simp⟩
  | true =>
      cases hmm : env.mm with
      | none => exact ⟨.ESRCH, by simp⟩
      | some areas =>
          cases halloc : env.alloc with
          | false => exact ⟨.ENOMEM, by simp⟩
          | true => simp [htask, hmm, halloc] at henv

/-- A scan that succeeds records the first areas of the process, counts the
executable ones among them and says whether there are more. -/
theorem acBuildVmaSnapshot_ok {env : ScanEnv} {areas : List VmArea} (htask : env.task = true)
    (hmm : env.mm = some areas) (halloc : env.alloc = true) (pid : Int) (emitEvents : Bool)
    (st : AcFdState) :
    ∃ t emitted, acBuildVmaSnapshot env pid emitEvents st =
        (.ok (), { st with
          vmas := some t
          nVmas := (recordsFrom env.bufs 0 areas).length
          rwxCount := (areas.take acMaxVmas).countP VmArea.isRwx
          execCount := (areas.take acMaxVmas).countP VmArea.isExec
          anonExecCount := (areas.take acMaxVmas).countP VmArea.isAnonExec
          truncated := decide (acMaxVmas < areas.length) }, emitted) ∧
      t.Holds (recordsFrom env.bufs 0 areas) := by
  have hspec := vmaLoop_spec pid emitEvents env.bufs areas
    { st with
      vmas := some (SlotTable.replicate acMaxVmas none), nVmas := 0, rwxCount := 0,
      execCount := 0, anonExecCount := 0, truncated := false }
    rfl (SlotTable.Holds.nil _) (Nat.zero_le _)
  rcases hspec with ⟨t, emitted, hrun, hholds⟩
  refine ⟨t, emitted, ?_, by simpa using hholds⟩
  unfold acBuildVmaSnapshot
  simp only [List.length_nil] at hrun
  simp [htask, hmm, halloc, hrun]

/-! ## What a module listing records -/

/-- The records of a module listing. -/
def modRecords (walk : List KModule) : List AcModInfo :=
  ((walk.filter acModuleSane).take acMaxMods).map modInfo

theorem modLoop_spec (walk : List KModule) {l : List AcModInfo}
    {t : SlotTable (Option AcModInfo) acMaxMods} (ht : t.Holds l) (hl : l.length ≤ acMaxMods) :
    ∃ t', modLoop walk l.length t =
        (l.length + (((walk.filter acModuleSane).take (acMaxMods - l.length)).map modInfo).length,
          t') ∧
      t'.Holds (l ++ ((walk.filter acModuleSane).take (acMaxMods - l.length)).map modInfo) := by
  induction walk generalizing l t with
  | nil => exact ⟨t, by simp [modLoop], by simpa using ht⟩
  | cons m rest ih =>
      by_cases hsane : acModuleSane m = true
      · by_cases hn : l.length < acMaxMods
        · have hlen : (l ++ [modInfo m]).length = l.length + 1 := by simp
          have hroom : acMaxMods - l.length = (acMaxMods - (l.length + 1)) + 1 := by omega
          rcases ih (ht.push hn (modInfo m)) (by rw [hlen]; omega) with ⟨t', hrun, hholds⟩
          rw [hlen] at hrun hholds
          refine ⟨t', ?_, ?_⟩
          · simp only [modLoop, hsane, Bool.not_true, Bool.false_eq_true, if_false,
              if_neg (not_le.2 hn), hrun, List.filter_cons_of_pos hsane, hroom,
              List.take_succ_cons, List.map_cons, List.length_cons, Prod.mk.injEq, and_true]
            omega
          · rw [List.filter_cons_of_pos hsane, hroom, List.take_succ_cons, List.map_cons]
            simpa using hholds
        · have hfull : acMaxMods - l.length = 0 := by omega
          refine ⟨t, ?_, by simpa [hfull] using ht⟩
          simp [modLoop, hsane, not_lt.1 hn, hfull]
      · rcases ih ht hl with ⟨t', hrun, hholds⟩
        refine ⟨t', ?_, ?_⟩
        · simpa [modLoop, hsane] using hrun
        · simpa [hsane] using hholds

/-- A module listing records the plausible modules it met, or is empty. -/
theorem acBuildModSnapshot_spec (alloc : Bool) (walk : List KModule) (st : AcFdState) :
    if alloc then
      ∃ t, acBuildModSnapshot alloc walk st =
          (.ok (), { st with mods := some t, nMods := (modRecords walk).length }) ∧
        t.Holds (modRecords walk)
    else
      acBuildModSnapshot alloc walk st = (.error .ENOMEM, { st with mods := none, nMods := 0 }) := by
  cases alloc with
  | false => rfl
  | true =>
      have hspec := modLoop_spec walk
        (SlotTable.Holds.nil (SlotTable.replicate acMaxMods (none : Option AcModInfo)))
        (Nat.zero_le _)
      rcases hspec with ⟨t, hrun, hholds⟩
      refine ⟨t, ?_, by simpa [modRecords] using hholds⟩
      unfold acBuildModSnapshot
      simp only [List.length_nil, Nat.zero_add, Nat.sub_zero] at hrun
      simp [hrun, modRecords]

end Anticheat
