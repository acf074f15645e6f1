import Anticheat.Foundation.LockedObjects
import Anticheat.Kernel.SnapshotIoctl

/-!
# The snapshot ioctls under the lock of the file's state

`SCAN_BEGIN`, `SCAN_GET`, `SCAN_END` and their counterparts for modules work on the state of
an open file while they hold its lock.  Here their code is taken one statement at a time, and
the two arrays are blocks of memory that are allocated and freed: `kvfree` of a block that is
not allocated, an access through a pointer to one, and any access to a state that has itself
been freed are faults.

Main results:

- Definition {lit}`snapRefinement`: the code of each ioctl makes of the state what
  `acIoctlSnap` makes of it at once.
- Theorem {lit}`FdMemory.Good.dispose`: `ac_free_fd_state` frees what is allocated, once.
-/

namespace Anticheat

open Foundation
open Foundation.LockedObjects (Code Refinement)

/-! ## The memory of one state -/

/-- A block that `kvmalloc_array` returned. -/
inductive SnapBlock where
  | vmas (cells : SlotTable (Option AcVmaInfo) acMaxVmas)
  | mods (cells : SlotTable (Option AcModInfo) acMaxMods)
  | freed

def SnapBlock.vmaCells : SnapBlock → Option (SlotTable (Option AcVmaInfo) acMaxVmas)
  | .vmas cells => some cells
  | .mods _ | .freed => none

def SnapBlock.modCells : SnapBlock → Option (SlotTable (Option AcModInfo) acMaxMods)
  | .mods cells => some cells
  | .vmas _ | .freed => none

def SnapBlock.isLive : SnapBlock → Bool
  | .vmas _ | .mods _ => true
  | .freed => false

/-- `struct ac_fd_state` in memory, with the blocks that were allocated for it.  A pointer to
a block is the number of the allocation. -/
structure FdMemory where
  blocks : List SnapBlock := []
  vmas : Option Nat := none
  nVmas : Nat := 0
  rwxCount : Nat := 0
  execCount : Nat := 0
  anonExecCount : Nat := 0
  truncated : Bool := false
  mods : Option Nat := none
  nMods : Nat := 0
  /-- the state itself has been freed -/
  freed : Bool := false
  /-- memory has been used that was not allocated -/
  faulted : Bool := false

namespace FdMemory

def vmaCells (d : FdMemory) (b : Nat) : Option (SlotTable (Option AcVmaInfo) acMaxVmas) :=
  d.blocks[b]?.bind SnapBlock.vmaCells

def modCells (d : FdMemory) (b : Nat) : Option (SlotTable (Option AcModInfo) acMaxMods) :=
  d.blocks[b]?.bind SnapBlock.modCells

def isLive (d : FdMemory) (b : Nat) : Bool :=
  d.blocks[b]?.any SnapBlock.isLive

def fault (d : FdMemory) : FdMemory :=
  { d with faulted := true }

/-- `kvfree`, which does nothing for NULL. -/
def kvfree (d : FdMemory) : Option Nat → FdMemory
  | none => d
  | some b =>
      if d.isLive b then { d with blocks := d.blocks.set b .freed } else d.fault

/-- `st->vmas = kvmalloc_array(AC_MAX_VMAS, ...)`, where the allocation succeeds. -/
def kvmallocVmas (d : FdMemory) : FdMemory :=
  { d with
    blocks := d.blocks ++ [.vmas (SlotTable.replicate acMaxVmas none)]
    vmas := some d.blocks.length }

/-- `st->mods = kvmalloc_array(AC_MAX_MODS, ...)`, where the allocation succeeds. -/
def kvmallocMods (d : FdMemory) : FdMemory :=
  { d with
    blocks := d.blocks ++ [.mods (SlotTable.replicate acMaxMods none)]
    mods := some d.blocks.length }

/-- A write to `st->vmas[n]`. -/
def writeVma (d : FdMemory) (n : Nat) (vi : AcVmaInfo) : FdMemory :=
  match d.vmas with
  | none => d.fault
  | some b =>
      match d.vmaCells b with
      | none => d.fault
      | some t =>
          if n < acMaxVmas then { d with blocks := d.blocks.set b (.vmas (t.set n (some vi))) }
          else d.fault

/-- A write to `st->mods[n]`. -/
def writeMod (d : FdMemory) (n : Nat) (mi : AcModInfo) : FdMemory :=
  match d.mods with
  | none => d.fault
  | some b =>
      match d.modCells b with
      | none => d.fault
      | some t =>
          if n < acMaxMods then { d with blocks := d.blocks.set b (.mods (t.set n (some mi))) }
          else d.fault

/-- A read of entry `i` through a pointer: a fault if there is no such entry. -/
def readThrough {α : Type} {n : Nat} (d : FdMemory)
    (cells : Option (SlotTable (Option α) n)) (i : Nat) : FdMemory :=
  match cells with
  | none => d.fault
  | some _ => if i < n then d else d.fault

/-- What the pointers of the state lead to. -/
def view (d : FdMemory) : AcFdState where
  vmas := d.vmas.bind d.vmaCells
  nVmas := d.nVmas
  rwxCount := d.rwxCount
  execCount := d.execCount
  anonExecCount := d.anonExecCount
  truncated := d.truncated
  mods := d.mods.bind d.modCells
  nMods := d.nMods

end FdMemory

/-! ## The code -/

/-- What `SCAN_BEGIN` was called with, and what it meets. -/
structure ScanArgs where
  env : ScanEnv
  pid : Int
  emitEvents : Bool

/-- What `MODS_BEGIN` meets. -/
structure ModsArgs where
  alloc : Bool
  walk : List KModule

/-- The statement that comes next.  A BEGIN and an END start alike: the arguments are absent
for an END. -/
inductive SnapPlace where
  | scanFree (args : Option ScanArgs)
  | scanNull (args : Option ScanArgs)
  | scanZero (args : Option ScanArgs)
  | scanFind (args : ScanArgs)
  | scanAlloc (args : ScanArgs) (areas : List VmArea)
  | scanLoop (args : ScanArgs) (areas : List VmArea) (n : Nat)
  | scanCount (args : ScanArgs) (n : Nat)
  | scanReport (args : ScanArgs)
  | scanCheck (index : Nat)
  | scanRead (index : Nat)
  | modsFree (args : Option ModsArgs)
  | modsNull (args : Option ModsArgs)
  | modsZero (args : Option ModsArgs)
  | modsAlloc (args : ModsArgs)
  | modsLoop (walk : List KModule) (n : Nat)
  | modsCount (n : Nat)
  | modsReport
  | modsCheck (index : Nat)
  | modsRead (index : Nat)
  | mutexUnlock (reply : Except Errno SnapReply)

/-- The first statement after `mutex_lock(&st->lock)`. -/
def SnapPlace.start : SnapCall → SnapPlace
  | .scanBegin _ env pid emitEvents => .scanFree (some ⟨env, pid, emitEvents⟩)
  | .scanGet index => .scanCheck index
  | .scanEnd => .scanFree none
  | .modsBegin _ alloc walk => .modsFree (some ⟨alloc, walk⟩)
  | .modsGet index => .modsCheck index
  | .modsEnd => .modsFree none

def SnapPlace.result : SnapPlace → Option (Except Errno SnapReply)
  | .mutexUnlock reply => some reply
  | _ => none

/-- What SCAN_BEGIN copies from the state into its answer. -/
def scanBegun (args : ScanArgs) (st : AcFdState) : SnapReply :=
  .scanBegun {
    pid := args.pid
    emitEvents := args.emitEvents
    nVmas := st.nVmas
    rwxCount := st.rwxCount
    execCount := st.execCount
    anonExecCount := st.anonExecCount
    truncated := st.truncated }

/-- The body of the loop of `ac_build_vma_snapshot`. -/
def FdMemory.recordArea (d : FdMemory) (buf : Bool) (n : Nat) (a : VmArea) : FdMemory :=
  let d := d.writeVma n (vmaInfo buf a)
  { d with
    rwxCount := d.rwxCount + if a.isRwx then 1 else 0
    anonExecCount := d.anonExecCount + if a.isAnonExec then 1 else 0
    execCount := d.execCount + if a.isExec then 1 else 0 }

/-- One statement, on a state that has not been freed. -/
def FdMemory.exec (d : FdMemory) : SnapPlace → FdMemory × SnapPlace
  | .scanFree args => (d.kvfree d.vmas, .scanNull args)
  | .scanNull args => ({ d with vmas := none }, .scanZero args)
  | .scanZero none => ({ d with nVmas := 0 }, .mutexUnlock (.ok .done))
  | .scanZero (some args) =>
      ({ d with
        nVmas := 0, rwxCount := 0, execCount := 0, anonExecCount := 0, truncated := false },
        .scanFind args)
  | .scanFind args =>
      if !args.env.task then (d, .mutexUnlock (.error .ESRCH))
      else
        match args.env.mm with
        | none => (d, .mutexUnlock (.error .ESRCH))
        | some areas => (d, .scanAlloc args areas)
  | .scanAlloc args areas =>
      if !args.env.alloc then (d, .mutexUnlock (.error .ENOMEM))
      else (d.kvmallocVmas, .scanLoop args areas 0)
  | .scanLoop args [] n => (d, .scanCount args n)
  | .scanLoop args (a :: rest) n =>
      if n ≥ acMaxVmas then ({ d with truncated := true }, .scanCount args n)
      else (d.recordArea (args.env.bufs n) n a, .scanLoop args rest (n + 1))
  | .scanCount args n => ({ d with nVmas := n }, .scanReport args)
  | .scanReport args => (d, .mutexUnlock (.ok (scanBegun args d.view)))
  | .scanCheck index =>
      if index ≥ d.nVmas then (d, .mutexUnlock (.error .EINVAL)) else (d, .scanRead index)
  | .scanRead index =>
      (d.readThrough (d.vmas.bind d.vmaCells) index,
        .mutexUnlock (.ok (.vma (readCell (d.vmas.bind d.vmaCells) index))))
  | .modsFree args => (d.kvfree d.mods, .modsNull args)
  | .modsNull args => ({ d with mods := none }, .modsZero args)
  | .modsZero none => ({ d with nMods := 0 }, .mutexUnlock (.ok .done))
  | .modsZero (some args) => ({ d with nMods := 0 }, .modsAlloc args)
  | .modsAlloc args =>
      if !args.alloc then (d, .mutexUnlock (.error .ENOMEM))
      else (d.kvmallocMods, .modsLoop args.walk 0)
  | .modsLoop [] n => (d, .modsCount n)
  | .modsLoop (m :: rest) n =>
      if !acModuleSane m then (d, .modsLoop rest n)
      else if n ≥ acMaxMods then (d, .modsCount n)
      else (d.writeMod n (modInfo m), .modsLoop rest (n + 1))
  | .modsCount n => ({ d with nMods := n }, .modsReport)
  | .modsReport => (d, .mutexUnlock (.ok (.modsBegun d.nMods)))
  | .modsCheck index =>
      if index ≥ d.nMods then (d, .mutexUnlock (.error .EINVAL)) else (d, .modsRead index)
  | .modsRead index =>
      (d.readThrough (d.mods.bind d.modCells) index,
        .mutexUnlock (.ok (.mod (readCell (d.mods.bind d.modCells) index))))
  | .mutexUnlock reply => (d, .mutexUnlock reply)

/-- `ac_free_fd_state` -/
def acFreeFdState (d : FdMemory) : FdMemory :=
  let d := if d.freed then d.fault else d
  { (d.kvfree d.vmas).kvfree d.mods with freed := true }

/-- What runs under `st->lock`. -/
def snapCode : Code FdMemory SnapCall SnapPlace (Except Errno SnapReply) where
  start := SnapPlace.start
  next d place := if d.freed then (d.fault, place) else d.exec place
  result := SnapPlace.result
  dispose := acFreeFdState

/-! ## Sound memory -/

/-- An array with its length: there is none, or it is allocated and its entries are written. -/
def ArrayOk {α : Type} {n : Nat} (cells : Nat → Option (SlotTable (Option α) n))
    (ptr : Option Nat) (count : Nat) : Prop :=
  (ptr = none ∧ count = 0) ∨
    ∃ b t, ptr = some b ∧ cells b = some t ∧ ∀ i < count, ∃ v, t.slots[i]? = some (some v)

namespace FdMemory

/-- No access has been at fault, and nothing is allocated that the state does not point to. -/
structure Sound (d : FdMemory) : Prop where
  alive : d.freed = false
  unfaulted : d.faulted = false
  owned : ∀ b, d.isLive b = true → d.vmas = some b ∨ d.mods = some b

/-- The state while nobody holds its lock. -/
structure Good (d : FdMemory) : Prop extends d.Sound where
  vmasOk : ArrayOk d.vmaCells d.vmas d.nVmas
  modsOk : ArrayOk d.modCells d.mods d.nMods

/-- The last field is that of a pointer to a block that has just been freed. -/
structure Dangling (d : FdMemory) (ptr : Option Nat) : Prop extends d.Sound where
  dangles : ∀ b, ptr = some b → d.isLive b = false

end FdMemory

/-- What is known of the memory at a place of the code. -/
def SnapPlace.At : SnapPlace → FdMemory → Prop
  | .scanNull _, d => d.Dangling d.vmas ∧ ArrayOk d.modCells d.mods d.nMods
  | .scanZero _, d => d.Sound ∧ d.vmas = none ∧ ArrayOk d.modCells d.mods d.nMods
  | .scanFind _, d | .scanAlloc _ _, d =>
      d.Good ∧ d.vmas = none ∧ d.rwxCount = 0 ∧ d.execCount = 0 ∧ d.anonExecCount = 0 ∧
        d.truncated = false
  | .scanLoop _ _ n, d | .scanCount _ n, d =>
      d.Sound ∧ d.vmas.isSome = true ∧ ArrayOk d.vmaCells d.vmas n ∧
        ArrayOk d.modCells d.mods d.nMods
  | .scanRead index, d => d.Good ∧ index < d.nVmas
  | .modsNull _, d => d.Dangling d.mods ∧ ArrayOk d.vmaCells d.vmas d.nVmas
  | .modsZero _, d => d.Sound ∧ d.mods = none ∧ ArrayOk d.vmaCells d.vmas d.nVmas
  | .modsAlloc _, d => d.Good ∧ d.mods = none
  | .modsLoop _ n, d | .modsCount n, d =>
      d.Sound ∧ d.mods.isSome = true ∧ ArrayOk d.modCells d.mods n ∧
        ArrayOk d.vmaCells d.vmas d.nVmas
  | .modsRead index, d => d.Good ∧ index < d.nMods
  | .scanFree _, d | .scanReport _, d | .scanCheck _, d | .modsFree _, d | .modsReport, d
  | .modsCheck _, d | .mutexUnlock _, d => d.Good

/-! ## What is left to do -/

/-- The outcome of SCAN_BEGIN on a state. -/
def scanOutcome (args : ScanArgs) (st : AcFdState) : Except Errno SnapReply × AcFdState :=
  match acBuildVmaSnapshot args.env args.pid args.emitEvents st with
  | (.error e, st, _) => (.error e, st)
  | (.ok (), st, _) => (.ok (scanBegun args st), st)

/-- The outcome of SCAN_BEGIN after its loop. -/
def scanFinish (args : ScanArgs) (loop : Nat × AcFdState × List EmitCall) :
    Except Errno SnapReply × AcFdState :=
  (.ok (scanBegun args { loop.2.1 with nVmas := loop.1 }), { loop.2.1 with nVmas := loop.1 })

/-- The outcome of MODS_BEGIN on a state. -/
def modsOutcome (args : ModsArgs) (st : AcFdState) : Except Errno SnapReply × AcFdState :=
  match acBuildModSnapshot args.alloc args.walk st with
  | (.error e, st) => (.error e, st)
  | (.ok (), st) => (.ok (.modsBegun st.nMods), st)

/-- The outcome of MODS_BEGIN after its loop. -/
def modsFinish (st : AcFdState) (loop : Nat × SlotTable (Option AcModInfo) acMaxMods) :
    Except Errno SnapReply × AcFdState :=
  (.ok (.modsBegun loop.1), { st with mods := some loop.2, nMods := loop.1 })

/-- The outcome of the rest of the code, run at once. -/
def SnapPlace.todo : SnapPlace → AcFdState → Except Errno SnapReply × AcFdState
  | .scanFree none, st | .scanNull none, st | .scanZero none, st =>
      (.ok .done, { st with vmas := none, nVmas := 0 })
  | .scanFree (some args), st | .scanNull (some args), st | .scanZero (some args), st
  | .scanFind args, st => scanOutcome args st
  | .scanAlloc args areas, st =>
      if !args.env.alloc then (.error .ENOMEM, st)
      else
        scanFinish args (vmaLoop args.pid args.emitEvents args.env.bufs areas 0
          { st with vmas := some (SlotTable.replicate acMaxVmas none) })
  | .scanLoop args areas n, st =>
      scanFinish args (vmaLoop args.pid args.emitEvents args.env.bufs areas n st)
  | .scanCount args n, st => scanFinish args (n, st, [])
  | .scanReport args, st => (.ok (scanBegun args st), st)
  | .scanCheck index, st => (acIoctlScanGet index (some st), st)
  | .scanRead index, st => (.ok (.vma (readCell st.vmas index)), st)
  | .modsFree none, st | .modsNull none, st | .modsZero none, st =>
      (.ok .done, { st with mods := none, nMods := 0 })
  | .modsFree (some args), st | .modsNull (some args), st | .modsZero (some args), st
  | .modsAlloc args, st => modsOutcome args st
  | .modsLoop walk n, st =>
      modsFinish st (modLoop walk n (st.mods.getD (SlotTable.replicate acMaxMods none)))
  | .modsCount n, st =>
      modsFinish st (n, st.mods.getD (SlotTable.replicate acMaxMods none))
  | .modsReport, st => (.ok (.modsBegun st.nMods), st)
  | .modsCheck index, st => (acIoctlModsGet index (some st), st)
  | .modsRead index, st => (.ok (.mod (readCell st.mods index)), st)
  | .mutexUnlock reply, st => (reply, st)

/-- A call on a file that has a state. -/
def applySnap (call : SnapCall) (st : AcFdState) : Except Errno SnapReply × AcFdState :=
  ((acIoctlSnap true call (some st)).1, (acIoctlSnap true call (some st)).2.getD st)

theorem SnapPlace.todo_start (call : SnapCall) (st : AcFdState) :
    (SnapPlace.start call).todo st = applySnap call st := by
  cases call with
  | scanBegin fdAlloc env pid emitEvents =>
      simp only [SnapPlace.start, SnapPlace.todo, scanOutcome, applySnap, acIoctlSnap,
        acIoctlScanBegin, acGetFdState, Bool.not_true, Bool.false_eq_true, if_false]
      rcases acBuildVmaSnapshot env pid emitEvents st with ⟨_ | _, st', _⟩
      · rfl
      · rfl
  | modsBegin fdAlloc alloc walk =>
      simp only [SnapPlace.start, SnapPlace.todo, modsOutcome, applySnap, acIoctlSnap,
        acIoctlModsBegin, acGetFdState, Bool.not_true, Bool.false_eq_true, if_false]
      rcases acBuildModSnapshot alloc walk st with ⟨_ | _, st'⟩
      · rfl
      · rfl
  | scanGet index => rfl
  | scanEnd => rfl
  | modsGet index => rfl
  | modsEnd => rfl

/-! ## Blocks -/

/-- Changing a block that is not of the kind leaves the blocks of the kind. -/
theorem bind_getElem?_set {β : Type} {f : SnapBlock → Option β} {l : List SnapBlock} {b : Nat}
    {x : SnapBlock} (hb : l[b]?.bind f = none) (hx : f x = none) (b' : Nat) :
    (l.set b x)[b']?.bind f = l[b']?.bind f := by
  by_cases hbb : b = b'
  · subst hbb
    rw [hb, List.getElem?_set, if_pos rfl]
    split_ifs
    · exact hx
    · rfl
  · rw [List.getElem?_set_ne hbb]

theorem bind_getElem?_concat {β : Type} {f : SnapBlock → Option β} {l : List SnapBlock}
    {x : SnapBlock} (hx : f x = none) (b' : Nat) :
    (l ++ [x])[b']?.bind f = l[b']?.bind f := by
  rcases Nat.lt_trichotomy b' l.length with hlt | rfl | hgt
  · rw [List.getElem?_append_left hlt]
  · rw [List.getElem?_concat_length, List.getElem?_eq_none (Nat.le_refl _)]
    exact hx
  · rw [List.getElem?_eq_none (by simpa using hgt), List.getElem?_eq_none hgt.le]

/-- A block is of one kind. -/
theorem modCells_of_vmaCells {d : FdMemory} {b : Nat}
    {t : SlotTable (Option AcVmaInfo) acMaxVmas} (h : d.vmaCells b = some t) :
    d.blocks[b]? = some (.vmas t) ∧ d.modCells b = none := by
  unfold FdMemory.vmaCells at h
  unfold FdMemory.modCells
  rcases hblock : d.blocks[b]? with _ | x
  · simp [hblock] at h
  · cases x with
    | vmas cells =>
        rw [hblock] at h
        cases h
        exact ⟨rfl, rfl⟩
    | mods cells => simp [hblock, SnapBlock.vmaCells] at h
    | freed => simp [hblock, SnapBlock.vmaCells] at h

theorem vmaCells_of_modCells {d : FdMemory} {b : Nat}
    {t : SlotTable (Option AcModInfo) acMaxMods} (h : d.modCells b = some t) :
    d.blocks[b]? = some (.mods t) ∧ d.vmaCells b = none := by
  unfold FdMemory.modCells at h
  unfold FdMemory.vmaCells
  rcases hblock : d.blocks[b]? with _ | x
  · simp [hblock] at h
  · cases x with
    | mods cells =>
        rw [hblock] at h
        cases h
        exact ⟨rfl, rfl⟩
    | vmas cells => simp [hblock, SnapBlock.modCells] at h
    | freed => simp [hblock, SnapBlock.modCells] at h

namespace FdMemory

variable {d : FdMemory}

@[simp]
theorem kvfree_ptr (ptr : Option Nat) :
    (d.kvfree ptr).vmas = d.vmas ∧ (d.kvfree ptr).nVmas = d.nVmas ∧
      (d.kvfree ptr).mods = d.mods ∧ (d.kvfree ptr).nMods = d.nMods := by
  unfold FdMemory.kvfree fault
  split
  · simp
  · split_ifs <;> simp

theorem isLive_of_block {b : Nat} {x : SnapBlock} (hblock : d.blocks[b]? = some x)
    (hx : x.isLive = true) : d.isLive b = true := by
  simp [isLive, hblock, hx]

/-- Freeing an allocated block leaves a pointer to nothing. -/
theorem Sound.kvfree (h : d.Sound) {b : Nat} (hlive : d.isLive b = true) :
    d.kvfree (some b) = { d with blocks := d.blocks.set b .freed } ∧
      (d.kvfree (some b)).Dangling (some b) := by
  have hb : b < d.blocks.length := by
    by_contra hge
    simp [isLive, List.getElem?_eq_none (Nat.le_of_not_lt hge)] at hlive
  have hfreed : isLive { d with blocks := d.blocks.set b .freed } b = false := by
    simp [isLive, List.getElem?_set_self hb, SnapBlock.isLive]
  rw [FdMemory.kvfree, if_pos hlive]
  refine ⟨rfl, ⟨h.alive, h.unfaulted, ?_⟩, ?_⟩
  · intro b' hb'
    by_cases hbb : b = b'
    · rw [← hbb, hfreed] at hb'
      cases hb'
    · refine h.owned b' ?_
      unfold isLive at hb' ⊢
      rwa [List.getElem?_set_ne hbb] at hb'
  · intro b' hb'
    cases hb'
    exact hfreed

/-- The block behind the pointer to the areas is freed, and nothing else. -/
theorem kvfree_vmas (h : d.Sound) (hok : ArrayOk d.vmaCells d.vmas d.nVmas) :
    (d.kvfree d.vmas).Dangling d.vmas ∧ (d.kvfree d.vmas).modCells = d.modCells ∧
      (d.kvfree d.vmas).view = { d.view with vmas := none } := by
  rcases hok with ⟨hptr, -⟩ | ⟨b, t, hptr, hcells, -⟩
  · rw [hptr]
    refine ⟨⟨h, ?_⟩, rfl, ?_⟩
    · intro b hb
      cases hb
    · simp [FdMemory.kvfree, view, hptr]
  · rcases modCells_of_vmaCells hcells with ⟨hblock, hmods⟩
    rcases h.kvfree (isLive_of_block hblock rfl) with ⟨heq, hdangling⟩
    have hmodCells : modCells { d with blocks := d.blocks.set b .freed } = d.modCells :=
      funext fun b' => bind_getElem?_set hmods rfl b'
    rw [hptr]
    refine ⟨hdangling, by rw [heq, hmodCells], ?_⟩
    rw [heq]
    unfold view
    rw [hmodCells]
    have hb := (List.getElem?_eq_some_iff.1 hblock).1
    simp [hptr, vmaCells, List.getElem?_set_self hb, SnapBlock.vmaCells]

/-- The block behind the pointer to the modules is freed, and nothing else. -/
theorem kvfree_mods (h : d.Sound) (hok : ArrayOk d.modCells d.mods d.nMods) :
    (d.kvfree d.mods).Dangling d.mods ∧ (d.kvfree d.mods).vmaCells = d.vmaCells ∧
      (d.kvfree d.mods).view = { d.view with mods := none } := by
  rcases hok with ⟨hptr, -⟩ | ⟨b, t, hptr, hcells, -⟩
  · rw [hptr]
    refine ⟨⟨h, ?_⟩, rfl, ?_⟩
    · intro b hb
      cases hb
    · simp [FdMemory.kvfree, view, hptr]
  · rcases vmaCells_of_modCells hcells with ⟨hblock, hvmas⟩
    rcases h.kvfree (isLive_of_block hblock rfl) with ⟨heq, hdangling⟩
    have hvmaCells : vmaCells { d with blocks := d.blocks.set b .freed } = d.vmaCells :=
      funext fun b' => bind_getElem?_set hvmas rfl b'
    rw [hptr]
    refine ⟨hdangling, by rw [heq, hvmaCells], ?_⟩
    rw [heq]
    unfold view
    rw [hvmaCells]
    have hb := (List.getElem?_eq_some_iff.1 hblock).1
    simp [hptr, modCells, List.getElem?_set_self hb, SnapBlock.modCells]

theorem isLive_of_kvfree {ptr : Option Nat} {b : Nat} (h : (d.kvfree ptr).isLive b = true) :
    d.isLive b = true := by
  cases ptr with
  | none => exact h
  | some b' =>
      rw [FdMemory.kvfree] at h
      split_ifs at h with hlive
      · by_cases hbb : b' = b
        · rw [← hbb]
          exact hlive
        · simpa [isLive, List.getElem?_set_ne hbb] using h
      · exact h

/-- A pointer that is not kept leads to no block. -/
theorem Dangling.owned_mods (h : d.Dangling d.vmas) {b : Nat} (hlive : d.isLive b = true) :
    d.mods = some b := by
  rcases h.owned b hlive with hb | hb
  · rw [h.dangles b hb] at hlive
    cases hlive
  · exact hb

theorem Dangling.owned_vmas (h : d.Dangling d.mods) {b : Nat} (hlive : d.isLive b = true) :
    d.vmas = some b := by
  rcases h.owned b hlive with hb | hb
  · exact hb
  · rw [h.dangles b hb] at hlive
    cases hlive

/-- A new block is allocated, and the others stay. -/
theorem isLive_concat {x : SnapBlock} {b : Nat}
    (hlive : isLive { d with blocks := d.blocks ++ [x] } b = true) :
    d.isLive b = true ∨ b = d.blocks.length := by
  rcases Nat.lt_trichotomy b d.blocks.length with hlt | rfl | hgt
  · left
    simpa [isLive, List.getElem?_append_left hlt] using hlive
  · exact Or.inr rfl
  · rw [isLive, List.getElem?_eq_none (by simpa using hgt)] at hlive
    cases hlive

/-- Writing to a block leaves it allocated. -/
theorem isLive_set {x y : SnapBlock} {b b' : Nat} (hblock : d.blocks[b]? = some y)
    (hy : y.isLive = true) (hlive : isLive { d with blocks := d.blocks.set b x } b' = true) :
    d.isLive b' = true := by
  by_cases hbb : b = b'
  · rw [← hbb]
    exact isLive_of_block hblock hy
  · simpa [isLive, List.getElem?_set_ne hbb] using hlive

end FdMemory

theorem ArrayOk.empty {α : Type} {n : Nat} {cells : Nat → Option (SlotTable (Option α) n)}
    {b : Nat} {t : SlotTable (Option α) n} (ht : cells b = some t) :
    ArrayOk cells (some b) 0 :=
  Or.inr ⟨b, t, rfl, ht, fun i hi => absurd hi (Nat.not_lt_zero i)⟩

theorem ArrayOk.block {α : Type} {n count : Nat}
    {cells : Nat → Option (SlotTable (Option α) n)} {ptr : Option Nat}
    (h : ArrayOk cells ptr count) (hptr : ptr.isSome = true) :
    ∃ b t, ptr = some b ∧ cells b = some t ∧ ∀ i < count, ∃ v, t.slots[i]? = some (some v) := by
  rcases h with ⟨rfl, -⟩ | h
  · cases hptr
  · exact h

/-- The next entry of an array is written. -/
theorem ArrayOk.write {α : Type} {n count : Nat}
    {cells' : Nat → Option (SlotTable (Option α) n)} {b : Nat}
    {t : SlotTable (Option α) n} {v : α} (hfilled : ∀ i < count, ∃ v, t.slots[i]? = some (some v))
    (hcells : cells' b = some (t.set count (some v))) (hroom : count < n) :
    ArrayOk cells' (some b) (count + 1) := by
  refine Or.inr ⟨b, _, rfl, hcells, ?_⟩
  intro i hi
  rcases Nat.lt_succ_iff_lt_or_eq.1 hi with hlt | rfl
  · rw [SlotTable.set_slots, List.getElem?_set_ne (Nat.ne_of_gt hlt)]
    exact hfilled i hlt
  · refine ⟨v, ?_⟩
    rw [SlotTable.set_slots, List.getElem?_set_self (by rw [t.length_slots]; exact hroom)]

/-! ## One statement -/

/-- The outcome stays the same, and so does what is known of the memory. -/
def SnapPlace.Keeps (place : SnapPlace) (d : FdMemory) (next : FdMemory × SnapPlace) : Prop :=
  next.2.At next.1 ∧ next.2.todo next.1.view = place.todo d.view

section

variable {d : FdMemory}

theorem keeps_scanFree {args : Option ScanArgs} (h : d.Good) :
    (SnapPlace.scanFree args).Keeps d (d.exec (.scanFree args)) := by
  rcases FdMemory.kvfree_vmas h.toSound h.vmasOk with ⟨hdangling, hmods, hview⟩
  refine ⟨⟨?_, ?_⟩, ?_⟩
  · simpa [FdMemory.exec] using hdangling
  · simpa [FdMemory.exec, hmods] using h.modsOk
  · change (SnapPlace.scanNull args).todo (d.kvfree d.vmas).view = _
    rw [hview]
    cases args <;> rfl

theorem keeps_scanNull {args : Option ScanArgs} (h : (SnapPlace.scanNull args).At d) :
    (SnapPlace.scanNull args).Keeps d (d.exec (.scanNull args)) := by
  refine ⟨⟨⟨h.1.alive, h.1.unfaulted, ?_⟩, rfl, h.2⟩, ?_⟩
  · intro b hb
    exact Or.inr (h.1.owned_mods hb)
  · cases args <;> rfl

theorem keeps_scanZero {args : Option ScanArgs} (h : (SnapPlace.scanZero args).At d) :
    (SnapPlace.scanZero args).Keeps d (d.exec (.scanZero args)) := by
  rcases h with ⟨hsound, hptr, hmods⟩
  cases args with
  | none =>
      refine ⟨⟨⟨hsound.alive, hsound.unfaulted, hsound.owned⟩, Or.inl ⟨hptr, rfl⟩, hmods⟩, ?_⟩
      change (_, FdMemory.view { d with nVmas := 0 }) =
        (_, { d.view with vmas := none, nVmas := 0 })
      simp only [FdMemory.view, hptr, Option.bind_none]
      rfl
  | some args =>
      exact ⟨⟨⟨⟨hsound.alive, hsound.unfaulted, hsound.owned⟩, Or.inl ⟨hptr, rfl⟩, hmods⟩,
        hptr, rfl, rfl, rfl, rfl⟩, rfl⟩

/-- A state without areas is what `ac_build_vma_snapshot` makes of it first. -/
theorem FdMemory.Good.cleared (h : d.Good) (hptr : d.vmas = none)
    (hcounts : d.rwxCount = 0 ∧ d.execCount = 0 ∧ d.anonExecCount = 0 ∧ d.truncated = false) :
    { d.view with
      vmas := none, nVmas := 0, rwxCount := 0, execCount := 0, anonExecCount := 0,
      truncated := false } = d.view := by
  have hcount : d.nVmas = 0 := by
    rcases h.vmasOk with ⟨-, hcount⟩ | ⟨b, t, hb, -⟩
    · exact hcount
    · rw [hptr] at hb
      cases hb
  rcases hcounts with ⟨hrwx, hexec, hanon, htruncated⟩
  simp [FdMemory.view, hptr, hcount, hrwx, hexec, hanon, htruncated]

theorem keeps_scanFind {args : ScanArgs} (h : (SnapPlace.scanFind args).At d) :
    (SnapPlace.scanFind args).Keeps d (d.exec (.scanFind args)) := by
  have hclear := h.1.cleared h.2.1 h.2.2
  cases htask : args.env.task with
  | false =>
      rw [show d.exec (.scanFind args) = (d, .mutexUnlock (.error .ESRCH)) by
        simp [FdMemory.exec, htask]]
      refine ⟨h.1, ?_⟩
      simp [SnapPlace.todo, scanOutcome, acBuildVmaSnapshot, htask, hclear]
  | true =>
      cases hmm : args.env.mm with
      | none =>
          rw [show d.exec (.scanFind args) = (d, .mutexUnlock (.error .ESRCH)) by
            simp [FdMemory.exec, htask, hmm]]
          refine ⟨h.1, ?_⟩
          simp [SnapPlace.todo, scanOutcome, acBuildVmaSnapshot, htask, hmm, hclear]
      | some areas =>
          rw [show d.exec (.scanFind args) = (d, .scanAlloc args areas) by
            simp [FdMemory.exec, htask, hmm]]
          refine ⟨h, ?_⟩
          have hfresh := congrArg (fun st : AcFdState =>
            { st with vmas := some (SlotTable.replicate acMaxVmas none) }) hclear
          simp only [SnapPlace.todo, scanOutcome, acBuildVmaSnapshot, htask, hmm, hclear]
          cases args.env.alloc with
          | false => rfl
          | true =>
              exact congrArg (fun st => scanFinish args
                (vmaLoop args.pid args.emitEvents args.env.bufs areas 0 st)) hfresh.symm

theorem keeps_scanAlloc {args : ScanArgs} {areas : List VmArea}
    (h : (SnapPlace.scanAlloc args areas).At d) :
    (SnapPlace.scanAlloc args areas).Keeps d (d.exec (.scanAlloc args areas)) := by
  rcases h with ⟨hgood, hptr, -⟩
  unfold SnapPlace.Keeps
  simp only [FdMemory.exec, SnapPlace.todo]
  cases halloc : args.env.alloc with
  | false => exact ⟨hgood, rfl⟩
  | true =>
      have hmods : FdMemory.modCells d.kvmallocVmas = d.modCells :=
        funext fun b => bind_getElem?_concat rfl b
      have hnew : FdMemory.vmaCells d.kvmallocVmas d.blocks.length =
          some (SlotTable.replicate acMaxVmas none) := by
        simp [FdMemory.vmaCells, FdMemory.kvmallocVmas, SnapBlock.vmaCells]
      refine ⟨⟨⟨hgood.alive, hgood.unfaulted, ?_⟩, rfl, ArrayOk.empty hnew, ?_⟩, ?_⟩
      · intro b hb
        rcases FdMemory.isLive_concat hb with hb | rfl
        · rcases hgood.owned b hb with hold | hold
          · rw [hptr] at hold
            cases hold
          · exact Or.inr hold
        · exact Or.inl rfl
      · change ArrayOk d.kvmallocVmas.modCells d.mods d.nMods
        rw [hmods]
        exact hgood.modsOk
      · have hview : d.kvmallocVmas.view =
            { d.view with vmas := some (SlotTable.replicate acMaxVmas none) } := by
          unfold FdMemory.view
          rw [hmods, show d.kvmallocVmas.vmas = some d.blocks.length from rfl,
            Option.bind_some, hnew]
          rfl
        change scanFinish args (vmaLoop _ _ _ _ _ d.kvmallocVmas.view) = _
        rw [hview]
        rfl

theorem FdMemory.writeVma_eq {b n : Nat} {t : SlotTable (Option AcVmaInfo) acMaxVmas}
    (hptr : d.vmas = some b) (hcells : d.vmaCells b = some t) (hn : n < acMaxVmas)
    (vi : AcVmaInfo) :
    d.writeVma n vi = { d with blocks := d.blocks.set b (.vmas (t.set n (some vi))) } := by
  simp [FdMemory.writeVma, hptr, hcells, hn]

/-- Writing an entry of the areas. -/
theorem FdMemory.recordArea_spec (h : d.Sound) {b n : Nat}
    {t : SlotTable (Option AcVmaInfo) acMaxVmas} (hptr : d.vmas = some b)
    (hcells : d.vmaCells b = some t) (hn : n < acMaxVmas) (buf : Bool) (a : VmArea) :
    (d.recordArea buf n a).Sound ∧
      (d.recordArea buf n a).vmaCells b = some (t.set n (some (vmaInfo buf a))) ∧
      (d.recordArea buf n a).modCells = d.modCells ∧
      (d.recordArea buf n a).view = Anticheat.recordArea buf n a d.view ∧
      (d.recordArea buf n a).vmas = some b ∧ (d.recordArea buf n a).mods = d.mods ∧
      (d.recordArea buf n a).nMods = d.nMods := by
  rcases modCells_of_vmaCells hcells with ⟨hblock, hnone⟩
  have hb := (List.getElem?_eq_some_iff.1 hblock).1
  have hwrite := FdMemory.writeVma_eq hptr hcells hn (vmaInfo buf a)
  have hmods : FdMemory.modCells (d.recordArea buf n a) = d.modCells := by
    rw [FdMemory.recordArea, hwrite]
    exact funext fun b' => bind_getElem?_set hnone rfl b'
  have hvmas : (d.recordArea buf n a).vmaCells b = some (t.set n (some (vmaInfo buf a))) := by
    rw [FdMemory.recordArea, hwrite]
    simp [vmaCells, List.getElem?_set_self hb, SnapBlock.vmaCells]
  have hptr' : (d.recordArea buf n a).vmas = some b := by
    rw [FdMemory.recordArea, hwrite]
    exact hptr
  refine ⟨⟨?_, ?_, ?_⟩, hvmas, hmods, ?_, hptr', ?_, ?_⟩
  · rw [FdMemory.recordArea, hwrite]
    exact h.alive
  · rw [FdMemory.recordArea, hwrite]
    exact h.unfaulted
  · intro b' hb'
    rw [FdMemory.recordArea, hwrite] at hb' ⊢
    exact h.owned b' (isLive_set hblock rfl hb')
  · unfold view
    rw [hmods, hptr', Option.bind_some, hvmas]
    simp [Anticheat.recordArea, FdMemory.recordArea, hwrite, hptr, hcells]
  · rw [FdMemory.recordArea, hwrite]
  · rw [FdMemory.recordArea, hwrite]

theorem keeps_scanLoop {args : ScanArgs} {areas : List VmArea} {n : Nat}
    (h : (SnapPlace.scanLoop args areas n).At d) :
    (SnapPlace.scanLoop args areas n).Keeps d (d.exec (.scanLoop args areas n)) := by
  cases areas with
  | nil => exact ⟨h, rfl⟩
  | cons a rest =>
      rcases h with ⟨hsound, hsome, hvmas, hmods⟩
      by_cases hn : n ≥ acMaxVmas
      · rw [show d.exec (.scanLoop args (a :: rest) n) =
          ({ d with truncated := true }, .scanCount args n) from if_pos hn]
        refine ⟨⟨⟨hsound.alive, hsound.unfaulted, hsound.owned⟩, hsome, hvmas, hmods⟩, ?_⟩
        simp only [SnapPlace.todo, vmaLoop, if_pos hn]
        rfl
      · rw [show d.exec (.scanLoop args (a :: rest) n) =
          (d.recordArea (args.env.bufs n) n a, .scanLoop args rest (n + 1)) from if_neg hn]
        rcases hvmas.block hsome with ⟨b, t, hptr, hcells, hfilled⟩
        rcases FdMemory.recordArea_spec hsound hptr hcells (Nat.lt_of_not_le hn)
          (args.env.bufs n) a with ⟨hsound', hcells', hmodCells, hview, hptr', hmods', hnMods⟩
        refine ⟨⟨hsound', by rw [hptr']; rfl, ?_, ?_⟩, ?_⟩
        · rw [hptr']
          exact ArrayOk.write hfilled hcells' (Nat.lt_of_not_le hn)
        · rw [hmodCells, hmods', hnMods]
          exact hmods
        · simp only [SnapPlace.todo, vmaLoop, if_neg hn, hview]
          rfl

theorem keeps_scanCheck {index : Nat} (h : d.Good) :
    (SnapPlace.scanCheck index).Keeps d (d.exec (.scanCheck index)) := by
  by_cases hi : index ≥ d.nVmas
  · rw [show d.exec (.scanCheck index) = (d, .mutexUnlock (.error .EINVAL)) from if_pos hi]
    refine ⟨h, ?_⟩
    change (_, d.view) = (acIoctlScanGet index (some d.view), d.view)
    rw [show acIoctlScanGet index (some d.view) = .error .EINVAL from if_pos hi]
  · rw [show d.exec (.scanCheck index) = (d, .scanRead index) from if_neg hi]
    refine ⟨⟨h, Nat.lt_of_not_le hi⟩, ?_⟩
    change (_, d.view) = (acIoctlScanGet index (some d.view), d.view)
    rw [show acIoctlScanGet index (some d.view) = .ok (.vma (readCell d.view.vmas index)) from
      if_neg hi]

/-- An entry below the length can be read. -/
theorem FdMemory.readThrough_eq {α : Type} {n count i : Nat}
    {cells : Nat → Option (SlotTable (Option α) n)} {ptr : Option Nat}
    (h : ArrayOk cells ptr count) (hi : i < count) :
    d.readThrough (ptr.bind cells) i = d := by
  rcases h with ⟨-, hcount⟩ | ⟨b, t, rfl, hcells, hfilled⟩
  · omega
  · rcases hfilled i hi with ⟨v, hv⟩
    have hlt := (List.getElem?_eq_some_iff.1 hv).1
    rw [t.length_slots] at hlt
    rw [Option.bind_some, hcells, FdMemory.readThrough, if_pos hlt]

theorem keeps_scanRead {index : Nat} (h : (SnapPlace.scanRead index).At d) :
    (SnapPlace.scanRead index).Keeps d (d.exec (.scanRead index)) := by
  unfold SnapPlace.Keeps
  simp only [FdMemory.exec, FdMemory.readThrough_eq h.1.vmasOk h.2]
  exact ⟨h.1, rfl⟩

theorem keeps_modsFree {args : Option ModsArgs} (h : d.Good) :
    (SnapPlace.modsFree args).Keeps d (d.exec (.modsFree args)) := by
  rcases FdMemory.kvfree_mods h.toSound h.modsOk with ⟨hdangling, hvmas, hview⟩
  refine ⟨⟨?_, ?_⟩, ?_⟩
  · simpa [FdMemory.exec] using hdangling
  · simpa [FdMemory.exec, hvmas] using h.vmasOk
  · change (SnapPlace.modsNull args).todo (d.kvfree d.mods).view = _
    rw [hview]
    cases args <;> rfl

theorem keeps_modsNull {args : Option ModsArgs} (h : (SnapPlace.modsNull args).At d) :
    (SnapPlace.modsNull args).Keeps d (d.exec (.modsNull args)) := by
  refine ⟨⟨⟨h.1.alive, h.1.unfaulted, ?_⟩, rfl, h.2⟩, ?_⟩
  · intro b hb
    exact Or.inl (h.1.owned_vmas hb)
  · cases args <;> rfl

theorem keeps_modsZero {args : Option ModsArgs} (h : (SnapPlace.modsZero args).At d) :
    (SnapPlace.modsZero args).Keeps d (d.exec (.modsZero args)) := by
  rcases h with ⟨hsound, hptr, hvmas⟩
  have hgood : FdMemory.Good { d with nMods := 0 } :=
    ⟨⟨hsound.alive, hsound.unfaulted, hsound.owned⟩, hvmas, Or.inl ⟨hptr, rfl⟩⟩
  cases args with
  | none =>
      refine ⟨hgood, ?_⟩
      change (_, FdMemory.view { d with nMods := 0 }) =
        (_, { d.view with mods := none, nMods := 0 })
      simp only [FdMemory.view, hptr, Option.bind_none]
      rfl
  | some args => exact ⟨⟨hgood, hptr⟩, rfl⟩

theorem keeps_modsAlloc {args : ModsArgs} (h : (SnapPlace.modsAlloc args).At d) :
    (SnapPlace.modsAlloc args).Keeps d (d.exec (.modsAlloc args)) := by
  rcases h with ⟨hgood, hptr⟩
  have hclear : { d.view with mods := none, nMods := 0 } = d.view := by
    have hcount : d.nMods = 0 := by
      rcases hgood.modsOk with ⟨-, hcount⟩ | ⟨b, t, hb, -⟩
      · exact hcount
      · rw [hptr] at hb
        cases hb
    simp [FdMemory.view, hptr, hcount]
  cases halloc : args.alloc with
  | false =>
      rw [show d.exec (.modsAlloc args) = (d, .mutexUnlock (.error .ENOMEM)) by
        simp [FdMemory.exec, halloc]]
      refine ⟨hgood, ?_⟩
      simp [SnapPlace.todo, modsOutcome, acBuildModSnapshot, halloc, hclear]
  | true =>
      rw [show d.exec (.modsAlloc args) = (d.kvmallocMods, .modsLoop args.walk 0) by
        simp [FdMemory.exec, halloc]]
      have hvmas : FdMemory.vmaCells d.kvmallocMods = d.vmaCells :=
        funext fun b => bind_getElem?_concat rfl b
      have hnew : FdMemory.modCells d.kvmallocMods d.blocks.length =
          some (SlotTable.replicate acMaxMods none) := by
        simp [FdMemory.modCells, FdMemory.kvmallocMods, SnapBlock.modCells]
      have hview : d.kvmallocMods.view =
          { d.view with mods := some (SlotTable.replicate acMaxMods none) } := by
        unfold FdMemory.view
        rw [hvmas, show d.kvmallocMods.mods = some d.blocks.length from rfl,
          Option.bind_some, hnew]
        rfl
      refine ⟨⟨⟨hgood.alive, hgood.unfaulted, ?_⟩, rfl, ArrayOk.empty hnew, ?_⟩, ?_⟩
      · intro b hb
        rcases FdMemory.isLive_concat hb with hb | rfl
        · rcases hgood.owned b hb with hold | hold
          · exact Or.inl hold
          · rw [hptr] at hold
            cases hold
        · exact Or.inr rfl
      · change ArrayOk d.kvmallocMods.vmaCells d.vmas d.nVmas
        rw [hvmas]
        exact hgood.vmasOk
      · simp only [SnapPlace.todo, modsOutcome, acBuildModSnapshot, halloc, hview]
        rfl

theorem FdMemory.writeMod_eq {b n : Nat} {t : SlotTable (Option AcModInfo) acMaxMods}
    (hptr : d.mods = some b) (hcells : d.modCells b = some t) (hn : n < acMaxMods)
    (mi : AcModInfo) :
    d.writeMod n mi = { d with blocks := d.blocks.set b (.mods (t.set n (some mi))) } := by
  simp [FdMemory.writeMod, hptr, hcells, hn]

/-- Writing an entry of the modules. -/
theorem FdMemory.writeMod_spec (h : d.Sound) {b n : Nat}
    {t : SlotTable (Option AcModInfo) acMaxMods} (hptr : d.mods = some b)
    (hcells : d.modCells b = some t) (hn : n < acMaxMods) (mi : AcModInfo) :
    (d.writeMod n mi).Sound ∧
      (d.writeMod n mi).modCells b = some (t.set n (some mi)) ∧
      (d.writeMod n mi).vmaCells = d.vmaCells ∧
      (d.writeMod n mi).view = { d.view with mods := some (t.set n (some mi)) } := by
  rcases vmaCells_of_modCells hcells with ⟨hblock, hnone⟩
  have hb := (List.getElem?_eq_some_iff.1 hblock).1
  rw [FdMemory.writeMod_eq hptr hcells hn]
  have hvmas : vmaCells { d with blocks := d.blocks.set b (.mods (t.set n (some mi))) } =
      d.vmaCells :=
    funext fun b' => bind_getElem?_set hnone rfl b'
  have hmods : modCells { d with blocks := d.blocks.set b (.mods (t.set n (some mi))) } b =
      some (t.set n (some mi)) := by
    simp [modCells, List.getElem?_set_self hb, SnapBlock.modCells]
  refine ⟨⟨h.alive, h.unfaulted, ?_⟩, hmods, hvmas, ?_⟩
  · intro b' hb'
    exact h.owned b' (isLive_set hblock rfl hb')
  · simp only [view, AcFdState.mk.injEq, true_and, and_true]
    refine ⟨by rw [hvmas], ?_⟩
    rw [hptr]
    exact hmods

theorem FdMemory.view_mods {b : Nat} {t : SlotTable (Option AcModInfo) acMaxMods}
    (hptr : d.mods = some b) (hcells : d.modCells b = some t) : d.view.mods = some t := by
  change d.mods.bind d.modCells = some t
  rw [hptr, Option.bind_some, hcells]

theorem keeps_modsLoop {walk : List KModule} {n : Nat} (h : (SnapPlace.modsLoop walk n).At d) :
    (SnapPlace.modsLoop walk n).Keeps d (d.exec (.modsLoop walk n)) := by
  cases walk with
  | nil => exact ⟨h, rfl⟩
  | cons m rest =>
      cases hsane : acModuleSane m with
      | false =>
          rw [show d.exec (.modsLoop (m :: rest) n) = (d, .modsLoop rest n) by
            simp [FdMemory.exec, hsane]]
          refine ⟨h, ?_⟩
          simp [SnapPlace.todo, modLoop, hsane]
      | true =>
          by_cases hn : n ≥ acMaxMods
          · rw [show d.exec (.modsLoop (m :: rest) n) = (d, .modsCount n) by
              simp [FdMemory.exec, hsane, hn]]
            refine ⟨h, ?_⟩
            simp [SnapPlace.todo, modLoop, hsane, hn]
          · rw [show d.exec (.modsLoop (m :: rest) n) =
                (d.writeMod n (modInfo m), .modsLoop rest (n + 1)) by
              simp [FdMemory.exec, hsane, hn]]
            rcases h with ⟨hsound, hsome, hmods, hvmas⟩
            rcases hmods.block hsome with ⟨b, t, hptr, hcells, hfilled⟩
            have hlt := Nat.lt_of_not_le hn
            rcases FdMemory.writeMod_spec hsound hptr hcells hlt (modInfo m) with
              ⟨hsound', hcells', hvmaCells, hview⟩
            have hfields := FdMemory.writeMod_eq hptr hcells hlt (modInfo m)
            have hptr' : (d.writeMod n (modInfo m)).mods = some b := by
              rw [hfields]
              exact hptr
            refine ⟨⟨hsound', by rw [hptr']; rfl, ?_, ?_⟩, ?_⟩
            · rw [hptr']
              exact ArrayOk.write hfilled hcells' hlt
            · rw [hvmaCells, hfields]
              exact hvmas
            · change modsFinish (d.writeMod n (modInfo m)).view (modLoop rest (n + 1)
                ((d.writeMod n (modInfo m)).view.mods.getD _)) =
                modsFinish d.view (modLoop (m :: rest) n (d.view.mods.getD _))
              rw [hview, FdMemory.view_mods hptr hcells, modLoop, hsane, if_neg (by simp),
                if_neg hn]
              rfl

theorem keeps_modsCheck {index : Nat} (h : d.Good) :
    (SnapPlace.modsCheck index).Keeps d (d.exec (.modsCheck index)) := by
  by_cases hi : index ≥ d.nMods
  · rw [show d.exec (.modsCheck index) = (d, .mutexUnlock (.error .EINVAL)) from if_pos hi]
    refine ⟨h, ?_⟩
    change (_, d.view) = (acIoctlModsGet index (some d.view), d.view)
    rw [show acIoctlModsGet index (some d.view) = .error .EINVAL from if_pos hi]
  · rw [show d.exec (.modsCheck index) = (d, .modsRead index) from if_neg hi]
    refine ⟨⟨h, Nat.lt_of_not_le hi⟩, ?_⟩
    change (_, d.view) = (acIoctlModsGet index (some d.view), d.view)
    rw [show acIoctlModsGet index (some d.view) = .ok (.mod (readCell d.view.mods index)) from
      if_neg hi]

theorem keeps_modsRead {index : Nat} (h : (SnapPlace.modsRead index).At d) :
    (SnapPlace.modsRead index).Keeps d (d.exec (.modsRead index)) := by
  unfold SnapPlace.Keeps
  simp only [FdMemory.exec, FdMemory.readThrough_eq h.1.modsOk h.2]
  exact ⟨h.1, rfl⟩

theorem keeps_modsCount {n : Nat} (h : (SnapPlace.modsCount n).At d) :
    (SnapPlace.modsCount n).Keeps d (d.exec (.modsCount n)) := by
  rcases h with ⟨hsound, hsome, hmods, hvmas⟩
  refine ⟨⟨⟨hsound.alive, hsound.unfaulted, hsound.owned⟩, hvmas, hmods⟩, ?_⟩
  rcases hmods.block hsome with ⟨b, t, hptr, hcells, -⟩
  have hview : FdMemory.view { d with nMods := n } =
      { d.view with mods := some t, nMods := n } := by
    rw [← FdMemory.view_mods hptr hcells]
    rfl
  change (_, FdMemory.view { d with nMods := n }) = modsFinish d.view (n, d.view.mods.getD _)
  rw [hview, FdMemory.view_mods hptr hcells]
  rfl

/-- Every statement of the code. -/
theorem SnapPlace.keeps {place : SnapPlace} (h : place.At d) : place.Keeps d (d.exec place) := by
  cases place with
  | scanFree args => exact keeps_scanFree h
  | scanNull args => exact keeps_scanNull h
  | scanZero args => exact keeps_scanZero h
  | scanFind args => exact keeps_scanFind h
  | scanAlloc args areas => exact keeps_scanAlloc h
  | scanLoop args areas n => exact keeps_scanLoop h
  | scanCount args n =>
      exact ⟨⟨⟨h.1.alive, h.1.unfaulted, h.1.owned⟩, h.2.2.1, h.2.2.2⟩, rfl⟩
  | scanReport args => exact ⟨h, rfl⟩
  | scanCheck index => exact keeps_scanCheck h
  | scanRead index => exact keeps_scanRead h
  | modsFree args => exact keeps_modsFree h
  | modsNull args => exact keeps_modsNull h
  | modsZero args => exact keeps_modsZero h
  | modsAlloc args => exact keeps_modsAlloc h
  | modsLoop walk n => exact keeps_modsLoop h
  | modsCount n => exact keeps_modsCount h
  | modsReport => exact ⟨h, rfl⟩
  | modsCheck index => exact keeps_modsCheck h
  | modsRead index => exact keeps_modsRead h
  | mutexUnlock reply => exact ⟨h, rfl⟩

/-- Nothing is at fault at any place of the code. -/
theorem SnapPlace.At.sound {place : SnapPlace} (h : place.At d) : d.Sound := by
  cases place with
  | scanNull args => exact h.1.toSound
  | scanZero args => exact h.1
  | scanFind args => exact h.1.toSound
  | scanAlloc args areas => exact h.1.toSound
  | scanLoop args areas n => exact h.1
  | scanCount args n => exact h.1
  | scanRead index => exact h.1.toSound
  | modsNull args => exact h.1.toSound
  | modsZero args => exact h.1
  | modsAlloc args => exact h.1.toSound
  | modsLoop walk n => exact h.1
  | modsCount n => exact h.1
  | modsRead index => exact h.1.toSound
  | scanFree args => exact h.toSound
  | scanReport args => exact h.toSound
  | scanCheck index => exact h.toSound
  | modsFree args => exact h.toSound
  | modsReport => exact h.toSound
  | modsCheck index => exact h.toSound
  | mutexUnlock reply => exact h.toSound

theorem SnapPlace.next_eq {place : SnapPlace} (h : place.At d) :
    snapCode.next d place = d.exec place := by
  change (if d.freed then (d.fault, place) else d.exec place) = _
  rw [h.sound.alive]
  rfl

end

/-- The code of the ioctls does to the state what `acIoctlSnap` does. -/
def snapRefinement : Refinement snapCode applySnap where
  view := FdMemory.view
  Good := FdMemory.Good
  At := SnapPlace.At
  todo := SnapPlace.todo
  at_start call d h := by
    cases call <;> exact h
  todo_start := SnapPlace.todo_start
  at_next place d h _ := by
    rw [SnapPlace.next_eq h]
    exact (SnapPlace.keeps h).1
  todo_next place d h _ := by
    rw [SnapPlace.next_eq h]
    exact (SnapPlace.keeps h).2
  good_result place d reply h hover := by
    cases place with
    | mutexUnlock reply' => exact h
    | _ => cases hover
  todo_result place d reply h hover := by
    cases place with
    | mutexUnlock reply' =>
        cases hover
        rfl
    | _ => cases hover

/-- `ac_free_fd_state` frees what is allocated, once. -/
theorem FdMemory.Good.dispose {d : FdMemory} (h : d.Good) :
    (acFreeFdState d).faulted = false ∧ ∀ b, (acFreeFdState d).isLive b = false := by
  rcases FdMemory.kvfree_vmas h.toSound h.vmasOk with ⟨hdangling, hmods, -⟩
  have hptr := (FdMemory.kvfree_ptr (d := d) d.vmas).2.2
  have hmodsOk : ArrayOk (d.kvfree d.vmas).modCells (d.kvfree d.vmas).mods
      (d.kvfree d.vmas).nMods := by
    rw [hmods, hptr.1, hptr.2]
    exact h.modsOk
  rcases FdMemory.kvfree_mods hdangling.toSound hmodsOk with ⟨hdangling', -, -⟩
  have hfree : acFreeFdState d =
      { (d.kvfree d.vmas).kvfree (d.kvfree d.vmas).mods with freed := true } := by
    simp [acFreeFdState, h.alive]
  rw [hfree]
  refine ⟨hdangling'.unfaulted, ?_⟩
  intro b
  by_contra hlive
  rw [Bool.not_eq_false] at hlive
  change ((d.kvfree d.vmas).kvfree (d.kvfree d.vmas).mods).isLive b = true at hlive
  rcases hdangling'.owned b hlive with hb | hb
  · have hgone := hdangling.dangles b (by simpa using hb)
    rw [FdMemory.isLive_of_kvfree hlive] at hgone
    cases hgone
  · have hgone := hdangling'.dangles b (by simpa using hb)
    rw [hlive] at hgone
    cases hgone

end Anticheat
