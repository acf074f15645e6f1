import Anticheat.Foundation.RawMemory
import Anticheat.Kernel.ModulePin
import Anticheat.Kernel.Ptrace
import Anticheat.Kernel.SnapshotIoctl
import Anticheat.Kernel.SyscallCheck

/-!
# The device, byte by byte

This is the device with all its ioctls at the level of the memory that they read and
write.  The records of the ABI are here the objects that are copied to user space:
character arrays with all their bytes, arrays with all their elements, and the padding
that the compiler adds.

Memory from `kmalloc`, from `kvmalloc_array` and on the stack is not cleared.  What it
contains before a call writes to it is an argument of the call, so a handler that
forgets to write a byte passes it on.

The registry is only read as strings and numbers and is taken over as it is; the ring
and the snapshots are copied out whole and are modelled anew.
-/

namespace Anticheat
namespace Raw

open Foundation

/-! ## The records of the ABI -/

/-- `struct ac_event` -/
structure AcEvent where
  ts : UInt64
  pid : Int
  comm : CharArray acMaxComm
  type : UInt32
  data : CharArray acEventData
deriving DecidableEq

instance : Clear AcEvent := ⟨⟨0, 0, Clear.zero, 0, Clear.zero⟩⟩

/-- The ring is static and starts out cleared. -/
instance : Inhabited AcEvent := ⟨Clear.zero⟩

/-- `struct ac_event_list` -/
structure AcEventList where
  count : Nat
  dropped : UInt32
  events : SlotTable AcEvent acMaxEvents
deriving DecidableEq

instance : Clear AcEventList := ⟨⟨0, 0, Clear.zero⟩⟩

instance : Clear AcStatus := ⟨⟨0, 0, 0, 0, 0, 0⟩⟩

/-- `struct ac_proc_id` -/
structure AcProcId where
  pid : Int
  refPid : Int
  jitAllowed : Int
  comm : CharArray acMaxComm
deriving DecidableEq

/-- `struct ac_prot_item` -/
structure AcProtItem where
  pid : Int
  jitAllowed : Int
  comm : CharArray acMaxComm
deriving DecidableEq

instance : Clear AcProtItem := ⟨⟨0, 0, Clear.zero⟩⟩

/-- `struct ac_prot_list` -/
structure AcProtList where
  count : Nat
  items : SlotTable AcProtItem acMaxProts
deriving DecidableEq

instance : Clear AcProtList := ⟨⟨0, Clear.zero⟩⟩

/-- `struct ac_vma_info`, with four bytes of padding. -/
structure AcVmaInfo where
  start : UInt64
  stop : UInt64
  offset : UInt64
  inode : UInt64
  flags : UInt64
  isFile : Nat
  path : CharArray acVmaPath
  pad : CharArray 4
deriving DecidableEq

instance : Clear AcVmaInfo := ⟨⟨0, 0, 0, 0, 0, 0, Clear.zero, Clear.zero⟩⟩

/-- `struct ac_scan_begin` -/
structure AcScanBegin where
  pid : Int
  emitEvents : Int
  nVmas : Nat
  rwxCount : Nat
  execCount : Nat
  anonExecCount : Nat
  truncated : Nat
deriving DecidableEq

/-- `struct ac_scan_get` -/
structure AcScanGet where
  pid : Int
  index : Nat
  vma : AcVmaInfo
deriving DecidableEq

/-- `struct ac_syscall_check`, with four bytes of padding. -/
structure AcSyscallCheck extends Anticheat.AcSyscallCheck where
  pad : CharArray 4
deriving DecidableEq

instance : Clear AcSyscallCheck := ⟨⟨{}, Clear.zero⟩⟩

/-- `struct ac_mod_info`, with four bytes of padding. -/
structure AcModInfo where
  name : CharArray acModNameLen
  size : UInt64
  state : UInt32
  pad : CharArray 4
deriving DecidableEq

instance : Clear AcModInfo := ⟨⟨Clear.zero, 0, 0, Clear.zero⟩⟩

/-- `struct ac_mod_get`, with four bytes of padding between its fields. -/
structure AcModGet where
  index : Nat
  pad : CharArray 4
  mod : AcModInfo
deriving DecidableEq

/-- What a call hands to `copy_to_user`. -/
inductive UserCopy where
  | status (st : AcStatus)
  | scanBegin (b : AcScanBegin)
  | scanGet (g : AcScanGet)
  | syscallCheck (c : AcSyscallCheck)
  | modsBegin (count : Nat)
  | modsGet (g : AcModGet)
  | getEvents (el : AcEventList)
  | listProtected (pl : AcProtList)
deriving DecidableEq

/-- What the memory that a call is given contains before the call writes to it: the
records on its stack, the arrays that it allocates, and the buffer for the path of each
area. -/
structure Fresh where
  status : AcStatus
  procId : AcProcId
  scanBegin : AcScanBegin
  scanGet : AcScanGet
  syscallCheck : AcSyscallCheck
  count : Nat
  modGet : AcModGet
  protList : AcProtList
  pcomm : CharArray acMaxComm
  vmas : SlotTable AcVmaInfo acMaxVmas
  mods : SlotTable AcModInfo acMaxMods
  pathBuf : Nat → List UInt8

/-! ## The event ring -/

/-- The ring `ac_ring` with its cursors, and `ac_dropped`. -/
structure EventRing where
  ring : Ring AcEvent acRingSize
  dropped : UInt32
deriving DecidableEq

/-- `ac_emit` -/
def acEmit (r : EventRing) (now : UInt64) (c : EmitCall) : EventRing :=
  let r :=
    if r.ring.count ≥ acRingSize then
      { ring := r.ring.dropOldest, dropped := r.dropped + 1 }
    else r
  let ev := memset (r.ring.cells.getD r.ring.head default)
  let ev := { ev with
    ts := now
    pid := c.pid
    comm := ev.comm.strscpy (c.comm.getD (CStr.ascii "?"))
    type := c.type.code
    data := ev.data.strscpy c.data }
  { r with ring := r.ring.put ev }

/-- The events of one call, where `clock i` is the time of the `i`-th. -/
def emitAll (clock : Nat → UInt64) (r : EventRing) (calls : List EmitCall) : EventRing :=
  calls.zipIdx.foldl (fun r c => acEmit r (clock c.2) c.1) r

/-- The test of the drain loop. -/
def drainMore (out : Option AcEventList) (r : EventRing) : Bool :=
  decide (r.ring.count > 0) &&
    match out with
    | none => true
    | some o => decide (o.count < acMaxEvents)

/-- The drain loop, with the number of pending events as fuel. -/
def drainLoop : Nat → Option AcEventList → EventRing → Option AcEventList × EventRing
  | 0, out, r => (out, r)
  | fuel + 1, out, r =>
      if drainMore out r then
        drainLoop fuel
          (out.map fun o =>
            { o with
              events := o.events.set o.count r.ring.oldest
              count := o.count + 1 })
          { r with ring := r.ring.dropOldest }
      else (out, r)

/-- `ac_drain_events` -/
def acDrainEvents (out : Option AcEventList) (r : EventRing) :
    Option AcEventList × EventRing :=
  drainLoop r.ring.count
    (out.map fun o => { o with dropped := r.dropped, count := 0 }) r

/-! ## The registry -/

/-- The loop of `ac_list_protected`: `n` items have been written. -/
def listLoop {Task : Type} : List (AcProtEntry Task) → Nat →
    SlotTable AcProtItem acMaxProts → Nat × SlotTable AcProtItem acMaxProts
  | [], n, items => (n, items)
  | e :: rest, n, items =>
      if n < acMaxProts then
        if e.task.isNone then listLoop rest n items
        else
          listLoop rest (n + 1) (items.modify n fun item =>
            { item with
              pid := e.pid
              jitAllowed := e.jitAllowed.toInt
              comm := item.comm.strscpy e.comm })
      else (n, items)

/-- `ac_list_protected` -/
def acListProtected {Task : Type} (r : Registry Task) (out : AcProtList) : AcProtList :=
  let (n, items) := listLoop r.prots.slots 0 out.items
  { out with count := n, items := items }

variable {Task : Type} [DecidableEq Task]

/-- The event that a fork leaves.  The name of the parent is copied to the stack
first. -/
def forkEvent (fresh : Fresh) (info : Task → TaskInfo) (cur child : Task) : EmitCall :=
  let pcomm := fresh.pcomm.strscpy (info cur).comm
  { type := .fork
    pid := (info child).pid
    comm := some (info child).comm
    data := CStr.ascii "child of protected pid " ++ CStr.decimal (info cur).pid ++
      CStr.ascii " (" ++ pcomm.str ++ CStr.ascii "); protection inherited" }

/-- `ac_clone_ret` -/
def acCloneRet (fresh : Fresh) (r : Registry Task) (info : Task → TaskInfo)
    (find : Int → Option Task) (cur : Task) (ret : BitVec 64) :
    List EmitCall × Registry Task :=
  if ret.toInt ≤ 0 then
    ([], r)
  else if !acIsProtectedTask r cur then
    ([], r)
  else
    match find (pidOfLong ret) with
    | none => ([], r)
    | some child =>
        let r := getTaskStruct child r
        let (_, r) := acAddProtTask r info child (acTaskJitAllowed r cur)
        ([forkEvent fresh info cur child], putTaskStruct child r)

/-! ## Snapshots -/

/-- `struct ac_fd_state`.  An array that is not allocated is a NULL pointer. -/
structure AcFdState where
  vmas : Option (SlotTable AcVmaInfo acMaxVmas) := none
  nVmas : Nat := 0
  rwxCount : Nat := 0
  execCount : Nat := 0
  anonExecCount : Nat := 0
  truncated : Nat := 0
  mods : Option (SlotTable AcModInfo acMaxMods) := none
  nMods : Nat := 0
deriving DecidableEq

/-- `ac_get_fd_state`; the state is allocated with `kzalloc`. -/
def acGetFdState (alloc : Bool) : Option AcFdState → Option AcFdState
  | some st => some st
  | none => if alloc then some {} else none

/-- `d_path` writes the path to the end of the buffer and returns where it starts. -/
def dPath (buf : List UInt8) (path : CStr) : List UInt8 × Nat :=
  let p := buf.length - (path.length + 1)
  (buf.take p ++ path ++ [0], p)

/-- The string at an offset of a buffer. -/
def stringAt (buf : List UInt8) (p : Nat) : CStr :=
  (buf.drop p).takeWhile (· != 0)

/-- What the loop writes for one area, where `vi` is the cell and `buf` is the outcome
of the allocation of the path buffer. -/
def fillVma (vi : AcVmaInfo) (buf : Option (List UInt8)) (a : VmArea) : AcVmaInfo :=
  let vi := memset vi
  let vi := { vi with
    start := a.vmStart
    stop := a.vmEnd
    offset := a.vmPgoff <<< pageShift
    flags := a.vmFlags }
  match a.vmFile with
  | none => vi
  | some f =>
      let vi := { vi with isFile := 1 }
      let vi :=
        match f.ino with
        | some ino => { vi with inode := ino }
        | none => vi
      match buf with
      | none => vi
      | some buf =>
          if f.dPathOk then
            let (buf, p) := dPath buf f.path
            { vi with path := vi.path.strscpy (stringAt buf p) }
          else vi

/-- The events for one area. -/
def areaEvents (pid : Int) (emitEvents : Bool) (a : VmArea) (vi : AcVmaInfo) :
    List EmitCall :=
  (if a.isRwx && emitEvents then
    [{ type := .rwx
       pid := pid
       comm := some (CStr.ascii "?")
       data := CStr.ascii "RWX mapping [0x" ++ CStr.hex vi.start.toNat ++ CStr.ascii "-0x" ++
         CStr.hex vi.stop.toNat ++ CStr.ascii "] " ++
         if vi.path.str.isEmpty then CStr.ascii "(anonymous)" else vi.path.str }]
  else []) ++
  if vi.isFile == 0 && a.isExec && emitEvents then
    [{ type := .anonExec
       pid := pid
       comm := some (CStr.ascii "?")
       data := CStr.ascii "anonymous executable mapping [0x" ++ CStr.hex vi.start.toNat ++
         CStr.ascii "-0x" ++ CStr.hex vi.stop.toNat ++ CStr.ascii "]" }]
  else []

/-- One cell of an array.  An index outside the array, or an array that is not there,
leaves the destination as it was. -/
def readCell {α : Type} {n : Nat} (dst : α) (cells : Option (SlotTable α n)) (i : Nat) : α :=
  (cells.bind fun t => t.slots[i]?).getD dst

/-- The loop over the areas, where `n` of them have been recorded. -/
def vmaLoop (fresh : Fresh) (pid : Int) (emitEvents : Bool) (bufs : Nat → Bool) :
    List VmArea → Nat → AcFdState → Nat × AcFdState × List EmitCall
  | [], n, st => (n, st, [])
  | a :: rest, n, st =>
      if n ≥ acMaxVmas then
        (n, { st with truncated := 1 }, [])
      else
        let buf := if bufs n then some (fresh.pathBuf n) else none
        let vi := fillVma (readCell Clear.zero st.vmas n) buf a
        let st := { st with
          vmas := st.vmas.map fun t => t.set n vi
          rwxCount := st.rwxCount + if a.isRwx then 1 else 0
          anonExecCount := st.anonExecCount + if vi.isFile == 0 && a.isExec then 1 else 0
          execCount := st.execCount + if a.isExec then 1 else 0 }
        let (m, st, later) := vmaLoop fresh pid emitEvents bufs rest (n + 1) st
        (m, st, areaEvents pid emitEvents a vi ++ later)

/-- `ac_build_vma_snapshot` -/
def acBuildVmaSnapshot (fresh : Fresh) (env : ScanEnv) (pid : Int) (emitEvents : Bool)
    (st : AcFdState) : Except Errno Unit × AcFdState × List EmitCall :=
  let st : AcFdState := { st with
    vmas := none, nVmas := 0, rwxCount := 0, execCount := 0, anonExecCount := 0,
    truncated := 0 }
  if !env.task then
    (.error .ESRCH, st, [])
  else
    match env.mm with
    | none => (.error .ESRCH, st, [])
    | some areas =>
        if !env.alloc then
          (.error .ENOMEM, st, [])
        else
          let st : AcFdState := { st with vmas := some fresh.vmas }
          let (n, st, emitted) := vmaLoop fresh pid emitEvents env.bufs areas 0 st
          (.ok (), { st with nVmas := n }, emitted)

/-- What the walk writes for one module, where `mi` is the cell. -/
def fillMod (mi : AcModInfo) (m : KModule) : AcModInfo :=
  let mi := memset mi
  { mi with name := mi.name.strscpy m.name, size := acModuleSize m, state := m.state }

/-- The walk over the module list, where `n` modules have been recorded. -/
def modLoop : List KModule → Nat → SlotTable AcModInfo acMaxMods →
    Nat × SlotTable AcModInfo acMaxMods
  | [], n, t => (n, t)
  | m :: rest, n, t =>
      if !acModuleSane m then modLoop rest n t
      else if n ≥ acMaxMods then (n, t)
      else modLoop rest (n + 1) (t.modify n fun mi => fillMod mi m)

/-- `ac_build_mod_snapshot` -/
def acBuildModSnapshot (fresh : Fresh) (alloc : Bool) (walk : List KModule)
    (st : AcFdState) : Except Errno Unit × AcFdState :=
  let st : AcFdState := { st with mods := none, nMods := 0 }
  if !alloc then
    (.error .ENOMEM, st)
  else
    let (n, t) := modLoop walk 0 fresh.mods
    (.ok (), { st with mods := some t, nMods := n })

/-- `ac_check_syscalls` -/
def acCheckSyscalls (sys : SyscallStatics) (env : SyscallEnv) (out : AcSyscallCheck) :
    Except Errno Unit × AcSyscallCheck × List EmitCall :=
  let out := memset out
  let (ret, check, emitted) := Anticheat.acCheckSyscalls sys env
  (ret, { out with toAcSyscallCheck := check }, emitted)

/-! ## The device -/

/-- The ioctls.  Each carries what it meets: the record in user memory, unless reading
it faults, the outcomes of allocations, the kernel's answers, and the times of the events
that it emits. -/
inductive Ioctl (Task : Type) where
  | status
  | addProc (user : Option AcProcId) (info : Task → TaskInfo) (find : Int → Option Task)
      (findInNsOf : Int → Int → Option Task)
  | delProc (user : Option AcProcId) (find : Int → Option Task)
  | scanBegin (user : Option AcScanBegin) (fdAlloc : Bool) (env : ScanEnv)
      (clock : Nat → UInt64)
  | scanGet (user : Option AcScanGet)
  | scanEnd
  | checkSyscalls (env : SyscallEnv) (clock : Nat → UInt64)
  | modsBegin (fdAlloc alloc : Bool) (walk : List KModule)
  | modsGet (user : Option AcModGet)
  | modsEnd
  | getEvents (alloc : Bool)
  | flushEvents
  | listProtected
  | lock (live : Bool)
  | unlock
  | unknown

/-- The state of the module, with the private data of every open file. -/
structure Device (Task File : Type) where
  ring : EventRing
  reg : Registry Task
  files : File → Option AcFdState
  lockCount : BitVec 32
  lastHookCount : Nat

/-- The device at module load. -/
def Device.initial (Task File : Type) : Device Task File where
  ring := { ring := Ring.empty AcEvent acRingSize, dropped := 0 }
  reg := Registry.empty Task
  files := fun _ => none
  lockCount := 0
  lastHookCount := 0

/-- What a call returns, and what it hands to `copy_to_user`. -/
abbrev Outcome := Except Errno Unit × Option UserCopy

variable {File : Type} [DecidableEq File]

/-- The end of a call that copies a record out; the copy may fault. -/
def copyOut (copy : Bool) (record : UserCopy) : Outcome :=
  (if copy then .ok () else .error .EFAULT, some record)

/-- `AC_IOCTL_STATUS` -/
def acIoctlStatus (sys : SyscallStatics) (fresh : Fresh) (d : Device Task File) : AcStatus :=
  let st := memset fresh.status
  { st with
    version := acIoctlVersion
    syscallTableAddr := sys.acSyscallTable
    activeProcs := acProtectedCount d.reg
    eventsDropped := d.ring.dropped
    locked := if d.lockCount.toInt > 0 then 1 else 0
    syscallHookCount := d.lastHookCount }

/-- `AC_IOCTL_SCAN_BEGIN` -/
def acIoctlScanBegin (fresh : Fresh) (file : File) (copy : Bool) (user : Option AcScanBegin)
    (fdAlloc : Bool) (env : ScanEnv) (clock : Nat → UInt64) (d : Device Task File) :
    Outcome × Device Task File :=
  match copyFromUser fresh.scanBegin user with
  | none => ((.error .EFAULT, none), d)
  | some b =>
      match acGetFdState fdAlloc (d.files file) with
      | none => ((.error .ENOMEM, none), d)
      | some st =>
          let (ret, st, emitted) := acBuildVmaSnapshot fresh env b.pid (b.emitEvents != 0) st
          let d := { d with
            files := Function.update d.files file (some st)
            ring := emitAll clock d.ring emitted }
          match ret with
          | .error e => ((.error e, none), d)
          | .ok () =>
              (copyOut copy (.scanBegin { b with
                nVmas := st.nVmas
                rwxCount := st.rwxCount
                execCount := st.execCount
                anonExecCount := st.anonExecCount
                truncated := st.truncated }), d)

/-- The part that SCAN_GET and MODS_GET share: an index is checked against the count of a
snapshot, and the record with the entry is copied out. -/
def getEntry {G : Type} (file : File) (copy : Bool) (user : Option G) (index : G → Nat)
    (count : AcFdState → Nat) (record : AcFdState → G → UserCopy) (d : Device Task File) :
    Outcome :=
  match user with
  | none => (.error .EFAULT, none)
  | some g =>
      match d.files file with
      | none => (.error .EINVAL, none)
      | some st =>
          if index g ≥ count st then (.error .EINVAL, none)
          else copyOut copy (record st g)

/-- `AC_IOCTL_SCAN_GET` -/
def acIoctlScanGet (fresh : Fresh) (file : File) (copy : Bool) (user : Option AcScanGet)
    (d : Device Task File) : Outcome :=
  getEntry file copy (copyFromUser fresh.scanGet user) AcScanGet.index AcFdState.nVmas
    (fun st g => .scanGet { g with vma := readCell g.vma st.vmas g.index }) d

/-- The part that SCAN_END and MODS_END share. -/
def endSnapshot (file : File) (drop : AcFdState → AcFdState) (d : Device Task File) :
    Device Task File :=
  { d with files := Function.update d.files file ((d.files file).map drop) }

/-- `AC_IOCTL_SCAN_END` -/
def acIoctlScanEnd (file : File) (d : Device Task File) : Device Task File :=
  endSnapshot file (fun st => { st with vmas := none, nVmas := 0 }) d

/-- `AC_IOCTL_CHECK_SYSCALLS` -/
def acIoctlCheckSyscalls (sys : SyscallStatics) (fresh : Fresh) (copy : Bool)
    (env : SyscallEnv) (clock : Nat → UInt64) (d : Device Task File) :
    Outcome × Device Task File :=
  let (ret, c, emitted) := acCheckSyscalls sys env fresh.syscallCheck
  let d := { d with ring := emitAll clock d.ring emitted }
  match ret with
  | .error e => ((.error e, none), d)
  | .ok () => (copyOut copy (.syscallCheck c), { d with lastHookCount := c.hooked })

/-- `AC_IOCTL_MODS_BEGIN` -/
def acIoctlModsBegin (fresh : Fresh) (file : File) (copy fdAlloc alloc : Bool)
    (walk : List KModule) (d : Device Task File) : Outcome × Device Task File :=
  match acGetFdState fdAlloc (d.files file) with
  | none => ((.error .ENOMEM, none), d)
  | some st =>
      let (ret, st) := acBuildModSnapshot fresh alloc walk st
      let d := { d with files := Function.update d.files file (some st) }
      let count :=
        match ret with
        | .ok () => st.nMods
        | .error _ => fresh.count
      match ret with
      | .error e => ((.error e, none), d)
      | .ok () => (copyOut copy (.modsBegin count), d)

/-- `AC_IOCTL_MODS_GET` -/
def acIoctlModsGet (fresh : Fresh) (file : File) (copy : Bool) (user : Option AcModGet)
    (d : Device Task File) : Outcome :=
  getEntry file copy (copyFromUser fresh.modGet user) AcModGet.index AcFdState.nMods
    (fun st g => .modsGet { g with mod := readCell g.mod st.mods g.index }) d

/-- `AC_IOCTL_MODS_END` -/
def acIoctlModsEnd (file : File) (d : Device Task File) : Device Task File :=
  endSnapshot file (fun st => { st with mods := none, nMods := 0 }) d

/-- `AC_IOCTL_GET_EVENTS`; the list is allocated with `kzalloc`. -/
def acIoctlGetEvents (copy alloc : Bool) (d : Device Task File) : Outcome × Device Task File :=
  if !alloc then
    ((.error .ENOMEM, none), d)
  else
    let (el, ring) := acDrainEvents (some Clear.zero) d.ring
    ((if copy then .ok () else .error .EFAULT, el.map .getEvents), { d with ring := ring })

/-- `ac_ioctl` -/
def acIoctl (sys : SyscallStatics) (fresh : Fresh) (file : File) (capable copy : Bool)
    (cmd : Ioctl Task) (d : Device Task File) : Outcome × Device Task File :=
  if !capable then
    ((.error .EPERM, none), d)
  else
    match cmd with
    | .status => (copyOut copy (.status (acIoctlStatus sys fresh d)), d)
    | .addProc user info find findInNsOf =>
        match copyFromUser fresh.procId user with
        | none => ((.error .EFAULT, none), d)
        | some a =>
            let (ret, reg) := acAddProtPid d.reg info find findInNsOf a.pid a.refPid
              (a.jitAllowed != 0)
            ((ret, none), { d with reg := reg })
    | .delProc user find =>
        match copyFromUser fresh.procId user with
        | none => ((.error .EFAULT, none), d)
        | some a =>
            let (ret, reg) := acIoctlDelProc d.reg find a.pid
            ((ret, none), { d with reg := reg })
    | .scanBegin user fdAlloc env clock =>
        acIoctlScanBegin fresh file copy user fdAlloc env clock d
    | .scanGet user => (acIoctlScanGet fresh file copy user d, d)
    | .scanEnd => ((.ok (), none), acIoctlScanEnd file d)
    | .checkSyscalls env clock => acIoctlCheckSyscalls sys fresh copy env clock d
    | .modsBegin fdAlloc alloc walk => acIoctlModsBegin fresh file copy fdAlloc alloc walk d
    | .modsGet user => (acIoctlModsGet fresh file copy user d, d)
    | .modsEnd => ((.ok (), none), acIoctlModsEnd file d)
    | .getEvents alloc => acIoctlGetEvents copy alloc d
    | .flushEvents => ((.ok (), none), { d with ring := (acDrainEvents none d.ring).2 })
    | .listProtected =>
        (copyOut copy (.listProtected (acListProtected d.reg (memset fresh.protList))), d)
    | .lock live =>
        let (ret, lockCount) := acIoctlLock live d.lockCount
        ((ret, none), { d with lockCount := lockCount })
    | .unlock => ((.ok (), none), { d with lockCount := acIoctlUnlock d.lockCount })
    | .unknown => ((.error .ENOTTY, none), d)

/-- What can happen: a file is opened, used or closed, or one of the probes runs. -/
inductive DeviceOp (Task File : Type) where
  | openFile (file : File) (capable : Bool)
  | ioctl (file : File) (capable copy : Bool) (cmd : Ioctl Task)
  | release (file : File)
  | cloneRet (info : Task → TaskInfo) (find : Int → Option Task) (cur : Task)
      (ret : BitVec 64) (clock : Nat → UInt64)
  | exitPre (info : Task → TaskInfo) (cur : Task) (clock : Nat → UInt64)
  | execPre (info : Task → TaskInfo) (cur : Task) (clock : Nat → UInt64)
  | ptracePre (info : Task → TaskInfo) (find : Int → Option Task) (acPolicy : BitVec 32)
      (alloc : Bool) (cur : Task) (p : PtraceProbe) (args : PtRegs) (clock : Nat → UInt64)

/-- One step of the device; only ioctls hand something to user space. -/
def Device.step (sys : SyscallStatics) (d : Device Task File) (fresh : Fresh) :
    DeviceOp Task File → Outcome × Device Task File
  | .openFile file capable =>
      if !capable then ((.error .EPERM, none), d)
      else ((.ok (), none), { d with files := Function.update d.files file none })
  | .ioctl file capable copy cmd => acIoctl sys fresh file capable copy cmd d
  | .release file => ((.ok (), none), { d with files := Function.update d.files file none })
  | .cloneRet info find cur ret clock =>
      let (emitted, reg) := acCloneRet fresh d.reg info find cur ret
      ((.ok (), none), { d with reg := reg, ring := emitAll clock d.ring emitted })
  | .exitPre info cur clock =>
      let (emitted, reg) := acExitPre d.reg info cur
      ((.ok (), none), { d with reg := reg, ring := emitAll clock d.ring emitted })
  | .execPre info cur clock =>
      ((.ok (), none), { d with ring := emitAll clock d.ring (acExecPre d.reg info cur) })
  | .ptracePre info find acPolicy alloc cur p args clock =>
      let outcome := acPtracePre d.reg info find acPolicy alloc cur p args
      ((.ok (), none), { d with ring := emitAll clock d.ring outcome.emits })

end Raw
end Anticheat
