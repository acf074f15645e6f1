import Anticheat.Foundation.CText
import Anticheat.Foundation.SlotTable

/-!
# The ABI shared by the module and the daemon

The constants, the event types and the records of `anticheat.h`, and the error
codes that the module's ioctl handlers return.  Fixed-size arrays of records
are tables with that number of slots; character arrays are the strings they
hold.
-/

namespace Anticheat

open Foundation

/-! ## Constants -/

/-- `AC_IOCTL_VERSION` -/
def acIoctlVersion : UInt64 := 1

/-- `AC_MAX_COMM` -/
def acMaxComm : Nat := 16

/-- `AC_MAX_VMAS`, the snapshot cap for a VMA scan. -/
def acMaxVmas : Nat := 4096

/-- `AC_VMA_PATH` -/
def acVmaPath : Nat := 128

/-- `AC_MOD_NAME_LEN` -/
def acModNameLen : Nat := 64

/-- `AC_MAX_EVENTS` -/
def acMaxEvents : Nat := 64

/-- `AC_MAX_PROTS` -/
def acMaxProts : Nat := 64

/-- `AC_MAX_MODS`, the cap for the module snapshot. -/
def acMaxMods : Nat := 1024

/-- `AC_EVENT_DATA` -/
def acEventData : Nat := 128

/-- `AC_VM_EXEC` -/
def acVmExec : UInt64 := 0x4

/-- `AC_VM_WRITE` -/
def acVmWrite : UInt64 := 0x2

/-- `PATH_MAX`, of the system headers. -/
def pathMax : Nat := 4096

/-- The error codes returned by the module. -/
inductive Errno where
  | EPERM
  | ESRCH
  | ENOMEM
  | EFAULT
  | EBUSY
  | EINVAL
  | ENODEV
  | ENOSPC
  | ENOTTY
deriving DecidableEq, Repr

/-! ## Events -/

/-- The event types, `AC_EV_FORK` to `AC_EV_INFO`. -/
inductive AcEventType where
  | fork
  | exec
  | exit
  | ptrace
  | syscallHook
  | rwx
  | anonExec
  | info
deriving DecidableEq, Repr

/-- The number of an event type in the ABI. -/
def AcEventType.code : AcEventType → UInt32
  | fork => 1
  | exec => 2
  | exit => 3
  | ptrace => 4
  | syscallHook => 5
  | rwx => 6
  | anonExec => 7
  | info => 8

/-- `struct ac_event` -/
structure AcEvent where
  ts : UInt64 := 0
  pid : Int := 0
  comm : CStr := []
  type : UInt32 := 0
  data : CStr := []
deriving DecidableEq, Inhabited

/-- `struct ac_event_list` -/
structure AcEventList where
  count : Nat
  dropped : UInt32
  events : SlotTable AcEvent acMaxEvents
deriving DecidableEq

/-- The zeroed list that `kzalloc` hands out. -/
def AcEventList.zero : AcEventList where
  count := 0
  dropped := 0
  events := SlotTable.replicate acMaxEvents {}

/-- The events that a list reports: its first `count` entries. -/
def AcEventList.reported (l : AcEventList) : List AcEvent :=
  l.events.slots.take l.count

/-! ## Status -/

/-- `struct ac_status` -/
structure AcStatus where
  version : UInt64
  syscallTableAddr : UInt64
  activeProcs : UInt32
  eventsDropped : UInt32
  locked : Nat
  syscallHookCount : Nat
deriving DecidableEq

/-! ## Protected processes -/

/-- `struct ac_prot_item` -/
structure AcProtItem where
  pid : Int := 0
  jitAllowed : Bool := false
  comm : CStr := []
deriving DecidableEq, Inhabited

/-- `struct ac_prot_list` -/
structure AcProtList where
  count : Nat
  items : SlotTable AcProtItem acMaxProts
deriving DecidableEq

/-- The list that the caller has cleared with `memset`. -/
def AcProtList.zero : AcProtList where
  count := 0
  items := SlotTable.replicate acMaxProts {}

/-- The processes that a list reports: its first `count` items. -/
def AcProtList.reported (l : AcProtList) : List AcProtItem :=
  l.items.slots.take l.count

/-! ## Scans -/

/-- `struct ac_vma_info` -/
structure AcVmaInfo where
  start : UInt64 := 0
  stop : UInt64 := 0
  offset : UInt64 := 0
  inode : UInt64 := 0
  flags : UInt64 := 0
  isFile : Bool := false
  path : CStr := []
deriving DecidableEq, Inhabited

/-- The area is executable. -/
def AcVmaInfo.isExec (vi : AcVmaInfo) : Bool :=
  (vi.flags &&& acVmExec) != 0

/-- The area is writable. -/
def AcVmaInfo.isWrite (vi : AcVmaInfo) : Bool :=
  (vi.flags &&& acVmWrite) != 0

/-- `struct ac_scan_begin` -/
structure AcScanBegin where
  pid : Int
  emitEvents : Bool
  nVmas : Nat := 0
  rwxCount : Nat := 0
  execCount : Nat := 0
  anonExecCount : Nat := 0
  truncated : Bool := false
deriving DecidableEq

/-- `struct ac_syscall_check` -/
structure AcSyscallCheck where
  tableAddr : UInt64 := 0
  nrSyscalls : Nat := 0
  total : Nat := 0
  nonText : Nat := 0
  hooked : Nat := 0
  ok : Bool := false
deriving DecidableEq

/-- `struct ac_mod_info` -/
structure AcModInfo where
  name : CStr := []
  size : UInt64 := 0
  state : UInt32 := 0
deriving DecidableEq, Inhabited

end Anticheat
