import Anticheat.Foundation.Holders
import Anticheat.Foundation.Lists
import Anticheat.Kernel.ModulePin
import Anticheat.Kernel.Ptrace

/-!
# The module's entry points, statement by statement

Code of the module runs in the handlers of its probes, in the ioctls on its device and in the
worker that delivers a kill.  All of these run concurrently.  A statement that takes a lock
for its own duration is one step; between two steps anything may happen.

The statements take and drop references to task and pid structures, and allocate and free the
requests of the worker.  Each statement is split into what it does to the shared state, an
action, and where the call goes on.  An action that uses a structure nobody holds a reference
to, drops a reference that is not there, or queues work on a queue that is not there, is a
fault.

Main results:

- Theorem {lit}`ModCall.plan_goes`: the statements from which a call goes on, and where to.
- Theorems {lit}`ModCall.Goes.heldTask` and {lit}`ModCall.Goes.heldPid`: a statement takes and
  drops the references that its call holds afterwards and before.
- Theorems {lit}`ModPlace.held_of_usedTask` and {lit}`ModPlace.held_of_usedPid`: it uses only
  what its call holds.
-/

namespace Anticheat

open Foundation

/-- The probes of the module: the entries of `ac_kprobes`, and `ac_kp_clone`. -/
inductive AcProbe where
  | ptrace (entry : PtraceProbe)
  | exit
  | execve
  | execveat
  | clone
deriving DecidableEq, Repr

/-- Where a call has come in. -/
inductive CallSite where
  | probe (p : AcProbe)
  | file (f : Nat)
deriving DecidableEq, Repr

/-- The ioctls that change what is shared between calls. -/
inductive ModCommand where
  | addProc (pid refPid : Int) (jitAllowed : Bool)
  | delProc (pid : Int)
  | pin (cmd : PinCommand)
deriving DecidableEq

/-- On whose behalf a task is looked up. -/
inductive Lookup where
  | ptraceTarget
  | clonedChild
  | nsReference (nr : Int) (jitAllowed : Bool)
  | addProc (jitAllowed : Bool)
  | delProc
deriving DecidableEq

/-- The statement that a call executes next, with the values of its variables. -/
inductive ModPlace (Task Pid : Type) where
  -- ac_find_task
  | findGetPid (nr : Int) (why : Lookup)
  | getPidTask (pidp : Pid) (why : Lookup)
  | putPid (pidp : Pid) (task : Option Task) (why : Lookup)
  -- ac_find_task_in_ns_of
  | findPidNs (refTask : Task) (nr : Int) (jitAllowed : Bool)
  | putRefTask (refTask : Task) (pidp : Option Pid) (jitAllowed : Bool)
  -- ac_ptrace_pre, with ac_is_protected_pid and ac_schedule_kill
  | ptracePre
  | isProtectedTask (t : Task)
  | putTarget (t : Task) (tcomm : Option CStr)
  | emitDenial (v : PtraceVerdict)
  | kmalloc
  | getTaskPid (r : Nat)
  | queueWork (r : Nat)
  | neutralise
  -- ac_clone_ret
  | cloneRet (ret : BitVec 64)
  | taskJitAllowed (child : Task)
  | addChild (child : Task) (jitAllowed : Bool)
  | emitFork (child : Task)
  | putChild (child : Task)
  -- ac_exit_pre and ac_exec_pre
  | exitPre
  | emitExit
  | delExited
  | execPre
  | emitExec
  -- ac_ioctl
  | ioctl (cmd : ModCommand)
  | copyFromUser (cmd : ModCommand)
  | addProtTask (t : Task) (jitAllowed : Bool)
  | putAdded (t : Task) (ret : Except Errno Unit)
  | delProtTask (t : Task)
  | putDeleted (t : Task)
  | pin (call : Nat)
  | returned (ret : Except Errno Unit)

/-- A call: where it came in, the task that makes it, the syscall frame that a ptrace probe
sees, and the statement that comes next.  The other fields are a record: the process of the
caller, the task that the call was found to aim at while it was protected, and the policy that was
read then. -/
structure ModCall (Task Pid : Type) where
  site : CallSite
  cur : Task
  args : PtRegs
  place : ModPlace Task Pid
  process : Nat
  target : Option Task := none
  policy : BitVec 32 := 0

/-- The statement of `ac_kill_worker` that comes next for a request.  A fresh request is not
queued yet. -/
inductive WorkPlace (Task : Type) where
  | fresh
  | queued
  | sendSig (t : Task)
  | putTask (t : Task)
  | putPid
  | kfree
  | freed
deriving DecidableEq

/-- `struct ac_kill_req`, with a record of the call that made it and of the process that the
pid belonged to. -/
structure AcKillReq (Task Pid : Type) where
  pid : Option Pid
  place : WorkPlace Task
  call : Nat
  process : Nat
deriving DecidableEq

/-- `ac_wq` -/
inductive WorkQueue where
  | absent
  | live
  | draining
deriving DecidableEq, Repr

/-- A SIGKILL that was sent: for which request, and to which task of which process. -/
structure SentKill (Task : Type) where
  request : Nat
  task : Task
  process : Nat
deriving DecidableEq

/-- What the calls share.  `pidRefs` counts the references that the module has taken to pid
structures; those to task structures are counted in the registry. -/
structure ModShared (Task Pid : Type) where
  reg : Registry Task
  pidRefs : Pid → Int
  emits : List EmitCall
  queue : WorkQueue
  requests : List (AcKillReq Task Pid)
  sent : List (SentKill Task)
  pins : PinState
  faulted : Bool

/-- The kernel's tasks: which task a pid structure names, which structure names a task, and to
which process a task belongs. -/
structure TaskTable (Task Pid : Type) where
  attached : Pid → Option Task
  home : Task → Option Pid
  process : Task → Nat

/-- What the kernel answers to a statement.  `ok` is the outcome of `capable`,
`copy_from_user` or `kmalloc`. -/
structure KernelAnswers (Task Pid : Type) where
  info : Task → TaskInfo
  findGetPid : Int → Option Pid
  findPidNs : Task → Int → Option Pid
  policy : BitVec 32
  ok : Bool

/-- What a statement does to the shared state. -/
inductive ModAction (Task Pid : Type) where
  | nothing
  | getTask (t : Task)
  | putTask (t : Task)
  | getPid (p : Pid)
  | putPid (p : Pid)
  | emit (e : EmitCall)
  | addProt (info : Task → TaskInfo) (t : Task) (jitAllowed : Bool)
  | delProt (t : Task)
  | kmalloc
  | setPid (r : Nat) (p : Option Pid) (process : Nat)
  | queueWork (r : Nat)
  | sendSig (kill : SentKill Task)
  | setPins (pins : PinState)

/-! ## Calls -/

section Calls

variable {Task Pid : Type}

/-- `is_compat` -/
def ModCall.isCompat (c : ModCall Task Pid) : Bool :=
  c.site = .probe (.ptrace .compat)

/-- Where the handler at `c` finds the request. -/
def ModCall.requestSlot (c : ModCall Task Pid) : PtReg :=
  if c.isCompat then .bx else .di

/-- Where the handler at `c` finds the pid. -/
def ModCall.targetSlot (c : ModCall Task Pid) : PtReg :=
  if c.isCompat then .cx else .si

def ModCall.goTo (c : ModCall Task Pid) (place : ModPlace Task Pid) : ModCall Task Pid :=
  { c with place := place }

/-- Where a lookup's caller goes on with the task that was found. -/
def Lookup.resume : Lookup → Option Task → ModPlace Task Pid
  | .ptraceTarget, some t => .isProtectedTask t
  | .ptraceTarget, none => .returned (.ok ())
  | .clonedChild, some child => .taskJitAllowed child
  | .clonedChild, none => .returned (.ok ())
  | .nsReference nr jit, some refTask => .findPidNs refTask nr jit
  | .nsReference _ _, none => .returned (.error .ESRCH)
  | .addProc jit, some t => .addProtTask t jit
  | .addProc _, none => .returned (.error .ESRCH)
  | .delProc, some t => .delProtTask t
  | .delProc, none => .returned (.error .ESRCH)

/-- Where an ioctl goes on after its argument has been copied. -/
def ModCommand.start : ModCommand → ModPlace Task Pid
  | .addProc pid refPid jit =>
      if refPid > 0 then .findGetPid refPid (.nsReference pid jit)
      else .findGetPid pid (.addProc jit)
  | .delProc pid => .findGetPid pid .delProc
  | .pin _ => .returned (.ok ())

/-- The event that the exit of a protected task leaves. -/
def exitEvent (info : Task → TaskInfo) (cur : Task) : EmitCall where
  type := .exit
  pid := (info cur).pid
  comm := some (info cur).comm
  data := CStr.ascii "protected process exited"

/-- The event that an execve of a protected task leaves. -/
def execEvent (info : Task → TaskInfo) (cur : Task) : EmitCall where
  type := .exec
  pid := (info cur).pid
  comm := some (info cur).comm
  data := CStr.ascii "execve() invoked (path is a user pointer, not resolved)"

variable [DecidableEq Task]

/-- The statement that comes next: what it does, and the call after it.  `live` says whether
`try_module_get` succeeds. -/
def ModCall.plan (tasks : TaskTable Task Pid) (k : KernelAnswers Task Pid) (live : Bool)
    (sh : ModShared Task Pid) (c : ModCall Task Pid) :
    Option (ModAction Task Pid × ModCall Task Pid) :=
  match c.place with
  | .findGetPid nr why =>
      match k.findGetPid nr with
      | some pidp => some (.getPid pidp, c.goTo (.getPidTask pidp why))
      | none => some (.nothing, c.goTo (why.resume none))
  | .getPidTask pidp why =>
      match tasks.attached pidp with
      | some t => some (.getTask t, c.goTo (.putPid pidp (some t) why))
      | none => some (.nothing, c.goTo (.putPid pidp none why))
  | .putPid pidp task why => some (.putPid pidp, c.goTo (why.resume task))
  | .findPidNs refTask nr jit =>
      match k.findPidNs refTask nr with
      | some pidp => some (.getPid pidp, c.goTo (.putRefTask refTask (some pidp) jit))
      | none => some (.nothing, c.goTo (.putRefTask refTask none jit))
  | .putRefTask refTask (some pidp) jit =>
      some (.putTask refTask, c.goTo (.getPidTask pidp (.addProc jit)))
  | .putRefTask refTask none _ => some (.putTask refTask, c.goTo (.returned (.error .ESRCH)))
  | .ptracePre =>
      if c.args c.requestSlot = ptraceTraceme then
        if acIsProtectedTask sh.reg c.cur then
          some (.nothing, c.goTo (.emitDenial
            { deny := true
              target := BitVec.ofInt 64 (k.info c.cur).pid
              tcomm := CStr.bounded acMaxComm (k.info c.cur).comm }))
        else some (.nothing, c.goTo (.returned (.ok ())))
      else if (c.args c.targetSlot).toInt > 0 then
        some (.nothing, c.goTo (.findGetPid (pidOfLong (c.args c.targetSlot)) .ptraceTarget))
      else some (.nothing, c.goTo (.returned (.ok ())))
  | .isProtectedTask t =>
      if acIsProtectedTask sh.reg t then
        some (.nothing, { c with
          place := .putTarget t (some (CStr.bounded acMaxComm (k.info t).comm))
          target := some t })
      else some (.nothing, c.goTo (.putTarget t none))
  | .putTarget t (some tcomm) =>
      some (.putTask t, c.goTo (.emitDenial
        { deny := true, kill := true, target := c.args c.targetSlot, tcomm := tcomm }))
  | .putTarget t none => some (.putTask t, c.goTo (.returned (.ok ())))
  | .emitDenial v =>
      some (.emit (denialEvent k.info c.cur (c.args c.requestSlot) v), { c with
        place := if v.kill && (k.policy &&& 0x1) != 0 then .kmalloc else .neutralise
        policy := k.policy })
  | .kmalloc =>
      if k.ok then some (.kmalloc, c.goTo (.getTaskPid sh.requests.length))
      else some (.nothing, c.goTo .neutralise)
  | .getTaskPid r =>
      some (.setPid r (tasks.home c.cur) (tasks.process c.cur), c.goTo (.queueWork r))
  | .queueWork r => some (.queueWork r, c.goTo .neutralise)
  | .neutralise =>
      some (.nothing, { c with
        args := Function.update c.args c.requestSlot (-1)
        place := .returned (.ok ()) })
  | .cloneRet ret =>
      if ret.toInt ≤ 0 then some (.nothing, c.goTo (.returned (.ok ())))
      else if !acIsProtectedTask sh.reg c.cur then some (.nothing, c.goTo (.returned (.ok ())))
      else some (.nothing, c.goTo (.findGetPid (pidOfLong ret) .clonedChild))
  | .taskJitAllowed child =>
      some (.nothing, c.goTo (.addChild child (acTaskJitAllowed sh.reg c.cur)))
  | .addChild child jit => some (.addProt k.info child jit, c.goTo (.emitFork child))
  | .emitFork child => some (.emit (forkEvent k.info c.cur child), c.goTo (.putChild child))
  | .putChild child => some (.putTask child, c.goTo (.returned (.ok ())))
  | .exitPre =>
      some (.nothing, c.goTo
        (if acIsProtectedTask sh.reg c.cur then .emitExit else .returned (.ok ())))
  | .emitExit => some (.emit (exitEvent k.info c.cur), c.goTo .delExited)
  | .delExited => some (.delProt c.cur, c.goTo (.returned (.ok ())))
  | .execPre =>
      some (.nothing, c.goTo
        (if acIsProtectedTask sh.reg c.cur then .emitExec else .returned (.ok ())))
  | .emitExec => some (.emit (execEvent k.info c.cur), c.goTo (.returned (.ok ())))
  | .ioctl cmd =>
      if !k.ok then some (.nothing, c.goTo (.returned (.error .EPERM)))
      else
        match cmd with
        | .pin cmd =>
            some (.setPins { sh.pins with calls := sh.pins.calls ++ [cmd.entry] },
              c.goTo (.pin sh.pins.calls.length))
        | cmd => some (.nothing, c.goTo (.copyFromUser cmd))
  | .copyFromUser cmd =>
      if k.ok then some (.nothing, c.goTo cmd.start)
      else some (.nothing, c.goTo (.returned (.error .EFAULT)))
  | .addProtTask t jit =>
      some (.addProt k.info t jit, c.goTo (.putAdded t (acAddProtTask sh.reg k.info t jit).1))
  | .putAdded t ret => some (.putTask t, c.goTo (.returned ret))
  | .delProtTask t => some (.delProt t, c.goTo (.putDeleted t))
  | .putDeleted t => some (.putTask t, c.goTo (.returned (.ok ())))
  | .pin call =>
      match sh.pins.step (.advance call live) with
      | none => none
      | some pins =>
          match pins.calls[call]? with
          | some (.returned ret) => some (.setPins pins, c.goTo (.returned ret))
          | _ => some (.setPins pins, c.goTo (.pin call))
  | .returned _ => none

/-- The statement of `ac_kill_worker` that comes next for a request. -/
def AcKillReq.plan (tasks : TaskTable Task Pid) (r : Nat) (q : AcKillReq Task Pid) :
    Option (ModAction Task Pid × WorkPlace Task) :=
  match q.place with
  | .fresh => none
  | .queued =>
      match q.pid.bind tasks.attached with
      | some t => some (.getTask t, .sendSig t)
      | none => some (.nothing, .putPid)
  | .sendSig t =>
      some (.sendSig { request := r, task := t, process := tasks.process t }, .putTask t)
  | .putTask t => some (.putTask t, .putPid)
  | .putPid =>
      match q.pid with
      | some p => some (.putPid p, .kfree)
      | none => some (.nothing, .kfree)
  | .kfree => some (.nothing, .freed)
  | .freed => none

end Calls

/-! ## Actions -/

section Actions

variable {Task Pid : Type}

/-- The shared state after something has gone wrong. -/
def ModShared.fault (sh : ModShared Task Pid) : ModShared Task Pid :=
  { sh with faulted := true }

variable [DecidableEq Task] [DecidableEq Pid]

/-- A statement dereferences these pointers; somebody has to hold a reference to each. -/
def ModShared.use (sh : ModShared Task Pid) (task : Option Task) (pidp : Option Pid) :
    ModShared Task Pid :=
  if (task.all fun t => 0 < sh.reg.refs t) && (pidp.all fun p => 0 < sh.pidRefs p) then sh
  else sh.fault

/-- What an action of the call `i` does. -/
def ModAction.run (i : Nat) (sh : ModShared Task Pid) : ModAction Task Pid → ModShared Task Pid
  | .nothing => sh
  | .getTask t => { sh with reg := getTaskStruct t sh.reg }
  | .putTask t =>
      if 0 < sh.reg.refs t then { sh with reg := putTaskStruct t sh.reg } else sh.fault
  | .getPid p => { sh with pidRefs := fun q => sh.pidRefs q + share (some p) q }
  | .putPid p =>
      if 0 < sh.pidRefs p then { sh with pidRefs := fun q => sh.pidRefs q - share (some p) q }
      else sh.fault
  | .emit e => { sh with emits := sh.emits ++ [e] }
  | .addProt info t jit => { sh with reg := (acAddProtTask sh.reg info t jit).2 }
  | .delProt t => { sh with reg := acDelProtTask sh.reg t }
  | .kmalloc =>
      { sh with requests := sh.requests ++
          [{ pid := none, place := .fresh, call := i, process := 0 }] }
  | .setPid r p process =>
      match sh.requests[r]? with
      | none => sh.fault
      | some q =>
          if q.place = .fresh then
            { sh with
              requests := sh.requests.set r { q with pid := p, process := process }
              pidRefs := fun u => sh.pidRefs u + share p u }
          else sh.fault
  | .queueWork r =>
      match sh.requests[r]? with
      | none => sh.fault
      | some q =>
          if q.place = .fresh ∧ sh.queue = .live then
            { sh with requests := sh.requests.set r { q with place := .queued } }
          else sh.fault
  | .sendSig kill => { sh with sent := sh.sent ++ [kill] }
  | .setPins pins => { sh with pins := pins }

end Actions

/-! ## References -/

section References

variable {Task Pid : Type}

/-- The task that a call holds a reference to. -/
def ModPlace.heldTask : ModPlace Task Pid → Option Task
  | .putPid _ task _ => task
  | .findPidNs refTask _ _ => some refTask
  | .putRefTask refTask _ _ => some refTask
  | .isProtectedTask t => some t
  | .putTarget t _ => some t
  | .taskJitAllowed child => some child
  | .addChild child _ => some child
  | .emitFork child => some child
  | .putChild child => some child
  | .addProtTask t _ => some t
  | .putAdded t _ => some t
  | .delProtTask t => some t
  | .putDeleted t => some t
  | _ => none

/-- The pid structure that a call holds a reference to. -/
def ModPlace.heldPid : ModPlace Task Pid → Option Pid
  | .getPidTask pidp _ => some pidp
  | .putPid pidp _ _ => some pidp
  | .putRefTask _ pidp _ => pidp
  | _ => none

/-- The task structure that the statement reads. -/
def ModPlace.usedTask : ModPlace Task Pid → Option Task
  | .findPidNs refTask _ _ => some refTask
  | .isProtectedTask t => some t
  | .addChild child _ => some child
  | .emitFork child => some child
  | .addProtTask t _ => some t
  | _ => none

/-- The pid structure that the statement reads. -/
def ModPlace.usedPid : ModPlace Task Pid → Option Pid
  | .getPidTask pidp _ => some pidp
  | _ => none

/-- The task that the worker holds a reference to. -/
def AcKillReq.heldTask (q : AcKillReq Task Pid) : Option Task :=
  match q.place with
  | .sendSig t => some t
  | .putTask t => some t
  | _ => none

/-- The pid structure that a request holds a reference to. -/
def AcKillReq.heldPid (q : AcKillReq Task Pid) : Option Pid :=
  match q.place with
  | .kfree => none
  | .freed => none
  | _ => q.pid

/-- The task structure that the worker reads. -/
def AcKillReq.usedTask (q : AcKillReq Task Pid) : Option Task :=
  match q.place with
  | .sendSig t => some t
  | _ => none

/-- The pid structure that the worker reads. -/
def AcKillReq.usedPid (q : AcKillReq Task Pid) : Option Pid :=
  match q.place with
  | .queued => q.pid
  | _ => none

/-- The task reference that an action takes. -/
def ModAction.takesTask : ModAction Task Pid → Option Task
  | .getTask t => some t
  | _ => none

/-- The task reference that an action drops. -/
def ModAction.dropsTask : ModAction Task Pid → Option Task
  | .putTask t => some t
  | _ => none

/-- The pid reference that an action takes. -/
def ModAction.takesPid : ModAction Task Pid → Option Pid
  | .getPid p => some p
  | _ => none

/-- The pid reference that an action drops. -/
def ModAction.dropsPid : ModAction Task Pid → Option Pid
  | .putPid p => some p
  | _ => none

@[simp]
theorem Lookup.heldTask_resume (why : Lookup) (task : Option Task) :
    (why.resume task : ModPlace Task Pid).heldTask = task := by
  cases why <;> cases task <;> rfl

@[simp]
theorem Lookup.heldPid_resume (why : Lookup) (task : Option Task) :
    (why.resume task : ModPlace Task Pid).heldPid = none := by
  cases why <;> cases task <;> rfl

theorem ModCommand.start_cases (Task Pid : Type) (cmd : ModCommand) :
    (∃ nr why, (cmd.start : ModPlace Task Pid) = .findGetPid nr why) ∨
      (cmd.start : ModPlace Task Pid) = .returned (.ok ()) := by
  cases cmd with
  | addProc pid refPid jit =>
      by_cases href : refPid > 0
      · exact Or.inl ⟨refPid, .nsReference pid jit, if_pos href⟩
      · exact Or.inl ⟨pid, .addProc jit, if_neg href⟩
  | delProc pid => exact Or.inl ⟨pid, .delProc, rfl⟩
  | pin cmd => exact Or.inr rfl

@[simp]
theorem ModCommand.heldTask_start (cmd : ModCommand) :
    (cmd.start : ModPlace Task Pid).heldTask = none := by
  rcases cmd.start_cases Task Pid with ⟨nr, why, h⟩ | h
  · rw [h]
    rfl
  · rw [h]
    rfl

@[simp]
theorem ModCommand.heldPid_start (cmd : ModCommand) :
    (cmd.start : ModPlace Task Pid).heldPid = none := by
  rcases cmd.start_cases Task Pid with ⟨nr, why, h⟩ | h
  · rw [h]
    rfl
  · rw [h]
    rfl

theorem ModPlace.held_of_usedTask {place : ModPlace Task Pid} {t : Task}
    (h : place.usedTask = some t) : place.heldTask = some t := by
  cases place <;> first | exact h | cases h

theorem ModPlace.held_of_usedPid {place : ModPlace Task Pid} {p : Pid}
    (h : place.usedPid = some p) : place.heldPid = some p := by
  cases place <;> first | exact h | cases h

theorem AcKillReq.held_of_usedTask {q : AcKillReq Task Pid} {t : Task}
    (h : q.usedTask = some t) : q.heldTask = some t := by
  unfold AcKillReq.usedTask at h
  unfold AcKillReq.heldTask
  cases hplace : q.place <;> rw [hplace] at h <;> first | exact h | cases h

theorem AcKillReq.held_of_usedPid {q : AcKillReq Task Pid} {p : Pid}
    (h : q.usedPid = some p) : q.heldPid = some p := by
  unfold AcKillReq.usedPid at h
  unfold AcKillReq.heldPid
  cases hplace : q.place <;> rw [hplace] at h <;> first | exact h | cases h

end References

/-! ## What a statement can do -/

section Goes

variable {Task Pid : Type}

/-- The statements of the call `c`: where they stand, what they do and where they lead. -/
inductive ModCall.Goes (tasks : TaskTable Task Pid) (sh : ModShared Task Pid)
    (c : ModCall Task Pid) : ModPlace Task Pid → ModAction Task Pid → ModPlace Task Pid → Prop
  | pidFound nr why pidp :
      Goes tasks sh c (.findGetPid nr why) (.getPid pidp) (.getPidTask pidp why)
  | pidMissing nr why : Goes tasks sh c (.findGetPid nr why) .nothing (why.resume none)
  | taskFound pidp why t :
      Goes tasks sh c (.getPidTask pidp why) (.getTask t) (.putPid pidp (some t) why)
  | taskMissing pidp why : Goes tasks sh c (.getPidTask pidp why) .nothing (.putPid pidp none why)
  | lookedUp pidp task why :
      Goes tasks sh c (.putPid pidp task why) (.putPid pidp) (why.resume task)
  | nsPidFound refTask nr jit pidp :
      Goes tasks sh c (.findPidNs refTask nr jit) (.getPid pidp)
        (.putRefTask refTask (some pidp) jit)
  | nsPidMissing refTask nr jit :
      Goes tasks sh c (.findPidNs refTask nr jit) .nothing (.putRefTask refTask none jit)
  | nsLookup refTask pidp jit :
      Goes tasks sh c (.putRefTask refTask (some pidp) jit) (.putTask refTask)
        (.getPidTask pidp (.addProc jit))
  | nsFailed refTask jit :
      Goes tasks sh c (.putRefTask refTask none jit) (.putTask refTask) (.returned (.error .ESRCH))
  | traceme v : v.kill = false → Goes tasks sh c .ptracePre .nothing (.emitDenial v)
  | ptraceLookup nr : Goes tasks sh c .ptracePre .nothing (.findGetPid nr .ptraceTarget)
  | ptraceIgnored : Goes tasks sh c .ptracePre .nothing (.returned (.ok ()))
  | checked t tcomm : Goes tasks sh c (.isProtectedTask t) .nothing (.putTarget t tcomm)
  | denied t tcomm v : Goes tasks sh c (.putTarget t (some tcomm)) (.putTask t) (.emitDenial v)
  | unprotected t : Goes tasks sh c (.putTarget t none) (.putTask t) (.returned (.ok ()))
  | punished v e : v.kill = true → Goes tasks sh c (.emitDenial v) (.emit e) .kmalloc
  | spared v e : Goes tasks sh c (.emitDenial v) (.emit e) .neutralise
  | allocated : Goes tasks sh c .kmalloc .kmalloc (.getTaskPid sh.requests.length)
  | unallocated : Goes tasks sh c .kmalloc .nothing .neutralise
  | pidSet r :
      Goes tasks sh c (.getTaskPid r) (.setPid r (tasks.home c.cur) (tasks.process c.cur))
        (.queueWork r)
  | queued r : Goes tasks sh c (.queueWork r) (.queueWork r) .neutralise
  | neutralised : Goes tasks sh c .neutralise .nothing (.returned (.ok ()))
  | cloneIgnored ret : Goes tasks sh c (.cloneRet ret) .nothing (.returned (.ok ()))
  | cloneLookup ret nr : c.cur ∈ sh.reg.registered →
      Goes tasks sh c (.cloneRet ret) .nothing (.findGetPid nr .clonedChild)
  | jitRead child jit : Goes tasks sh c (.taskJitAllowed child) .nothing (.addChild child jit)
  | childAdded child jit info :
      Goes tasks sh c (.addChild child jit) (.addProt info child jit) (.emitFork child)
  | forkEmitted child e : Goes tasks sh c (.emitFork child) (.emit e) (.putChild child)
  | cloneDone child : Goes tasks sh c (.putChild child) (.putTask child) (.returned (.ok ()))
  | exitSeen : Goes tasks sh c .exitPre .nothing .emitExit
  | exitIgnored : Goes tasks sh c .exitPre .nothing (.returned (.ok ()))
  | exitEmitted e : Goes tasks sh c .emitExit (.emit e) .delExited
  | exitDone : Goes tasks sh c .delExited (.delProt c.cur) (.returned (.ok ()))
  | execSeen : Goes tasks sh c .execPre .nothing .emitExec
  | execIgnored : Goes tasks sh c .execPre .nothing (.returned (.ok ()))
  | execDone e : Goes tasks sh c .emitExec (.emit e) (.returned (.ok ()))
  | notCapable cmd : Goes tasks sh c (.ioctl cmd) .nothing (.returned (.error .EPERM))
  | pinEntered cmd :
      Goes tasks sh c (.ioctl (.pin cmd))
        (.setPins { sh.pins with calls := sh.pins.calls ++ [cmd.entry] })
        (.pin sh.pins.calls.length)
  | capable cmd : Goes tasks sh c (.ioctl cmd) .nothing (.copyFromUser cmd)
  | copyFailed cmd : Goes tasks sh c (.copyFromUser cmd) .nothing (.returned (.error .EFAULT))
  | copied cmd : Goes tasks sh c (.copyFromUser cmd) .nothing cmd.start
  | added t jit info ret :
      Goes tasks sh c (.addProtTask t jit) (.addProt info t jit) (.putAdded t ret)
  | addDone t ret : Goes tasks sh c (.putAdded t ret) (.putTask t) (.returned ret)
  | deleted t : Goes tasks sh c (.delProtTask t) (.delProt t) (.putDeleted t)
  | delDone t : Goes tasks sh c (.putDeleted t) (.putTask t) (.returned (.ok ()))
  | pinned call live pins : sh.pins.step (.advance call live) = some pins →
      Goes tasks sh c (.pin call) (.setPins pins) (.pin call)
  | pinDone call live pins ret : sh.pins.step (.advance call live) = some pins →
      pins.calls[call]? = some (.returned ret) →
      Goes tasks sh c (.pin call) (.setPins pins) (.returned ret)

variable {tasks : TaskTable Task Pid} {k : KernelAnswers Task Pid}
  {live : Bool} {sh : ModShared Task Pid} {c c' : ModCall Task Pid} {a : ModAction Task Pid}

theorem ModCall.plan_goes [DecidableEq Task] (h : c.plan tasks k live sh = some (a, c')) :
    c.Goes tasks sh c.place a c'.place ∧ c'.site = c.site ∧ c'.cur = c.cur ∧
      c'.process = c.process := by
  unfold ModCall.plan at h
  split at h
  all_goals rename_i hplace
  all_goals rw [hplace]
  all_goals (repeat' split at h)
  all_goals cases h
  all_goals refine ⟨?_, rfl, rfl, rfl⟩
  all_goals simp only [ModCall.goTo]
  -- all but four statements have no condition
  all_goals try constructor
  · rfl
  · rename_i v hkill
    exact (Bool.and_eq_true_iff.1 hkill).1
  · rename_i ret hret hcur
    rw [← acIsProtectedTask_iff]
    simpa using hcur
  all_goals assumption

/-- A statement takes and drops the task references that make the difference between what the
call holds before and after it. -/
theorem ModCall.Goes.heldTask [DecidableEq Task] {place place' : ModPlace Task Pid}
    (h : c.Goes tasks sh place a place') (t : Task) : share place'.heldTask t =
      share place.heldTask t + share a.takesTask t - share a.dropsTask t := by
  cases h
  case pidMissing nr why =>
      rw [why.heldTask_resume]
      rfl
  case lookedUp pidp task why =>
      rw [why.heldTask_resume]
      simp [ModAction.takesTask, ModAction.dropsTask, ModPlace.heldTask]
  case copied cmd =>
      rw [cmd.heldTask_start]
      rfl
  all_goals simp [ModAction.takesTask, ModAction.dropsTask, ModPlace.heldTask]

theorem ModCall.Goes.heldPid [DecidableEq Pid] {place place' : ModPlace Task Pid}
    (h : c.Goes tasks sh place a place') (p : Pid) : share place'.heldPid p =
      share place.heldPid p + share a.takesPid p - share a.dropsPid p := by
  cases h
  case pidMissing nr why =>
      rw [why.heldPid_resume]
      rfl
  case lookedUp pidp task why =>
      rw [why.heldPid_resume]
      simp [ModAction.takesPid, ModAction.dropsPid, ModPlace.heldPid]
  case copied cmd =>
      rw [cmd.heldPid_start]
      rfl
  all_goals simp [ModAction.takesPid, ModAction.dropsPid, ModPlace.heldPid]

/-- A statement drops only what its call holds. -/
theorem ModCall.Goes.held_of_dropsTask {place place' : ModPlace Task Pid}
    (h : c.Goes tasks sh place a place') {t : Task} (ht : a.dropsTask = some t) :
    place.heldTask = some t := by
  cases h <;> first | exact ht | cases ht

theorem ModCall.Goes.held_of_dropsPid {place place' : ModPlace Task Pid}
    (h : c.Goes tasks sh place a place') {p : Pid} (hp : a.dropsPid = some p) :
    place.heldPid = some p := by
  cases h <;> first | exact hp | cases hp

end Goes

end Anticheat
