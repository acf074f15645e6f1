import Anticheat.Kernel.ModuleCalls

/-!
# Loading and unloading the module

`ac_init` creates the work queue, registers the probes it can and then the device; if the
device cannot be registered it takes all of that back.  `ac_exit` runs when nobody holds a
reference to the module any more: it takes back the device and the probes, empties the
registry and destroys the queue.  Meanwhile the handlers of registered probes run, files of
the device are opened, used and released, the worker delivers kills, and the kernel creates
and releases tasks.

Taking back a probe waits for its running handlers, and destroying the queue waits for the
work on it; each of these is two steps, the second of which is enabled when there is nothing
left to wait for.
-/

namespace Anticheat

open Foundation

/-- `ac_kprobes` -/
def acKprobes : List AcProbe :=
  [.ptrace .native, .ptrace .compat, .exit, .execve, .execveat]

/-- Why the module goes away: `ac_init` has failed with an error, or `ac_exit` has run. -/
inductive ModEnding where
  | failed (ret : Errno)
  | unloaded
deriving DecidableEq, Repr

/-- The statement of `ac_init` or `ac_exit` that comes next. -/
inductive LoadStage where
  | createWorkqueue
  | registerKprobe (i : Nat)
  | registerKretprobe
  | miscRegister
  | live
  | miscDeregister
  | unregisterKprobe (why : ModEnding) (i : Nat)
  | synchronizeKprobe (why : ModEnding) (i : Nat)
  | unregisterKretprobe (why : ModEnding)
  | synchronizeKretprobe (why : ModEnding)
  | clearProtected
  | destroyWorkqueue (why : ModEnding)
  | drainWorkqueue (why : ModEnding)
  | gone (why : ModEnding)
deriving DecidableEq, Repr

/-- Where an ending goes on when the probes are gone. -/
def ModEnding.afterProbes : ModEnding → LoadStage
  | .failed ret => .destroyWorkqueue (.failed ret)
  | .unloaded => .clearProtected

/-- Where a handler starts; `ret` is the value that `kernel_clone` returns. -/
def AcProbe.entry {Task Pid : Type} (ret : BitVec 64) : AcProbe → ModPlace Task Pid
  | .ptrace _ => .ptracePre
  | .exit => .exitPre
  | .execve => .execPre
  | .execveat => .execPre
  | .clone => .cloneRet ret

def LoadStage.isGone : LoadStage → Bool
  | .gone _ => true
  | _ => false

def ModPlace.isReturned {Task Pid : Type} : ModPlace Task Pid → Bool
  | .returned _ => true
  | _ => false

/-- The module and the kernel around it: the flags of `ac_kp_ok` and `ac_kp_clone_ok`, the
probes that are really registered, whether the device is, and which files are open. -/
structure ModuleSystem (Task Pid : Type) where
  stage : LoadStage
  kpOk : AcProbe → Bool
  armed : AcProbe → Bool
  device : Bool
  files : List Bool
  calls : List (ModCall Task Pid)
  tasks : TaskTable Task Pid
  shared : ModShared Task Pid

/-- What can happen.  `fails` is the error of the loader's statement, if it fails. -/
inductive ModuleStep (Task Pid : Type) where
  | loader (fails : Option Errno)
  | unload
  | openFile (capable : Bool)
  | release (f : Nat)
  | ioctl (f : Nat) (cur : Task) (cmd : ModCommand)
  | hit (p : AcProbe) (cur : Task) (args : PtRegs) (ret : BitVec 64)
  | advance (i : Nat) (k : KernelAnswers Task Pid)
  | work (r : Nat)
  | fork (t : Task) (p : Pid) (process : Nat)
  | releaseTask (t : Task)
  | deThread (leader t : Task)

namespace ModuleSystem

variable {Task Pid : Type}

/-- The state at module load, with some tasks already there. -/
def initial (tasks : TaskTable Task Pid) : ModuleSystem Task Pid where
  stage := .createWorkqueue
  kpOk _ := false
  armed _ := false
  device := false
  files := []
  calls := []
  tasks := tasks
  shared :=
    { reg := Registry.empty Task
      pidRefs := fun _ => 0
      emits := []
      queue := .absent
      requests := []
      sent := []
      pins := PinState.initial
      faulted := false }

/-- The references to the module: one for each open file, and those of LOCK. -/
def refcount (s : ModuleSystem Task Pid) : Int :=
  s.files.count true + s.shared.pins.taken - s.shared.pins.released

def fault (s : ModuleSystem Task Pid) : ModuleSystem Task Pid :=
  { s with shared := s.shared.fault }

/-- No handler of the probe is running. -/
def quiet (s : ModuleSystem Task Pid) (p : AcProbe) : Bool :=
  s.calls.all fun c => c.site != .probe p || c.place.isReturned

/-- No call on the file is running. -/
def unused (s : ModuleSystem Task Pid) (f : Nat) : Bool :=
  s.calls.all fun c => c.site != .file f || c.place.isReturned

/-- `register_kprobe` and the flag that says how it went. -/
def register (s : ModuleSystem Task Pid) (p : AcProbe) (ok : Bool) : ModuleSystem Task Pid :=
  if s.armed p then s.fault
  else { s with armed := Function.update s.armed p ok, kpOk := Function.update s.kpOk p ok }

/-- `unregister_kprobe`, which must not be given a probe that is not registered. -/
def unregister (s : ModuleSystem Task Pid) (p : AcProbe) : ModuleSystem Task Pid :=
  if s.armed p then { s with armed := Function.update s.armed p false } else s.fault

/-- A request that the queue has to wait for. -/
def pendingWork [DecidableEq Task] (q : AcKillReq Task Pid) : Bool :=
  q.place ≠ .fresh ∧ q.place ≠ .freed

variable [DecidableEq Task]

/-- The next statement of `ac_init` or `ac_exit`. -/
def load (s : ModuleSystem Task Pid) (fails : Option Errno) : Option (ModuleSystem Task Pid) :=
  match s.stage with
  | .createWorkqueue =>
      match fails with
      | some _ => some { s with stage := .gone (.failed .ENOMEM) }
      | none =>
          some { s with stage := .registerKprobe 0, shared := { s.shared with queue := .live } }
  | .registerKprobe i =>
      match acKprobes[i]? with
      | some p => some { s.register p fails.isNone with stage := .registerKprobe (i + 1) }
      | none => some { s with stage := .registerKretprobe }
  | .registerKretprobe =>
      match fails with
      | none => some { s.register .clone true with stage := .miscRegister }
      | some _ => some { s with stage := .miscRegister }
  | .miscRegister =>
      match fails with
      | none => some { s with stage := .live, device := true }
      | some ret => some { s with stage := .unregisterKprobe (.failed ret) 0 }
  | .live => none
  | .miscDeregister =>
      some { s with stage := .unregisterKprobe .unloaded 0, device := false }
  | .unregisterKprobe why i =>
      match acKprobes[i]? with
      | some p =>
          if s.kpOk p then some { s.unregister p with stage := .synchronizeKprobe why i }
          else some { s with stage := .unregisterKprobe why (i + 1) }
      | none =>
          -- memset(ac_kp_ok, 0, sizeof(ac_kp_ok)); the flag of the kretprobe is another one
          some { s with
            stage := .unregisterKretprobe why
            kpOk := fun p => p = .clone && s.kpOk p }
  | .synchronizeKprobe why i =>
      match acKprobes[i]? with
      | some p => if s.quiet p then some { s with stage := .unregisterKprobe why (i + 1) } else none
      | none => none
  | .unregisterKretprobe why =>
      if s.kpOk .clone then some { s.unregister .clone with stage := .synchronizeKretprobe why }
      else some { s with stage := why.afterProbes }
  | .synchronizeKretprobe why =>
      if s.quiet .clone then
        some { s with
          stage := why.afterProbes
          kpOk := Function.update s.kpOk .clone false }
      else none
  | .clearProtected =>
      some { s with
        stage := .destroyWorkqueue .unloaded
        shared := { s.shared with reg := acClearProtected s.shared.reg } }
  | .destroyWorkqueue why =>
      if s.shared.queue = .live then
        some { s with
          stage := .drainWorkqueue why
          shared := { s.shared with queue := .draining } }
      else some { s.fault with stage := .drainWorkqueue why }
  | .drainWorkqueue why =>
      if s.shared.requests.all fun q => !pendingWork q then
        some { s with stage := .gone why, shared := { s.shared with queue := .absent } }
      else none
  | .gone _ => none

variable [DecidableEq Pid]

/-- The call `i` executes its next statement. -/
def advance (s : ModuleSystem Task Pid) (i : Nat) (k : KernelAnswers Task Pid) :
    Option (ModuleSystem Task Pid) :=
  match s.calls[i]? with
  | none => none
  | some c =>
      match c.plan s.tasks k (s.stage = .live) s.shared with
      | none => none
      | some (a, c') =>
          let s' := { s with
            calls := s.calls.set i c'
            shared := a.run i (s.shared.use c.place.usedTask c.place.usedPid) }
          -- the code of a module that is gone has been freed
          some (if s.stage.isGone then s'.fault else s')

/-- The worker executes the next statement for the request `r`. -/
def work (s : ModuleSystem Task Pid) (r : Nat) : Option (ModuleSystem Task Pid) :=
  match s.shared.requests[r]? with
  | none => none
  | some q =>
      match q.plan s.tasks r with
      | none => none
      | some (a, place) =>
          let sh := a.run q.call (s.shared.use q.usedTask q.usedPid)
          let s' := { s with
            shared := { sh with requests := sh.requests.set r { q with place := place } } }
          some (if s.stage.isGone then s'.fault else s')

/-- One step. -/
def step (s : ModuleSystem Task Pid) : ModuleStep Task Pid → Option (ModuleSystem Task Pid)
  | .loader fails => s.load fails
  | .unload =>
      if s.stage = .live ∧ s.refcount = 0 then some { s with stage := .miscDeregister } else none
  | .openFile capable =>
      -- a module that is going away gives out no references
      if s.stage = .live then some { s with files := s.files ++ [capable] } else none
  | .release f =>
      if s.files[f]? = some true ∧ s.unused f then
        let s' := { s with files := s.files.set f false }
        -- the release of a file is code of the module as well
        some (if s.stage.isGone then s'.fault else s')
      else none
  | .ioctl f cur cmd =>
      if s.files[f]? = some true ∧ (s.tasks.home cur).isSome then
        some { s with calls := s.calls ++
          [{ site := .file f, cur := cur, args := fun _ => 0, place := .ioctl cmd
             process := s.tasks.process cur }] }
      else none
  | .hit p cur args ret =>
      if s.armed p ∧ (s.tasks.home cur).isSome then
        some { s with calls := s.calls ++
          [{ site := .probe p, cur := cur, args := args, place := p.entry ret
             process := s.tasks.process cur }] }
      else none
  | .advance i k => s.advance i k
  | .work r => s.work r
  | .fork t p process =>
      -- a structure is reused when nobody holds a reference to it
      if s.tasks.home t = none ∧ s.tasks.attached p = none ∧
          s.shared.reg.refs t ≤ 0 ∧ s.shared.pidRefs p ≤ 0 then
        some { s with tasks :=
          { attached := Function.update s.tasks.attached p (some t)
            home := Function.update s.tasks.home t (some p)
            process := Function.update s.tasks.process t process } }
      else none
  | .releaseTask t =>
      match s.tasks.home t with
      | none => none
      | some p =>
          if s.calls.all fun c => c.cur ≠ t || c.place.isReturned then
            some { s with tasks := { s.tasks with
              attached := Function.update s.tasks.attached p none
              home := Function.update s.tasks.home t none } }
          else none
  | .deThread leader t =>
      -- a thread that calls execve takes over the pid of its leader
      match s.tasks.home leader, s.tasks.home t with
      | some p, some q =>
          if s.tasks.process leader = s.tasks.process t then
            some { s with tasks := { s.tasks with
              attached := Function.update (Function.update s.tasks.attached p (some t)) q
                (some leader)
              home := Function.update (Function.update s.tasks.home leader (some q)) t
                (some p) } }
          else none
      | _, _ => none

end ModuleSystem

end Anticheat
