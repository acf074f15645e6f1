import Anticheat.Foundation.Lists
import Anticheat.Daemon.Baseline
import Anticheat.Daemon.EnvWarnings

/-!
# The monitoring loop and its reports

`cmd_start` drains the kernel's events once a second and runs eight checks, each at its
own interval.  Everything is logged through `logmsg`, which passes messages at
`LOG_CRIT` and above on to the server as reports.  Heuristics log below that level.

A run of the loop is a list of iterations, each with everything that it reads.  Two
runs carry the same evidence if they differ only in what heuristics look at.  Then they
report the same, with one exception: the count of executable areas without a file is
kept as the reference for the next scan also while a process is marked as generating
code, so that the reference of a process whose mark was taken away comes from a count
that should not matter.

Main results:

- Theorem {lit}`monitor_reports`: the reports of a run in terms of the passes so far.
- Theorem {lit}`reportsFrom_eq`: runs with the same evidence report the same if no
  reference comes from a marked process.
- Theorem {lit}`heuristics_never_reported_iff`: and only then.
-/

namespace Anticheat

open Foundation

/-! ## Logging -/

/-- The syslog levels that the daemon uses. -/
inductive SyslogLevel where
  | alert
  | crit
  | warning
  | info
deriving DecidableEq, Repr

/-- `LOG_ALERT`, `LOG_CRIT`, `LOG_WARNING` and `LOG_INFO`; a lower number is more
severe. -/
def SyslogLevel.code : SyslogLevel → Nat
  | alert => 1
  | crit => 2
  | warning => 4
  | info => 6

/-- A call of `logmsg` with the formatted text. -/
structure LogCall where
  pri : SyslogLevel
  text : CStr
deriving DecidableEq

/-- A call of `ac_report`. -/
structure AcReport where
  eventType : CStr
  detail : CStr
deriving DecidableEq

/-- What `logmsg` reports. -/
def logmsg (c : LogCall) : Option AcReport :=
  if c.pri.code ≤ SyslogLevel.crit.code then
    some
      { eventType :=
          if c.pri.code ≤ SyslogLevel.alert.code then CStr.ascii "ALERT"
          else CStr.ascii "CRITICAL"
        detail := c.text }
  else none

def LogPriority.level : LogPriority → SyslogLevel
  | crit => .crit
  | warning => .warning

def WatchMsg.call (m : WatchMsg) : LogCall := ⟨m.priority.level, m.text⟩

def BaselineMsg.call (m : BaselineMsg) : LogCall := ⟨m.priority.level, m.text⟩

def LayerMsg.call (m : LayerMsg) : LogCall := ⟨m.priority.level, m.text⟩

def EnvMsg.call (m : EnvMsg) : LogCall := ⟨m.priority.level, m.text⟩

/-! ## Events and the two global checks -/

/-- `ev_type_str` -/
def evTypeStr (t : UInt32) : CStr :=
  if t = AcEventType.fork.code then CStr.ascii "FORK"
  else if t = AcEventType.exec.code then CStr.ascii "EXEC"
  else if t = AcEventType.exit.code then CStr.ascii "EXIT"
  else if t = AcEventType.ptrace.code then CStr.ascii "PTRACE-DENIED"
  else if t = AcEventType.syscallHook.code then CStr.ascii "SYSCALL-HOOK"
  else if t = AcEventType.rwx.code then CStr.ascii "RWX"
  else if t = AcEventType.anonExec.code then CStr.ascii "ANON-EXEC"
  else if t = AcEventType.info.code then CStr.ascii "INFO"
  else CStr.ascii "UNKNOWN"

/-- The text for an event of a process. -/
def eventText (e : AcEvent) : CStr :=
  CStr.bounded 512 (evTypeStr e.type ++ CStr.ascii " pid=" ++ CStr.decimal e.pid ++
    CStr.ascii " comm=" ++ e.comm ++ CStr.ascii " " ++ e.data)

/-- What the loop logs about one event. -/
def eventCall (e : AcEvent) : LogCall :=
  if e.type = AcEventType.ptrace.code then ⟨.alert, eventText e⟩
  else if e.type = AcEventType.syscallHook.code then
    ⟨.crit, CStr.bounded 512 (evTypeStr e.type ++ CStr.ascii " " ++ e.data)⟩
  else ⟨.info, eventText e⟩

/-- `check_syscalls_periodic`, given the answer of CHECK_SYSCALLS. -/
def checkSyscallsPeriodic : Option AcSyscallCheck → List LogCall
  | none => []
  | some c =>
      if c.hooked ≠ 0 then
        [⟨.crit, CStr.bounded 512 (CStr.ascii "SYSCALL TABLE COMPROMISED: " ++
          CStr.decimal c.hooked ++ CStr.ascii " hooked entries (table @ " ++
          CStr.altHex c.tableAddr.toNat ++ CStr.ascii ")")⟩]
      else []

/-- `check_modules_periodic`, given the result of `crosscheck_modules`. -/
def checkModulesPeriodic (hidden : Int) : List LogCall :=
  if hidden > 0 then
    [⟨.crit, CStr.bounded 512 (CStr.decimal hidden ++
      CStr.ascii " module(s) hidden from /proc/modules")⟩]
  else []

/-! ## Baselines and rendering functions -/

/-- A comparison of `check_baselines_periodic`: a mapping, the digest in its baseline
file, and the digest of its memory. -/
structure BaselineCompare where
  path : CStr
  saved : CStr
  current : CStr
deriving DecidableEq

/-- What the comparisons for one process log. -/
def baselineMsgs (item : AcProtItem) (compares : List BaselineCompare) : List BaselineMsg :=
  compares.flatMap fun c =>
    if c.saved != c.current then [⟨item.pid, item.comm, c.path⟩] else []

/-- The comparison that `check_baselines_periodic` makes for one mapping. -/
def checkCompare (var : Option CStr) (files : BaselineFiles) (r : ScanRun) (p : Process)
    (v : Nat) (vi : AcVmaInfo) (fd : MemFd) : Option BaselineCompare := do
  if !vi.isExec || !vi.isFile then none
  let text ← r.openBaseline files v (baselinePathFor var vi.path)
  let line ← CStr.fgets 512 text
  let bhex ← sscanfBaseline line
  if fd.ensure r.memOpen != .opened then none
  let hex ← r.hashVma p v vi
  return ⟨vi.path, bhex, hex⟩

/-- The comparisons that `check_baselines_periodic` makes for one process. -/
def itemCompares (var : Option CStr) (files : BaselineFiles) (item : AcProtItem) (r : ScanRun)
    (p : Process) (priv : Option AcFdState) : List BaselineCompare :=
  match acIoctlSnap true (.scanBegin r.fdAlloc (r.scanEnv p) item.pid false) priv with
  | (.ok (.scanBegun b), priv) =>
      (scanGetLoop priv (fun v vi fd => (checkCompare var files r p v vi fd,
        (checkVma var files item r p v vi fd).2)) b.nVmas 0 .closed).1.reduceOption
  | _ => []

theorem checkVma_msgs (var : Option CStr) (files : BaselineFiles) (item : AcProtItem)
    (r : ScanRun) (p : Process) (v : Nat) (vi : AcVmaInfo) (fd : MemFd) :
    (checkVma var files item r p v vi fd).1 =
      baselineMsgs item (checkCompare var files r p v vi fd).toList := by
  unfold checkVma checkCompare
  by_cases hskip : (!vi.isExec || !vi.isFile) = true
  · simp [hskip, baselineMsgs]
  · cases hopen : r.openBaseline files v (baselinePathFor var vi.path) with
    | none => simp [hskip, baselineMsgs]
    | some text =>
        cases hline : CStr.fgets 512 text with
        | none => simp [hskip, hline, baselineMsgs]
        | some line =>
            cases hscan : sscanfBaseline line with
            | none => simp [hskip, hline, hscan, baselineMsgs]
            | some bhex =>
                cases hfd : fd.ensure r.memOpen with
                | opened =>
                    cases hhash : r.hashVma p v vi with
                    | none => simp [hskip, hline, hscan, baselineMsgs]
                    | some hex => simp [hskip, hline, hscan, baselineMsgs]
                | closed => simp [hskip, hline, hscan, baselineMsgs]
                | failed => simp [hskip, hline, hscan, baselineMsgs]

theorem scanGetLoop_map {σ β γ : Type} {f : Nat → AcVmaInfo → σ → β × σ}
    {g : Nat → AcVmaInfo → σ → γ × σ} {F : γ → β}
    (hfg : ∀ v vi s, f v vi s = (F (g v vi s).1, (g v vi s).2)) (priv : Option AcFdState)
    (m v : Nat) (s : σ) :
    (scanGetLoop priv f m v s).1 = (scanGetLoop priv g m v s).1.map F := by
  induction m generalizing v s with
  | zero => rfl
  | succ m ih =>
      rw [scanGetLoop, scanGetLoop]
      split
      · simp only [List.map_cons, hfg, ih]
      · rfl

/-- What the check of a process logs are its comparisons that differ. -/
theorem checkItem_msgs (var : Option CStr) (files : BaselineFiles) (item : AcProtItem)
    (r : ScanRun) (p : Process) (priv : Option AcFdState) :
    (checkItem var files item r p priv).1.flatten =
      baselineMsgs item (itemCompares var files item r p priv) := by
  unfold checkItem itemCompares
  rcases acIoctlSnap true (.scanBegin r.fdAlloc (r.scanEnv p) item.pid false) priv with
    ⟨_ | reply, priv'⟩
  · rfl
  · cases reply with
    | scanBegun b =>
        have hloop := scanGetLoop_map (f := checkVma var files item r p)
          (g := fun v vi fd => (checkCompare var files r p v vi fd,
            (checkVma var files item r p v vi fd).2))
          (F := fun c => baselineMsgs item c.toList)
          (fun v vi fd => Prod.ext (checkVma_msgs var files item r p v vi fd) rfl)
          priv' b.nVmas 0 .closed
        have hsome (l : List (Option BaselineCompare)) :
            l.reduceOption = l.flatMap Option.toList :=
          List.filterMap_eq_flatMap_toList id l
        simp only [baselineMsgs]
        rw [hloop, hsome, List.flatMap_assoc, ← List.flatMap_def]
        rfl
    | done => rfl
    | vma vi => rfl
    | modsBegun n => rfl
    | mod m => rfl

/-- The message about a hooked rendering function, at `LOG_CRIT`. -/
structure RenderMsg where
  pid : Int
  comm : CStr
  libpath : CStr
  symbol : CStr
deriving DecidableEq

def RenderMsg.call (m : RenderMsg) : LogCall :=
  ⟨.crit, CStr.bounded 512 (CStr.ascii "pid " ++ CStr.decimal m.pid ++ CStr.ascii " (" ++
    m.comm ++ CStr.ascii "): render hook detected in " ++ m.libpath ++ CStr.ascii " (" ++
    m.symbol ++ CStr.ascii " differs from a freshly-loaded reference copy -- " ++
    CStr.ascii "possible ESP/overlay/render hijack)")⟩

/-- What the statuses of one process log. -/
def renderMsgs (item : AcProtItem) (statuses : List (RenderStatus × CStr)) : List RenderMsg :=
  (acRenderApis.zip statuses).flatMap fun x =>
    if x.2.1 = .compared .hooked then [⟨item.pid, item.comm, x.2.2, x.1.symbol⟩] else []

/-! ## The loop -/

/-- The seconds between two runs of a check; the system call table is checked every 5
seconds and the modules every 10. -/
structure Intervals where
  scan : Int
  baseline : Int
  render : Int
  preload : Int
  vklayer : Int
  implicit : Int

/-- When each check is due next. -/
structure NextTimes where
  sys : Int := 0
  mod : Int := 0
  scan : Int := 0
  baseline : Int := 0
  render : Int := 0
  preload : Int := 0
  vklayer : Int := 0
  implicit : Int := 0
deriving DecidableEq

/-- A check that is due is due again after its interval. -/
def reschedule (now next period : Int) : Int :=
  if now ≥ next then now + period else next

def NextTimes.advance (iv : Intervals) (now : Int) (n : NextTimes) : NextTimes where
  sys := reschedule now n.sys 5
  mod := reschedule now n.mod 10
  scan := reschedule now n.scan iv.scan
  baseline := reschedule now n.baseline iv.baseline
  render := reschedule now n.render iv.render
  preload := reschedule now n.preload iv.preload
  vklayer := reschedule now n.vklayer iv.vklayer
  implicit := reschedule now n.implicit iv.implicit

/-- What one iteration reads: the clock, the answer of GET_EVENTS, the results of the
two global checks, and for each other check the listing with the result for each
process, `none` if LIST_PROTECTED fails. -/
structure Tick where
  now : Int
  events : Option AcEventList
  syscalls : Option AcSyscallCheck
  hidden : Int
  scan : Option (ListedPass (Option AcScanBegin))
  baseline : Option (ListedPass (List BaselineCompare))
  render : Option (ListedPass (List (RenderStatus × CStr)))
  preload : Option (ListedPass EnvironIo)
  vklayer : Option (ListedPass EnvironIo)
  implicit : Option (ListedPass (Option (List AcImplicitLayer)))

/-- The events that an iteration drains. -/
def Tick.drained (x : Tick) : List AcEvent :=
  (x.events.map AcEventList.reported).getD []

/-- The state of the loop: the times, and the tables of the checks. -/
structure MonitorState where
  next : NextTimes
  anonBaseline : AnonTable
  preloadWarned : WarnedTable
  vklayerWarned : WarnedTable
  implicitLayerBaseline : AnonTable

def MonitorState.initial : MonitorState where
  next := {}
  anonBaseline := SlotTable.replicate acMaxProts {}
  preloadWarned := SlotTable.replicate acMaxProts {}
  vklayerWarned := SlotTable.replicate acMaxProts {}
  implicitLayerBaseline := SlotTable.replicate acMaxProts {}

/-- A check with a table, if it is due and the listing succeeds. -/
def periodically {R μ T : Type} (due : Bool) (pass : ListedPass R → T → List μ × T)
    (p : Option (ListedPass R)) (t : T) : List μ × T :=
  match due, p with
  | true, some p => pass p t
  | _, _ => ([], t)

/-- What a check without a table logs, if it is due and the listing succeeds. -/
def listedCalls {R : Type} (due : Bool) (calls : AcProtItem → R → List LogCall)
    (p : Option (ListedPass R)) : List LogCall :=
  match due, p with
  | true, some p => p.items.flatMap fun x => calls x.1 x.2
  | _, _ => []

/-- The body of the loop of `cmd_start`. -/
def monitorTick (iv : Intervals) (x : Tick) (s : MonitorState) : List LogCall × MonitorState :=
  let events := x.drained.map eventCall
  let sys := if x.now ≥ s.next.sys then checkSyscallsPeriodic x.syscalls else []
  let mods := if x.now ≥ s.next.mod then checkModulesPeriodic x.hidden else []
  let scan := periodically (x.now ≥ s.next.scan) (fun p => scanListed p.list p.result)
    x.scan s.anonBaseline
  let base := listedCalls (x.now ≥ s.next.baseline)
    (fun item r => (baselineMsgs item r).map BaselineMsg.call) x.baseline
  let render := listedCalls (x.now ≥ s.next.render)
    (fun item r => (renderMsgs item r).map RenderMsg.call) x.render
  let preload := periodically (x.now ≥ s.next.preload) preloadPass x.preload s.preloadWarned
  let vklayer := periodically (x.now ≥ s.next.vklayer) vkLayerPass x.vklayer s.vklayerWarned
  let implicit := periodically (x.now ≥ s.next.implicit)
    (fun p => checkImplicitLayersPeriodic p.list p.result) x.implicit s.implicitLayerBaseline
  (events ++ sys ++ mods ++ scan.1.map WatchMsg.call ++ base ++ render ++
      preload.1.map EnvMsg.call ++ vklayer.1.map EnvMsg.call ++ implicit.1.map LayerMsg.call,
    { next := s.next.advance iv x.now
      anonBaseline := scan.2
      preloadWarned := preload.2
      vklayerWarned := vklayer.2
      implicitLayerBaseline := implicit.2 })

/-- What `cmd_start` finds before the loop: the outcome of protecting itself, with the
text of the error, and the signs of a hypervisor. -/
structure Startup where
  foreground : Bool
  selfPid : Int
  selfProtect : Except CStr Unit
  cpuid : Option CStr
  dmi : Option CStr

/-- What `cmd_start` logs before the loop. -/
def Startup.calls (s : Startup) : List LogCall :=
  [⟨.info, CStr.bounded 512 (CStr.ascii "anticheat daemon started (foreground=" ++
      CStr.decimal (if s.foreground then 1 else 0) ++ CStr.ascii ")")⟩,
    match s.selfProtect with
    | .error e => ⟨.warning, CStr.bounded 512 (CStr.ascii "failed to self-protect (pid " ++
        CStr.decimal s.selfPid ++ CStr.ascii "): " ++ e)⟩
    | .ok _ => ⟨.info, CStr.bounded 512 (CStr.ascii "self-protected (pid " ++
        CStr.decimal s.selfPid ++ CStr.ascii ")")⟩,
    match s.cpuid, s.dmi with
    | some vendor, some desc => ⟨.warning, CStr.bounded 512 (CStr.ascii
        "running inside a virtual machine (CPUID vendor id: " ++ vendor ++ CStr.ascii "; " ++
        desc ++ CStr.ascii ") -- informational, not a verdict")⟩
    | some vendor, none => ⟨.warning, CStr.bounded 512 (CStr.ascii
        "running inside a virtual machine (CPUID vendor id: " ++ vendor ++
        CStr.ascii ") -- informational, not a verdict")⟩
    | none, some desc => ⟨.warning, CStr.bounded 512 (CStr.ascii
        "running inside a virtual machine (" ++ desc ++
        CStr.ascii ") -- informational, not a verdict")⟩
    | none, none => ⟨.info, CStr.ascii "no hypervisor detected (CPUID/DMI checks)"⟩]

/-- A run of `cmd_start`. -/
structure MonitorRun where
  startup : Startup
  ticks : List Tick

/-- Everything that a run logs. -/
def MonitorRun.calls (iv : Intervals) (r : MonitorRun) : List LogCall :=
  r.startup.calls ++ (collect (monitorTick iv) r.ticks .initial).1 ++
    [⟨.info, CStr.ascii "anticheat daemon stopped"⟩]

/-- The calls of `ac_report` in a run. -/
def MonitorRun.reports (iv : Intervals) (r : MonitorRun) : List AcReport :=
  (r.calls iv).filterMap logmsg

/-! ## The same evidence -/

/-- The event is of a type that is reported. -/
def AcEvent.isSecurity (e : AcEvent) : Bool :=
  e.type == AcEventType.ptrace.code || e.type == AcEventType.syscallHook.code

/-- The same process with the same mark, scanned with the same success and, unless it is
marked, with the same count. -/
structure SameScan (x y : AcProtItem × Option AcScanBegin) : Prop where
  item : x.1 = y.1
  success : x.2.isSome = y.2.isSome
  count : x.1.jitAllowed = false → x.2.map AcScanBegin.anonExecCount =
    y.2.map AcScanBegin.anonExecCount

/-- The same listing, or none in both cases. -/
def SameListing {R : Type} (p q : Option (ListedPass R)) : Prop :=
  p.map (fun p => p.list.reported) = q.map fun q => q.list.reported

/-- The same listing with the same results. -/
def SameResults {R : Type} (p q : Option (ListedPass R)) : Prop :=
  p.map ListedPass.items = q.map ListedPass.items

/-- Two iterations that differ only in what heuristics look at. -/
structure SameEvidence (x y : Tick) : Prop where
  now : x.now = y.now
  events : x.drained.filter AcEvent.isSecurity = y.drained.filter AcEvent.isSecurity
  syscalls : x.syscalls = y.syscalls
  hidden : x.hidden = y.hidden
  scan : Option.Rel (fun p q => List.Forall₂ SameScan p.items q.items) x.scan y.scan
  baseline : SameResults x.baseline y.baseline
  render : SameResults x.render y.render
  preload : SameListing x.preload y.preload
  vklayer : SameListing x.vklayer y.vklayer
  implicit : SameListing x.implicit y.implicit

/-- Whatever the heuristics meet, the run reports the same. -/
def ReportsIndependent (iv : Intervals) (r : MonitorRun) : Prop :=
  ∀ r' : MonitorRun, List.Forall₂ SameEvidence r.ticks r'.ticks → r'.reports iv = r.reports iv

/-! ## When a reference comes from a marked process -/

/-- The scans that a run makes, from a point on at which the next one is due at
`next`. -/
def scansFrom (iv : Intervals) : Int → List Tick → List (ListedPass (Option AcScanBegin))
  | _, [] => []
  | next, x :: rest =>
      (if x.now ≥ next then x.scan.toList else []) ++
        scansFrom iv (reschedule x.now next iv.scan) rest

/-- The pid is scanned with success while it is marked. -/
def JitScanned (pid : Int) (p : ListedPass (Option AcScanBegin)) : Prop :=
  ∃ x ∈ p.items, x.1.pid = pid ∧ x.1.jitAllowed = true ∧ x.2.isSome = true

/-- The pid is listed and its scan fails. -/
def ScanFails (pid : Int) (p : ListedPass (Option AcScanBegin)) : Prop :=
  ∃ x ∈ p.items, x.1.pid = pid ∧ x.2 = none

/-- The last successful scan of the pid, since which it has stayed listed, was made
while it was marked. -/
def JitReference (before : List (ListedPass (Option AcScanBegin))) (pid : Int) : Prop :=
  Since (JitScanned pid) (ScanFails pid) before

/-- No process that is not marked and has executable areas without a file is compared
with a count from the time when it was marked. -/
def NoJitReference (before : List (ListedPass (Option AcScanBegin)))
    (p : ListedPass (Option AcScanBegin)) : Prop :=
  ∀ x ∈ p.items, x.1.jitAllowed = false → ∀ b, x.2 = some b → 0 < b.anonExecCount →
    ¬JitReference before x.1.pid

/-! ## The reports of a run -/

theorem logmsg_eq_none {c : LogCall} (h : SyslogLevel.crit.code < c.pri.code) :
    logmsg c = none := by
  rw [logmsg, if_neg (Nat.not_le.2 h)]

/-- Messages below `LOG_CRIT` are not reported. -/
theorem filterMap_logmsg_eq_nil {μ : Type} {call : μ → LogCall}
    (h : ∀ m, SyslogLevel.crit.code < (call m).pri.code) (l : List μ) :
    (l.map call).filterMap logmsg = [] := by
  rw [List.filterMap_map, List.filterMap_eq_nil_iff]
  intro m _
  exact logmsg_eq_none (h m)

theorem EnvMsg.call_quiet (m : EnvMsg) : SyslogLevel.crit.code < m.call.pri.code :=
  (by decide : SyslogLevel.crit.code < SyslogLevel.warning.code)

theorem LayerMsg.call_quiet (m : LayerMsg) : SyslogLevel.crit.code < m.call.pri.code :=
  (by decide : SyslogLevel.crit.code < SyslogLevel.warning.code)

theorem Startup.filterMap_calls (s : Startup) : s.calls.filterMap logmsg = [] := by
  rcases s with ⟨foreground, pid, self, cpuid, dmi⟩
  cases self <;> cases cpuid <;> cases dmi <;> rfl

/-- What is reported about one scan, given the count of the scan before. -/
def itemReports (was : Option Nat) (x : AcProtItem × Option AcScanBegin) : List AcReport :=
  ((scanCheck.table.emits x was).map WatchMsg.call).filterMap logmsg

/-- What a scan of all processes reports after some passes. -/
def passReports (before : List (ListedPass (Option AcScanBegin)))
    (p : ListedPass (Option AcScanBegin)) : List AcReport :=
  p.items.flatMap fun x => itemReports (scanCheck.table.remembered before x.1.pid) x

/-- The scan that an iteration makes. -/
def Tick.dueScan (x : Tick) (next : Int) : Option (ListedPass (Option AcScanBegin)) :=
  if x.now ≥ next then x.scan else none

/-- What an iteration reports before the scan. -/
def Tick.headReports (x : Tick) (n : NextTimes) : List AcReport :=
  (x.drained.map eventCall).filterMap logmsg ++
    (if x.now ≥ n.sys then checkSyscallsPeriodic x.syscalls else []).filterMap logmsg ++
    (if x.now ≥ n.mod then checkModulesPeriodic x.hidden else []).filterMap logmsg

/-- What an iteration reports after the scan. -/
def Tick.tailReports (x : Tick) (n : NextTimes) : List AcReport :=
  (listedCalls (x.now ≥ n.baseline)
      (fun item r => (baselineMsgs item r).map BaselineMsg.call) x.baseline).filterMap logmsg ++
    (listedCalls (x.now ≥ n.render)
      (fun item r => (renderMsgs item r).map RenderMsg.call) x.render).filterMap logmsg

/-- What a run reports from a point on, given the times and the scans so far. -/
def reportsFrom (iv : Intervals) :
    NextTimes → List (ListedPass (Option AcScanBegin)) → List Tick → List AcReport
  | _, _, [] => []
  | n, before, x :: rest =>
      x.headReports n ++ (x.dueScan n.scan).toList.flatMap (passReports before) ++
        x.tailReports n ++
        reportsFrom iv (n.advance iv x.now) (before ++ (x.dueScan n.scan).toList) rest

/-- The messages of a due scan are those of the table after the passes so far. -/
theorem periodically_scan (before : List (ListedPass (Option AcScanBegin))) (x : Tick)
    (next : Int) :
    let out := periodically (x.now ≥ next) (fun p => scanListed p.list p.result) x.scan
      (scanCheck.tableAfter before)
    (out.1.map WatchMsg.call).filterMap logmsg =
        (x.dueScan next).toList.flatMap (passReports before) ∧
      out.2 = scanCheck.tableAfter (before ++ (x.dueScan next).toList) := by
  unfold Tick.dueScan
  by_cases hdue : x.now ≥ next
  · cases hscan : x.scan with
    | none => simp [hdue, periodically]
    | some p =>
        have hmsgs : (scanCheck.pass p (scanCheck.tableAfter before)).1 = _ :=
          scanCheck.table.pass_messages before p
        simp only [hdue, decide_true, periodically, scanListed_eq, if_true, Option.toList_some,
          List.flatMap_cons, List.flatMap_nil, List.append_nil]
        constructor
        · rw [hmsgs, List.map_flatMap, List.filterMap_flatMap]
          rfl
        · simp [GrowthCheck.tableAfter]
  · simp [hdue, periodically]

/-- The reports of the loop in terms of the scans so far. -/
theorem monitor_reports (iv : Intervals) (ticks : List Tick) {s : MonitorState}
    {before : List (ListedPass (Option AcScanBegin))}
    (h : s.anonBaseline = scanCheck.tableAfter before) :
    (collect (monitorTick iv) ticks s).1.filterMap logmsg =
      reportsFrom iv s.next before ticks := by
  induction ticks generalizing s before with
  | nil => rfl
  | cons x rest ih =>
      rcases periodically_scan before x s.next.scan with ⟨hreports, htable⟩
      rw [← h] at hreports htable
      have hrest := ih (s := (monitorTick iv x s).2) htable
      simp only [collect, List.filterMap_append, hrest, reportsFrom]
      simp only [monitorTick, List.filterMap_append, hreports, Tick.headReports,
        Tick.tailReports, filterMap_logmsg_eq_nil EnvMsg.call_quiet,
        filterMap_logmsg_eq_nil LayerMsg.call_quiet, List.append_nil, List.append_assoc]

theorem MonitorRun.reports_eq (iv : Intervals) (r : MonitorRun) :
    r.reports iv = reportsFrom iv {} [] r.ticks := by
  have hinitial : MonitorState.initial.anonBaseline = scanCheck.tableAfter [] := rfl
  rw [MonitorRun.reports, MonitorRun.calls, List.filterMap_append, List.filterMap_append,
    r.startup.filterMap_calls, monitor_reports iv r.ticks hinitial]
  simp [logmsg, SyslogLevel.code, MonitorState.initial]

/-! ## Reports about one process -/

/-- The report about a growth. -/
def growthReport (item : AcProtItem) (was now : Nat) : AcReport where
  eventType := CStr.ascii "CRITICAL"
  detail := (WatchMsg.anonGrowth false item.pid item.comm was now).text

@[simp]
theorem itemReports_failed (was : Option Nat) (item : AcProtItem) :
    itemReports was (item, none) = [] :=
  rfl

theorem itemReports_scanned (was : Option Nat) (item : AcProtItem) (b : AcScanBegin) :
    itemReports was (item, some b) =
      if item.jitAllowed then []
      else
        match was with
        | some w => if b.anonExecCount > w then [growthReport item w b.anonExecCount] else []
        | none => [] := by
  have hrwx : ((scanCheck.always item b).map WatchMsg.call).filterMap logmsg = [] := by
    simp only [scanCheck]
    split
    · rfl
    · rfl
  have hemits : scanCheck.table.emits (item, some b) was =
      scanCheck.always item b ++ scanCheck.growth item b was := rfl
  rw [itemReports, hemits, List.map_append, List.filterMap_append, hrwx, List.nil_append]
  cases was with
  | none => simp [GrowthCheck.growth]
  | some w =>
      by_cases hgrew : b.anonExecCount > w
      · cases hjit : item.jitAllowed with
        | true => simp [GrowthCheck.growth, scanCheck, hgrew, hjit, WatchMsg.call,
            WatchMsg.priority, LogPriority.level, logmsg, SyslogLevel.code]
        | false => simp [GrowthCheck.growth, scanCheck, hgrew, hjit, WatchMsg.call,
            WatchMsg.priority, LogPriority.level, logmsg, SyslogLevel.code, growthReport]
      · simp [GrowthCheck.growth, scanCheck, hgrew]

/-! ## Runs with the same evidence -/

/-- The references of two runs agree, except where they come from marked processes. -/
def ReferencesAgree (before before' : List (ListedPass (Option AcScanBegin))) : Prop :=
  ∀ pid, ¬JitReference before pid →
    scanCheck.table.remembered before pid = scanCheck.table.remembered before' pid

/-- What a pass does for a pid, by the item with that pid. -/
theorem scanCheck_outcome_cases (p : ListedPass (Option AcScanBegin)) (pid : Int) :
    (scanCheck.table.outcome p pid = none ∧ ∀ x ∈ p.items, x.1.pid ≠ pid) ∨
      ∃ x ∈ p.items, x.1.pid = pid ∧
        scanCheck.table.outcome p pid = some (x.2.map AcScanBegin.anonExecCount) := by
  cases hout : scanCheck.table.outcome p pid with
  | none =>
      refine .inl ⟨rfl, ?_⟩
      intro x hx hpid
      have hmem := scanCheck.table.outcome_of_mem hx
      rw [show scanCheck.table.itemKey x = pid from hpid, hout] at hmem
      contradiction
  | some r =>
      rw [PassTable.outcome, Option.map_eq_some_iff] at hout
      rcases hout with ⟨x, hx, rfl⟩
      have hfound := List.find?_some hx
      have hpid : x.1.pid = pid := of_decide_eq_true hfound
      exact .inr ⟨x, List.mem_of_find?_eq_some hx, hpid, rfl⟩

/-- A pass with the same evidence keeps the references in agreement. -/
theorem ReferencesAgree.pass {before before' : List (ListedPass (Option AcScanBegin))}
    (h : ReferencesAgree before before') {p q : ListedPass (Option AcScanBegin)}
    (hsame : List.Forall₂ SameScan p.items q.items) :
    ReferencesAgree (before ++ [p]) (before' ++ [q]) := by
  intro pid hnot
  rw [JitReference, since_concat, not_or] at hnot
  rcases hnot with ⟨hjit, hlast⟩
  rw [PassTable.remembered_concat, PassTable.remembered_concat, PassTable.follow,
    PassTable.follow]
  rcases scanCheck_outcome_cases p pid with ⟨hnone, hother⟩ | ⟨x, hx, rfl, hout⟩
  · rcases scanCheck_outcome_cases q pid with ⟨hnone', -⟩ | ⟨y, hy, hpid, -⟩
    · rw [hnone, hnone']
    · -- the listing of the other run has the same pids
      rcases exists_of_forall₂ hsame.flip hy with ⟨x, hx, hxy⟩
      exact absurd (hxy.item ▸ hpid) (hother x hx)
  · rcases exists_of_forall₂ hsame hx with ⟨y, hy, hxy⟩
    have hout' : scanCheck.table.outcome q x.1.pid =
        some (y.2.map AcScanBegin.anonExecCount) := by
      rw [hxy.item]
      exact scanCheck.table.outcome_of_mem hy
    rw [hout, hout']
    cases hx2 : x.2 with
    | none =>
        have hy2 : y.2 = none := by
          rw [← Option.not_isSome_iff_eq_none, ← hxy.success, hx2]
          simp
        have hfails : ScanFails x.1.pid p := ⟨x, hx, rfl, hx2⟩
        rw [hy2]
        exact h x.1.pid fun href => hlast ⟨hfails, href⟩
    | some b =>
        have hmark : x.1.jitAllowed = false := by
          rw [← Bool.not_eq_true]
          intro htrue
          exact hjit ⟨x, hx, rfl, htrue, by rw [hx2]; rfl⟩
        rw [← hxy.count hmark, hx2]
        rfl

/-- A scan with the same evidence reports the same. -/
theorem passReports_eq {before before' : List (ListedPass (Option AcScanBegin))}
    (h : ReferencesAgree before before') {p q : ListedPass (Option AcScanBegin)}
    (hsame : List.Forall₂ SameScan p.items q.items) (hno : NoJitReference before p) :
    passReports before p = passReports before' q := by
  refine flatMap_eq_of_forall₂ hsame ?_
  rintro ⟨item, r⟩ hx ⟨item', r'⟩ hxy
  rcases hxy with ⟨hitem, hsuccess, hcount⟩
  cases hitem
  cases r with
  | none =>
      have hr' : r' = none := by simpa using hsuccess.symm
      rw [hr']
      rfl
  | some b =>
      rcases Option.isSome_iff_exists.1 (hsuccess.symm.trans rfl : r'.isSome = true) with
        ⟨b', rfl⟩
      rw [itemReports_scanned, itemReports_scanned]
      cases hjit : item.jitAllowed with
      | true => rfl
      | false =>
          have hsameCount : b.anonExecCount = b'.anonExecCount := by
            simpa using hcount hjit
          rw [← hsameCount]
          rcases Nat.eq_zero_or_pos b.anonExecCount with hzero | hpos
          · -- a count of zero is no growth, whatever the reference
            rw [hzero]
            cases scanCheck.table.remembered before item.pid <;>
              cases scanCheck.table.remembered before' item.pid <;> simp
          · rw [h item.pid (hno _ hx hjit b rfl hpos)]

/-! ### Whole runs -/

theorem filterMap_eventCall (l : List AcEvent) :
    (l.map eventCall).filterMap logmsg =
      ((l.filter AcEvent.isSecurity).map eventCall).filterMap logmsg := by
  induction l with
  | nil => rfl
  | cons e l ih =>
      cases hsec : e.isSecurity with
      | true => simp only [List.map_cons, List.filterMap_cons, List.filter_cons, hsec, if_true, ih]
      | false =>
          have hquiet : logmsg (eventCall e) = none := by
            simp only [AcEvent.isSecurity, Bool.or_eq_false_iff, beq_eq_false_iff_ne] at hsec
            rw [eventCall, if_neg hsec.1, if_neg hsec.2]
            rfl
          simp only [List.map_cons, List.filterMap_cons, List.filter_cons, hsec, hquiet, ih,
            Bool.false_eq_true, if_false]

theorem SameEvidence.headReports {x y : Tick} (h : SameEvidence x y) (n : NextTimes) :
    x.headReports n = y.headReports n := by
  rw [Tick.headReports, Tick.headReports, filterMap_eventCall, filterMap_eventCall y.drained,
    h.events, h.now, h.syscalls, h.hidden]

theorem listedCalls_eq {R : Type} {p q : Option (ListedPass R)} (h : SameResults p q)
    (due : Bool) (calls : AcProtItem → R → List LogCall) :
    listedCalls due calls p = listedCalls due calls q := by
  cases due with
  | false => rfl
  | true =>
      cases p with
      | none =>
          cases q with
          | none => rfl
          | some q => simp [SameResults] at h
      | some p =>
          cases q with
          | none => simp [SameResults] at h
          | some q =>
              have hitems : p.items = q.items := by simpa [SameResults] using h
              simp only [listedCalls, hitems]

theorem SameEvidence.tailReports {x y : Tick} (h : SameEvidence x y) (n : NextTimes) :
    x.tailReports n = y.tailReports n := by
  rw [Tick.tailReports, Tick.tailReports, h.now, listedCalls_eq h.baseline,
    listedCalls_eq h.render]

/-- Runs with the same evidence report the same, if no reference comes from a marked
process. -/
theorem reportsFrom_eq (iv : Intervals) {xs ys : List Tick}
    (hsame : List.Forall₂ SameEvidence xs ys) {n : NextTimes}
    {before before' : List (ListedPass (Option AcScanBegin))}
    (h : ReferencesAgree before before')
    (hno : AtEach (fun later => NoJitReference (before ++ later)) (scansFrom iv n.scan xs)) :
    reportsFrom iv n before xs = reportsFrom iv n before' ys := by
  induction hsame generalizing n before before' with
  | nil => rfl
  | @cons x y xs ys hxy _ ih =>
      have hadvance : (n.advance iv x.now).scan = reschedule x.now n.scan iv.scan := rfl
      simp only [reportsFrom, hxy.headReports n, hxy.tailReports n, ← hxy.now]
      have hscan := hxy.scan
      simp only [Tick.dueScan, ← hxy.now]
      simp only [scansFrom] at hno
      by_cases hdue : x.now ≥ n.scan
      · simp only [hdue, if_true] at hno ⊢
        rcases hx : x.scan with _ | p
        · rcases hy : y.scan with _ | q
          · rw [hx] at hno
            simp only [Option.toList_none, List.nil_append, List.append_nil] at hno ⊢
            rw [ih h (hadvance ▸ hno)]
            simp
          · rw [hx, hy] at hscan
            cases hscan
        · rcases hy : y.scan with _ | q
          · rw [hx, hy] at hscan
            cases hscan
          · rw [hx, hy] at hscan
            rcases hscan with ⟨hpq⟩
            rw [hx] at hno
            simp only [Option.toList_some, List.cons_append, List.nil_append, atEach_cons,
              List.append_nil] at hno
            have hlater : AtEach (fun later => NoJitReference ((before ++ [p]) ++ later))
                (scansFrom iv (n.advance iv x.now).scan xs) := by
              rw [hadvance]
              simpa using hno.2
            simp only [Option.toList_some, List.flatMap_cons, List.flatMap_nil, List.append_nil]
            rw [passReports_eq h hpq hno.1, ih (h.pass hpq) hlater]
      · simp only [hdue, if_false] at hno ⊢
        simp only [Option.toList_none, List.nil_append, List.append_nil] at hno ⊢
        rw [ih h (hadvance ▸ hno)]
        simp

/-! ## Runs that differ in the counts of marked processes -/

/-- The count of a marked process, if its scan succeeded, is replaced. -/
def setJitCount (N : Nat) (x : AcProtItem × Option AcScanBegin) :
    AcProtItem × Option AcScanBegin :=
  if x.1.jitAllowed then (x.1, x.2.map fun b => { b with anonExecCount := N }) else x

@[simp]
theorem setJitCount_fst (N : Nat) (x : AcProtItem × Option AcScanBegin) :
    (setJitCount N x).1 = x.1 := by
  unfold setJitCount
  split <;> rfl

theorem setJitCount_of_not_jit {N : Nat} {x : AcProtItem × Option AcScanBegin}
    (h : x.1.jitAllowed = false) : setJitCount N x = x := by
  simp [setJitCount, h]

theorem sameScan_setJitCount (N : Nat) (x : AcProtItem × Option AcScanBegin) :
    SameScan x (setJitCount N x) where
  item := (setJitCount_fst N x).symm
  success := by
    unfold setJitCount
    split
    · simp
    · rfl
  count h := by rw [setJitCount_of_not_jit h]

/-- A pass with the counts of all marked processes replaced. -/
def withJitCount (N : Nat) (p : ListedPass (Option AcScanBegin)) :
    ListedPass (Option AcScanBegin) :=
  { p with
    result := fun i =>
      match p.list.reported[i]? with
      | some item => (setJitCount N (item, p.result i)).2
      | none => p.result i }

theorem withJitCount_items (N : Nat) (p : ListedPass (Option AcScanBegin)) :
    (withJitCount N p).items = p.items.map (setJitCount N) := by
  apply List.ext_getElem
  · simp [ListedPass.items, AcProtList.withResults, withJitCount]
  · intro i h₁ h₂
    have hi : i < p.list.reported.length := by
      simpa [ListedPass.items, AcProtList.withResults] using h₂
    apply Prod.ext
    · simp [ListedPass.items, AcProtList.withResults, withJitCount]
    · simp [ListedPass.items, AcProtList.withResults, withJitCount, hi]

theorem forall₂_withJitCount (N : Nat) (p : ListedPass (Option AcScanBegin)) :
    List.Forall₂ SameScan p.items (withJitCount N p).items := by
  rw [withJitCount_items, List.forall₂_map_right_iff, List.forall₂_same]
  intro x _
  exact sameScan_setJitCount N x

def Tick.withJitCount (N : Nat) (x : Tick) : Tick :=
  { x with scan := x.scan.map (Anticheat.withJitCount N) }

theorem sameEvidence_withJitCount (N : Nat) (x : Tick) : SameEvidence x (x.withJitCount N) where
  now := rfl
  events := rfl
  syscalls := rfl
  hidden := rfl
  scan := by
    unfold Tick.withJitCount
    cases x.scan with
    | none => exact .none
    | some p => exact .some (forall₂_withJitCount N p)
  baseline := rfl
  render := rfl
  preload := rfl
  vklayer := rfl
  implicit := rfl

theorem Tick.dueScan_withJitCount (N : Nat) (x : Tick) (next : Int) :
    (x.withJitCount N).dueScan next = (x.dueScan next).map (Anticheat.withJitCount N) := by
  unfold Tick.dueScan Tick.withJitCount
  split <;> rfl

/-- References from other processes are as before. -/
theorem referencesAgree_withJitCount (N : Nat) (before : List (ListedPass (Option AcScanBegin))) :
    ReferencesAgree before (before.map (withJitCount N)) := by
  induction before using List.reverseRecOn with
  | nil => exact fun pid _ => rfl
  | append_singleton before p ih =>
      rw [List.map_append]
      exact ih.pass (forall₂_withJitCount N p)

/-- A reference from a marked process is the count that was put there. -/
theorem remembered_withJitCount (N : Nat) {before : List (ListedPass (Option AcScanBegin))}
    {pid : Int} (h : JitReference before pid) :
    scanCheck.table.remembered (before.map (withJitCount N)) pid = some N := by
  induction before using List.reverseRecOn with
  | nil => exact absurd h not_since_nil
  | append_singleton before p ih =>
      rw [JitReference, since_concat] at h
      have hout : ∀ x ∈ p.items, scanCheck.table.outcome (withJitCount N p) x.1.pid =
          some ((setJitCount N x).2.map AcScanBegin.anonExecCount) := by
        intro x hx
        have hmem : setJitCount N x ∈ (withJitCount N p).items := by
          rw [withJitCount_items]
          exact List.mem_map_of_mem hx
        have hmem' := scanCheck.table.outcome_of_mem hmem
        rw [show scanCheck.table.itemKey (setJitCount N x) = x.1.pid from
          congrArg AcProtItem.pid (setJitCount_fst N x)] at hmem'
        exact hmem'
      rw [List.map_append, List.map_singleton, PassTable.remembered_concat, PassTable.follow]
      rcases h with ⟨x, hx, rfl, hjit, hsome⟩ | ⟨⟨x, hx, rfl, hnone⟩, hlast⟩
      · rcases Option.isSome_iff_exists.1 hsome with ⟨b, hb⟩
        rw [hout x hx]
        simp [setJitCount, hjit, hb]
      · rw [hout x hx]
        have hfail : (setJitCount N x).2 = none := by
          unfold setJitCount
          split <;> simp [hnone]
        rw [hfail]
        exact ih hlast

/-! ### Counting reports -/

/-- What a scan reports when the counts of marked processes are replaced. -/
def jitPassReports (N : Nat) (before : List (ListedPass (Option AcScanBegin)))
    (x : AcProtItem × Option AcScanBegin) : List AcReport :=
  itemReports (scanCheck.table.remembered (before.map (withJitCount N)) x.1.pid)
    (setJitCount N x)

theorem passReports_withJitCount (N : Nat) (before : List (ListedPass (Option AcScanBegin)))
    (p : ListedPass (Option AcScanBegin)) :
    passReports (before.map (withJitCount N)) (withJitCount N p) =
      p.items.flatMap (jitPassReports N before) := by
  rw [passReports, withJitCount_items, List.flatMap_map]
  simp only [setJitCount_fst]
  rfl

theorem jitPassReports_of_not_jit {item : AcProtItem} (hjit : item.jitAllowed = false) (N : Nat)
    (before : List (ListedPass (Option AcScanBegin))) (b : AcScanBegin) :
    jitPassReports N before (item, some b) =
      match scanCheck.table.remembered (before.map (withJitCount N)) item.pid with
      | some w => if b.anonExecCount > w then [growthReport item w b.anonExecCount] else []
      | none => [] := by
  have hset : setJitCount N (item, some b) = (item, some b) := setJitCount_of_not_jit hjit
  simp only [jitPassReports, hset, itemReports_scanned, hjit, Bool.false_eq_true, if_false]

/-- Lower counts of marked processes never lead to fewer reports. -/
theorem length_jitPassReports_le (N : Nat) (before : List (ListedPass (Option AcScanBegin)))
    (x : AcProtItem × Option AcScanBegin) :
    (jitPassReports N before x).length ≤ (jitPassReports 0 before x).length := by
  rcases x with ⟨item, _ | b⟩
  · unfold jitPassReports setJitCount
    split <;> simp
  · cases hjit : item.jitAllowed with
    | true => simp [jitPassReports, setJitCount, hjit, itemReports_scanned]
    | false =>
        rw [jitPassReports_of_not_jit hjit, jitPassReports_of_not_jit hjit]
        by_cases href : JitReference before item.pid
        · rw [remembered_withJitCount N href, remembered_withJitCount 0 href]
          by_cases hN : b.anonExecCount > N
          · simp [hN, show b.anonExecCount > 0 by omega]
          · simp [hN]
        · rw [← referencesAgree_withJitCount N before _ href,
            ← referencesAgree_withJitCount 0 before _ href]

/-- If the counts of marked processes do not change the number of reports, no reference
comes from one. -/
theorem noJitReference_of_lengths {before : List (ListedPass (Option AcScanBegin))}
    {p : ListedPass (Option AcScanBegin)}
    (h : ∀ N, (passReports (before.map (withJitCount N)) (withJitCount N p)).length =
      (passReports (before.map (withJitCount 0)) (withJitCount 0 p)).length) :
    NoJitReference before p := by
  rintro ⟨item, r⟩ hx hjit b rfl hpos href
  -- with its own count as the reference nothing has grown, with zero it has
  have hcount := h b.anonExecCount
  rw [passReports_withJitCount, passReports_withJitCount] at hcount
  have hlen := length_eq_of_length_flatMap_eq
    (fun x _ => length_jitPassReports_le b.anonExecCount before x) hcount _ hx
  rw [jitPassReports_of_not_jit hjit, jitPassReports_of_not_jit hjit,
    remembered_withJitCount _ href, remembered_withJitCount _ href] at hlen
  simp [hpos] at hlen

theorem length_passReports_le (N : Nat) (before : List (ListedPass (Option AcScanBegin)))
    (p : ListedPass (Option AcScanBegin)) :
    (passReports (before.map (withJitCount N)) (withJitCount N p)).length ≤
      (passReports (before.map (withJitCount 0)) (withJitCount 0 p)).length := by
  rw [passReports_withJitCount, passReports_withJitCount]
  exact length_flatMap_le fun x _ => length_jitPassReports_le N before x

/-- The reports of an iteration when the counts of marked processes are replaced. -/
theorem reportsFrom_withJitCount (iv : Intervals) (N : Nat) (x : Tick) (xs : List Tick)
    (n : NextTimes) (before : List (ListedPass (Option AcScanBegin))) :
    reportsFrom iv n (before.map (withJitCount N)) ((x :: xs).map (Tick.withJitCount N)) =
      x.headReports n ++ ((x.dueScan n.scan).toList.flatMap fun p =>
          passReports (before.map (withJitCount N)) (withJitCount N p)) ++
        x.tailReports n ++
        reportsFrom iv (n.advance iv x.now)
          ((before ++ (x.dueScan n.scan).toList).map (withJitCount N))
          (xs.map (Tick.withJitCount N)) := by
  have hsame := sameEvidence_withJitCount N x
  rw [List.map_cons, reportsFrom, ← hsame.headReports, ← hsame.tailReports, ← hsame.now,
    x.dueScan_withJitCount]
  cases x.dueScan n.scan with
  | none => simp
  | some p => simp

theorem length_reportsFrom_le (iv : Intervals) (N : Nat) (xs : List Tick) (n : NextTimes)
    (before : List (ListedPass (Option AcScanBegin))) :
    (reportsFrom iv n (before.map (withJitCount N)) (xs.map (Tick.withJitCount N))).length ≤
      (reportsFrom iv n (before.map (withJitCount 0)) (xs.map (Tick.withJitCount 0))).length := by
  induction xs generalizing n before with
  | nil => exact Nat.le_refl _
  | cons x xs ih =>
      have hscan := length_flatMap_le (l := (x.dueScan n.scan).toList)
        fun p _ => length_passReports_le N before p
      have hrest := ih (n.advance iv x.now) (before ++ (x.dueScan n.scan).toList)
      rw [reportsFrom_withJitCount, reportsFrom_withJitCount]
      simp only [List.length_append]
      omega

/-- If the counts of marked processes do not change the number of reports of a run, no
reference comes from one. -/
theorem atEach_noJitReference (iv : Intervals) (xs : List Tick) (n : NextTimes)
    (before : List (ListedPass (Option AcScanBegin)))
    (h : ∀ N, (reportsFrom iv n (before.map (withJitCount N))
        (xs.map (Tick.withJitCount N))).length =
      (reportsFrom iv n (before.map (withJitCount 0)) (xs.map (Tick.withJitCount 0))).length) :
    AtEach (fun later => NoJitReference (before ++ later)) (scansFrom iv n.scan xs) := by
  induction xs generalizing n before with
  | nil => exact atEach_nil _
  | cons x xs ih =>
      -- neither the scan of this iteration nor the rest has fewer reports, so both agree
      have hboth : ∀ N,
          ((x.dueScan n.scan).toList.flatMap fun p =>
              passReports (before.map (withJitCount N)) (withJitCount N p)).length =
            ((x.dueScan n.scan).toList.flatMap fun p =>
              passReports (before.map (withJitCount 0)) (withJitCount 0 p)).length ∧
          (reportsFrom iv (n.advance iv x.now)
              ((before ++ (x.dueScan n.scan).toList).map (withJitCount N))
              (xs.map (Tick.withJitCount N))).length =
            (reportsFrom iv (n.advance iv x.now)
              ((before ++ (x.dueScan n.scan).toList).map (withJitCount 0))
              (xs.map (Tick.withJitCount 0))).length := by
        intro N
        have hscan := length_flatMap_le (l := (x.dueScan n.scan).toList)
          fun p _ => length_passReports_le N before p
        have hrest := length_reportsFrom_le iv N xs (n.advance iv x.now)
          (before ++ (x.dueScan n.scan).toList)
        have htotal := h N
        rw [reportsFrom_withJitCount, reportsFrom_withJitCount] at htotal
        simp only [List.length_append] at htotal
        omega
      have hlater := ih (n.advance iv x.now) _ fun N => (hboth N).2
      have hfirst := fun N => (hboth N).1
      change AtEach _ (_ ++ scansFrom iv (n.advance iv x.now).scan xs)
      rw [← show (x.dueScan n.scan).toList = if x.now ≥ n.scan then x.scan.toList else [] by
        unfold Tick.dueScan; split <;> rfl]
      cases hdue : x.dueScan n.scan with
      | none =>
          rw [hdue] at hlater
          simpa using hlater
      | some p =>
          rw [hdue] at hlater hfirst
          simp only [Option.toList_some, List.cons_append, List.nil_append, atEach_cons,
            List.append_nil]
          refine ⟨noJitReference_of_lengths ?_, by simpa using hlater⟩
          simpa using hfirst

/-! ## The theorem -/

/-- For every run of the monitoring loop: whatever differs in what the heuristics look
at, the reports are the same, if and only if no process that is not marked as
generating code, and has executable areas without a file, is compared with a count from
the time when it was marked. -/
theorem heuristics_never_reported_iff (iv : Intervals) (r : MonitorRun) :
    ReportsIndependent iv r ↔ AtEach NoJitReference (scansFrom iv 0 r.ticks) := by
  constructor
  · intro h
    have hreports : ∀ N, reportsFrom iv {} [] (r.ticks.map (Tick.withJitCount N)) =
        r.reports iv := by
      intro N
      have hsame : List.Forall₂ SameEvidence r.ticks (r.ticks.map (Tick.withJitCount N)) := by
        rw [List.forall₂_map_right_iff, List.forall₂_same]
        intro x _
        exact sameEvidence_withJitCount N x
      rw [← h { r with ticks := r.ticks.map (Tick.withJitCount N) } hsame,
        MonitorRun.reports_eq]
    refine atEach_noJitReference iv r.ticks {} [] fun N => ?_
    rw [List.map_nil, List.map_nil, hreports N, hreports 0]
  · intro h r' hsame
    rw [MonitorRun.reports_eq, MonitorRun.reports_eq]
    have hagree : ReferencesAgree [] [] := fun _ _ => rfl
    exact (reportsFrom_eq iv hsame (n := {}) hagree h).symm

/-! ## A process whose mark is taken away -/

/-- A scan of process 9 that finds the given number of areas. -/
def scanOfNine (jitAllowed : Bool) (count : Nat) : ListedPass (Option AcScanBegin) where
  list := { count := 1, items := SlotTable.replicate acMaxProts { pid := 9, jitAllowed := jitAllowed } }
  distinct := by cases jitAllowed <;> decide
  result _ := some { pid := 9, emitEvents := false, anonExecCount := count }

/-- An iteration in which only the scan has something to look at. -/
def scanTick (now : Int) (p : ListedPass (Option AcScanBegin)) : Tick where
  now := now
  events := none
  syscalls := none
  hidden := 0
  scan := some p
  baseline := none
  render := none
  preload := none
  vklayer := none
  implicit := none

/-- Process 9 is protected as one that generates code and scanned; then it is protected
again without the mark, and scanned with four areas. -/
def unmarkedRun (jitCount : Nat) : MonitorRun where
  startup := { foreground := true, selfPid := 1, selfProtect := .ok (), cpuid := none, dmi := none }
  ticks := [scanTick 0 (scanOfNine true jitCount), scanTick 30 (scanOfNine false 4)]

/-- The default intervals. -/
def defaultIntervals : Intervals where
  scan := 30
  baseline := 60
  render := 30
  preload := 10
  vklayer := 10
  implicit := 30

/-- With five areas while it was marked nothing is reported, with three a growth is. -/
theorem jit_count_decides_report : ¬ReportsIndependent defaultIntervals (unmarkedRun 5) := by
  intro h
  have hsame : List.Forall₂ SameEvidence (unmarkedRun 5).ticks (unmarkedRun 3).ticks := by
    refine .cons ?_ (.cons ?_ .nil)
    · exact ⟨rfl, rfl, rfl, rfl, .some (.cons ⟨rfl, rfl, by decide⟩ .nil), rfl, rfl, rfl, rfl, rfl⟩
    · exact ⟨rfl, rfl, rfl, rfl, .some (.cons ⟨rfl, rfl, by decide⟩ .nil), rfl, rfl, rfl, rfl, rfl⟩
  have hlength := congrArg List.length (h (unmarkedRun 3) hsame)
  exact absurd hlength (by decide +kernel)

end Anticheat
