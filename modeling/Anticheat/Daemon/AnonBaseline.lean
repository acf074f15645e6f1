import Anticheat.Foundation.StepRun
import Anticheat.Daemon.RenderHooks

/-!
# Watching for new executable memory without a file

At intervals the daemon scans every protected process and compares the number
of its executable areas without a file with the number of the scan before; it
logs a growth.  The numbers are kept in a table with one slot for each
protected pid, and slots of pids that are no longer listed are freed.

The counts come from a snapshot that is cut after a fixed number of areas.  The
state of the watch records, beside the table, the whole address space that the
last successful scan of each listed pid met.

Main results:

- Theorem {lit}`WatchState.Inv.step`: the table holds, for every pid that stays
  listed, the count of its last successful scan.
- Theorem {lit}`scanProtectedPeriodic_run`: one pass of the daemon is a sequence
  of steps of the watch.
- Theorem {lit}`capped_checks_agree_iff`: when the two checks that rest on a cut
  snapshot agree with the whole address space.
-/

namespace Anticheat

open Foundation

/-! ## Log messages -/

/-- The syslog priorities in use. -/
inductive LogPriority where
  | crit
  | warning
deriving DecidableEq, Repr

/-- The messages of the periodic scan. -/
inductive WatchMsg where
  | rwxPresent (pid : Int) (comm : CStr) (count : Nat)
  | anonGrowth (jitAllowed : Bool) (pid : Int) (comm : CStr) (was now : Nat)
deriving DecidableEq

def WatchMsg.priority : WatchMsg → LogPriority
  | rwxPresent _ _ _ => .warning
  | anonGrowth jitAllowed _ _ _ _ => if jitAllowed then .warning else .crit

/-- The text of a message, cut to the buffer of `logmsg`. -/
def WatchMsg.text : WatchMsg → CStr
  | rwxPresent pid comm count =>
      CStr.bounded 512 (CStr.ascii "pid " ++ CStr.decimal pid ++ CStr.ascii " (" ++ comm ++
        CStr.ascii "): " ++ CStr.decimal count ++ CStr.ascii " RWX mapping(s) present")
  | anonGrowth jitAllowed pid comm was now =>
      CStr.bounded 512 (CStr.ascii "pid " ++ CStr.decimal pid ++ CStr.ascii " (" ++ comm ++
        CStr.ascii "): " ++ CStr.decimal (now - was : Nat) ++
        CStr.ascii " new anonymous executable mapping(s) since first observed (was " ++
        CStr.decimal was ++ CStr.ascii ", now " ++ CStr.decimal now ++ CStr.ascii ") -- " ++
        if jitAllowed then CStr.ascii "expected for a JIT-marked process, not auto-reported"
        else CStr.ascii "possible code injection after process start")

/-! ## The table of counts -/

/-- `struct ac_anon_baseline` -/
structure AcAnonBaseline where
  pid : Int := 0
  count : Nat := 0
  inUse : Bool := false
deriving DecidableEq

/-- The pid that a slot in use belongs to. -/
def AcAnonBaseline.owner (s : AcAnonBaseline) : Option Int :=
  if s.inUse then some s.pid else none

/-- `g_anon_baseline` -/
abbrev AnonTable := SlotTable AcAnonBaseline acMaxProts

/-- `anon_baseline_forget_stale` -/
def anonBaselineForgetStale (pl : AcProtList) (t : AnonTable) : AnonTable :=
  t.map fun s =>
    if s.inUse && !(pl.reported.any fun item => item.pid == s.pid) then
      { s with inUse := false }
    else s

/-- `anon_baseline_check` -/
def anonBaselineCheck (pid : Int) (comm : CStr) (count : Nat) (jitAllowed : Bool)
    (t : AnonTable) : List WatchMsg × AnonTable :=
  match t.scan AcAnonBaseline.owner pid with
  | .hit i =>
      let was := (t.slots[i]?.getD {}).count
      (if count > was then [.anonGrowth jitAllowed pid comm was count] else [],
        t.modify i fun s => { s with count := count })
  | .miss (some i) => ([], t.set i { pid := pid, count := count, inUse := true })
  | .miss none => ([], t)

/-! ## The periodic scan -/

/-- What one SCAN_BEGIN meets. -/
structure ScanAttempt where
  fdAlloc : Bool
  env : ScanEnv

/-- The address space that the scan reads, if it succeeds. -/
def ScanAttempt.scanned (a : ScanAttempt) (priv : Option AcFdState) : Option (List VmArea) :=
  match acGetFdState a.fdAlloc priv, a.env.snapshot with
  | some _, some _ => a.env.mm
  | _, _ => none

/-- The state of the daemon: the device file and the table. -/
structure WatchDaemon where
  priv : Option AcFdState
  baseline : AnonTable

/-- The body of the loop of `scan_protected_periodic`. -/
def scanItem (item : AcProtItem) (a : ScanAttempt) (d : WatchDaemon) :
    List WatchMsg × WatchDaemon :=
  match acIoctlSnap true (.scanBegin a.fdAlloc a.env item.pid false) d.priv with
  | (.ok (.scanBegun b), priv) =>
      let rwx :=
        if b.rwxCount > 0 then [WatchMsg.rwxPresent item.pid item.comm b.rwxCount] else []
      let (msgs, t) :=
        anonBaselineCheck item.pid item.comm b.anonExecCount item.jitAllowed d.baseline
      (rwx ++ msgs, { priv := (acIoctlSnap true .scanEnd priv).2, baseline := t })
  | (_, priv) => ([], { d with priv := priv })

/-- The loop of `scan_protected_periodic`. -/
def scanItems : List (AcProtItem × ScanAttempt) → WatchDaemon → List WatchMsg × WatchDaemon
  | [], d => ([], d)
  | (item, a) :: rest, d =>
      let (msgs, d) := scanItem item a d
      let (later, d) := scanItems rest d
      (msgs ++ later, d)

/-- What one pass meets: the answer of LIST_PROTECTED, and the scan of each
item. -/
structure WatchRound where
  list : Option AcProtList
  attempts : Nat → ScanAttempt

/-- The items of a listing with their scans. -/
def WatchRound.items (r : WatchRound) (pl : AcProtList) : List (AcProtItem × ScanAttempt) :=
  pl.reported.mapIdx fun i item => (item, r.attempts i)

/-- `scan_protected_periodic`; it returns an error when LIST_PROTECTED fails. -/
def scanProtectedPeriodic (r : WatchRound) (d : WatchDaemon) :
    Option (List WatchMsg) × WatchDaemon :=
  match r.list with
  | none => (none, d)
  | some pl =>
      let (msgs, d) := scanItems (r.items pl)
        { d with baseline := anonBaselineForgetStale pl d.baseline }
      (some msgs, d)

/-! ## The watch as a system -/

/-- The daemon with its log, the current listing, and the address space of the
last successful scan of each pid that stayed listed. -/
structure WatchState where
  daemon : WatchDaemon
  log : List WatchMsg
  listed : List AcProtItem
  last : Int → Option (List VmArea)

def WatchState.initial : WatchState where
  daemon := { priv := none, baseline := SlotTable.replicate acMaxProts {} }
  log := []
  listed := []
  last := fun _ => none

/-- A listing, or the scan of one listed process. -/
inductive WatchOp where
  | list (pl : AcProtList)
  | scan (item : AcProtItem) (a : ScanAttempt)

/-- One step of the watch. -/
def WatchState.step (s : WatchState) : WatchOp → Option WatchState
  | .list pl =>
      some { s with
        daemon := { s.daemon with baseline := anonBaselineForgetStale pl s.daemon.baseline }
        listed := pl.reported
        last := fun pid =>
          if pl.reported.any fun item => item.pid == pid then s.last pid else none }
  | .scan item a =>
      if item ∈ s.listed then
        some { s with
          daemon := (scanItem item a s.daemon).2
          log := s.log ++ (scanItem item a s.daemon).1
          last :=
            match a.scanned s.daemon.priv with
            | some areas => Function.update s.last item.pid (some areas)
            | none => s.last }
      else none

/-- The steps of one pass. -/
def WatchRound.ops (r : WatchRound) : List WatchOp :=
  match r.list with
  | none => []
  | some pl => .list pl :: (r.items pl).map fun ia => .scan ia.1 ia.2

/-- The number of executable areas without a file. -/
def anonExecTotal (areas : List VmArea) : Nat :=
  areas.countP VmArea.isAnonExec

/-- The same number among the areas that a snapshot holds. -/
def anonExecRecorded (areas : List VmArea) : Nat :=
  (areas.take acMaxVmas).countP VmArea.isAnonExec

/-- What the table should hold. -/
def WatchState.counts (s : WatchState) : Int → Option Nat :=
  fun pid => (s.last pid).map anonExecRecorded

/-- The table holds the count of the last scan of each pid that stayed listed. -/
structure WatchState.Inv (s : WatchState) : Prop where
  refines : SlotTable.Refines AcAnonBaseline.owner AcAnonBaseline.count s.daemon.baseline s.counts
  listed_le : s.listed.length ≤ acMaxProts
  last_listed : ∀ pid, s.last pid ≠ none → ∃ item ∈ s.listed, item.pid = pid

/-! ## The table along a run -/

theorem AcProtList.length_reported_le (pl : AcProtList) : pl.reported.length ≤ acMaxProts := by
  unfold AcProtList.reported
  rw [List.length_take, pl.items.length_slots]
  exact Nat.min_le_right _ _

theorem WatchState.initial_inv : WatchState.initial.Inv where
  refines := SlotTable.Refines.replicate_free rfl
  listed_le := Nat.zero_le _
  last_listed _ h := absurd rfl h

theorem AcAnonBaseline.owner_eq_some_iff {s : AcAnonBaseline} {pid : Int} :
    s.owner = some pid ↔ s.inUse = true ∧ s.pid = pid := by
  unfold AcAnonBaseline.owner
  cases s.inUse <;> simp

/-- Forgetting stale slots releases the slots of pids that are not listed. -/
theorem anonBaselineForgetStale_eq (pl : AcProtList) (t : AnonTable) :
    anonBaselineForgetStale pl t = t.release AcAnonBaseline.owner
      (fun s => { s with inUse := false }) fun pid => pl.reported.any fun item => item.pid == pid := by
  unfold anonBaselineForgetStale SlotTable.release
  congr 1
  funext s
  cases huse : s.inUse with
  | false => simp [AcAnonBaseline.owner, huse]
  | true =>
      cases hlisted : pl.reported.any fun item => item.pid == s.pid with
      | false => simp [AcAnonBaseline.owner, huse, hlisted]
      | true => simp [AcAnonBaseline.owner, huse, hlisted]

theorem anonBaselineForgetStale_refines {t : AnonTable} {m : Int → Option Nat}
    (h : SlotTable.Refines AcAnonBaseline.owner AcAnonBaseline.count t m) (pl : AcProtList) :
    SlotTable.Refines AcAnonBaseline.owner AcAnonBaseline.count (anonBaselineForgetStale pl t)
      fun pid => if pl.reported.any fun item => item.pid == pid then m pid else none := by
  rw [anonBaselineForgetStale_eq]
  exact h.release (fun _ => rfl) _

/-- What is logged about a count, given the count of the scan before. -/
def growthMsgs (pid : Int) (comm : CStr) (count : Nat) (jitAllowed : Bool) :
    Option Nat → List WatchMsg
  | some was => if count > was then [.anonGrowth jitAllowed pid comm was count] else []
  | none => []

/-- The check reads the slot of the pid and then writes it, or a free one. -/
theorem anonBaselineCheck_eq (pid : Int) (comm : CStr) (count : Nat) (jitAllowed : Bool)
    (t : AnonTable) :
    anonBaselineCheck pid comm count jitAllowed t =
      (growthMsgs pid comm count jitAllowed
          (t.valueOf AcAnonBaseline.owner AcAnonBaseline.count pid),
        t.upsert AcAnonBaseline.owner pid (fun s => { s with count := count })
          { pid := pid, count := count, inUse := true }) := by
  unfold anonBaselineCheck SlotTable.valueOf SlotTable.upsert
  cases hscan : t.scan AcAnonBaseline.owner pid with
  | hit i =>
      rcases SlotTable.scan_hit hscan with ⟨pre, s, post, hslots, rfl, -, -⟩
      simp [hslots, growthMsgs]
  | miss free =>
      cases free with
      | none => rfl
      | some i => rfl

/-- In a table with room for the pid, the check compares the count with the one that the
table holds and replaces it. -/
theorem anonBaselineCheck_refines {t : AnonTable} {m : Int → Option Nat}
    (h : SlotTable.Refines AcAnonBaseline.owner AcAnonBaseline.count t m) {pid : Int}
    (hroom : m pid = none → (t.occupied AcAnonBaseline.owner).length ≠ acMaxProts)
    (comm : CStr) (count : Nat) (jitAllowed : Bool) :
    (anonBaselineCheck pid comm count jitAllowed t).1 =
        growthMsgs pid comm count jitAllowed (m pid) ∧
      SlotTable.Refines AcAnonBaseline.owner AcAnonBaseline.count
        (anonBaselineCheck pid comm count jitAllowed t).2
        (Function.update m pid (some count)) := by
  rw [anonBaselineCheck_eq, h.valueOf]
  exact ⟨rfl, h.upsert (fun _ => rfl) (fun _ => rfl) rfl hroom⟩

/-- What the check of one count logs and leaves in the table. -/
theorem WatchState.Inv.check {s : WatchState} (h : s.Inv) {item : AcProtItem}
    (hitem : item ∈ s.listed) (count : Nat) :
    (anonBaselineCheck item.pid item.comm count item.jitAllowed s.daemon.baseline).1 =
        growthMsgs item.pid item.comm count item.jitAllowed (s.counts item.pid) ∧
      SlotTable.Refines AcAnonBaseline.owner AcAnonBaseline.count
        (anonBaselineCheck item.pid item.comm count item.jitAllowed s.daemon.baseline).2
        (Function.update s.counts item.pid (some count)) := by
  have hkeys : ∀ pid, s.counts pid ≠ none → pid ∈ s.listed.map AcProtItem.pid := by
    intro pid hpid
    have hlast : s.last pid ≠ none := fun hnone => hpid (by rw [WatchState.counts, hnone]; rfl)
    rcases h.last_listed pid hlast with ⟨item', hitem', rfl⟩
    exact List.mem_map_of_mem hitem'
  have hlen : (s.listed.map AcProtItem.pid).length ≤ acMaxProts := by
    rw [List.length_map]
    exact h.listed_le
  exact anonBaselineCheck_refines h.refines
    (h.refines.room hkeys hlen (List.mem_map_of_mem hitem)) item.comm count item.jitAllowed

/-- A scan that fails logs nothing and leaves the table alone. -/
theorem scanItem_fails {item : AcProtItem} {a : ScanAttempt} {d : WatchDaemon}
    (h : a.scanned d.priv = none) :
    (scanItem item a d).1 = [] ∧ (scanItem item a d).2.baseline = d.baseline := by
  have hfail : acGetFdState a.fdAlloc d.priv = none ∨ a.env.snapshot = none := by
    unfold ScanAttempt.scanned at h
    cases hst : acGetFdState a.fdAlloc d.priv with
    | none => exact .inl rfl
    | some st =>
        cases henv : a.env.snapshot with
        | none => exact .inr rfl
        | some l =>
            rcases a.env.snapshot_some henv with ⟨areas, -, hmm, -, -⟩
            rw [hst, henv, hmm] at h
            contradiction
  rcases acIoctlScanBegin_fails hfail item.pid false with ⟨e, priv', hrun, -⟩
  simp [scanItem, acIoctlSnap, hrun]

/-- A scan that succeeds checks the count that the snapshot holds. -/
theorem scanItem_ok {item : AcProtItem} {a : ScanAttempt} {d : WatchDaemon}
    {areas : List VmArea} (h : a.scanned d.priv = some areas) :
    ∃ rwx, (scanItem item a d).1 = rwx ++ (anonBaselineCheck item.pid item.comm
          (anonExecRecorded areas) item.jitAllowed d.baseline).1 ∧
      (∀ msg ∈ rwx, ∃ n, msg = .rwxPresent item.pid item.comm n) ∧
      (scanItem item a d).2.baseline = (anonBaselineCheck item.pid item.comm
          (anonExecRecorded areas) item.jitAllowed d.baseline).2 := by
  unfold ScanAttempt.scanned at h
  cases hst : acGetFdState a.fdAlloc d.priv with
  | none => simp [hst] at h
  | some st =>
      cases henv : a.env.snapshot with
      | none => simp [hst, henv] at h
      | some l =>
          rw [hst, henv] at h
          rcases acIoctlScanBegin_ok hst henv item.pid false with
            ⟨areas', st', hmm, -, hrun, -, -, -⟩
          rw [hmm] at h
          cases h
          refine ⟨if (scanReply a.env item.pid false areas).rwxCount > 0 then
            [.rwxPresent item.pid item.comm (scanReply a.env item.pid false areas).rwxCount]
            else [], ?_, ?_, ?_⟩
          · simp only [scanItem, acIoctlSnap, Bool.not_true, Bool.false_eq_true, if_false, hrun]
            rfl
          · intro msg hmsg
            split at hmsg
            · rw [List.mem_singleton] at hmsg
              exact ⟨_, hmsg⟩
            · contradiction
          · simp only [scanItem, acIoctlSnap, Bool.not_true, Bool.false_eq_true, if_false, hrun]
            rfl

/-- Every step keeps the table in agreement with the last scans. -/
theorem WatchState.Inv.step {s s' : WatchState} (h : s.Inv) {op : WatchOp}
    (hstep : s.step op = some s') : s'.Inv := by
  cases op with
  | list pl =>
      cases hstep
      refine ⟨?_, pl.length_reported_le, ?_⟩
      · have href := anonBaselineForgetStale_refines h.refines pl
        refine ⟨href.nodup, href.map_eq.trans ?_⟩
        ext1 pid
        simp only [WatchState.counts]
        split <;> rfl
      · intro pid hpid
        simp only [ne_eq] at hpid
        by_cases hany : (pl.reported.any fun item => item.pid == pid) = true
        · rcases List.any_eq_true.1 hany with ⟨item, hitem, heq⟩
          exact ⟨item, hitem, by simpa using heq⟩
        · simp [hany] at hpid
  | scan item a =>
      by_cases hitem : item ∈ s.listed
      · simp only [WatchState.step, if_pos hitem, Option.some.injEq] at hstep
        subst s'
        cases hscan : a.scanned s.daemon.priv with
        | none =>
            refine ⟨?_, h.listed_le, h.last_listed⟩
            rw [(scanItem_fails hscan).2]
            exact h.refines
        | some areas =>
            rcases scanItem_ok hscan with ⟨rwx, -, -, hbase⟩
            refine ⟨?_, h.listed_le, ?_⟩
            · simp only
              rw [hbase]
              have href := (h.check hitem (anonExecRecorded areas)).2
              refine ⟨href.nodup, href.map_eq.trans ?_⟩
              ext1 pid
              by_cases hpid : pid = item.pid
              · simp [WatchState.counts, hpid]
              · simp [WatchState.counts, hpid]
            · intro pid hpid
              by_cases heq : pid = item.pid
              · exact ⟨item, hitem, heq.symm⟩
              · simp only [Function.update_of_ne heq] at hpid
                exact h.last_listed pid hpid
      · simp [WatchState.step, hitem] at hstep

/-! ## One pass of the daemon -/

/-- Scanning listed items one by one. -/
theorem scanItems_run {s : WatchState} (items : List (AcProtItem × ScanAttempt))
    (hlisted : ∀ ia ∈ items, ia.1 ∈ s.listed) :
    ∃ s', StepRun.run WatchState.step s (items.map fun ia => .scan ia.1 ia.2) = some s' ∧
      s'.daemon = (scanItems items s.daemon).2 ∧
      s'.log = s.log ++ (scanItems items s.daemon).1 := by
  induction items generalizing s with
  | nil => exact ⟨s, rfl, rfl, by simp [scanItems]⟩
  | cons ia items ih =>
      have hmem := hlisted ia List.mem_cons_self
      rcases hstep : s.step (.scan ia.1 ia.2) with _ | s₁
      · simp [WatchState.step, hmem] at hstep
      · have hs₁ : s₁.daemon = (scanItem ia.1 ia.2 s.daemon).2 ∧
            s₁.log = s.log ++ (scanItem ia.1 ia.2 s.daemon).1 ∧ s₁.listed = s.listed := by
          simp only [WatchState.step, if_pos hmem, Option.some.injEq] at hstep
          subst s₁
          exact ⟨rfl, rfl, rfl⟩
        have hrest : ∀ ia' ∈ items, ia'.1 ∈ s₁.listed := by
          intro ia' hia'
          rw [hs₁.2.2]
          exact hlisted ia' (List.mem_cons_of_mem _ hia')
        rcases ih hrest with ⟨s', hrun, hdaemon, hlog⟩
        refine ⟨s', ?_, ?_, ?_⟩
        · rw [List.map_cons, StepRun.run_cons hstep, hrun]
        · rw [hdaemon, hs₁.1]
          rfl
        · rw [hlog, hs₁.1, hs₁.2.1, List.append_assoc]
          rfl

/-- One pass of the daemon is a run of the watch that is never blocked; it
leaves the same table and logs the same messages. -/
theorem scanProtectedPeriodic_run (r : WatchRound) (s : WatchState) :
    ∃ s', StepRun.run WatchState.step s r.ops = some s' ∧
      s'.daemon = (scanProtectedPeriodic r s.daemon).2 ∧
      s'.log = s.log ++ ((scanProtectedPeriodic r s.daemon).1.getD []) := by
  unfold scanProtectedPeriodic WatchRound.ops
  cases hlist : r.list with
  | none => exact ⟨s, rfl, rfl, by simp⟩
  | some pl =>
      have hitems : ∀ ia ∈ r.items pl, ia.1 ∈ pl.reported := by
        intro ia hia
        unfold WatchRound.items at hia
        rw [List.mem_mapIdx] at hia
        rcases hia with ⟨i, hi, rfl⟩
        exact List.getElem_mem hi
      rcases scanItems_run (s := { s with
          daemon := { s.daemon with baseline := anonBaselineForgetStale pl s.daemon.baseline }
          listed := pl.reported
          last := fun pid =>
            if pl.reported.any fun item => item.pid == pid then s.last pid else none })
        (r.items pl) hitems with ⟨s', hrun, hdaemon, hlog⟩
      exact ⟨s', hrun, hdaemon, hlog⟩

/-! ## Growth -/

/-- The message says that the process has grown. -/
def WatchMsg.IsGrowthOf (pid : Int) : WatchMsg → Prop
  | anonGrowth _ p _ _ _ => p = pid
  | rwxPresent _ _ _ => False

/-- If the address space has more executable areas without a file than at the
last successful scan, this scan logs a growth. -/
def WatchState.LogsGrowth (s : WatchState) : WatchOp → Prop
  | .list _ => True
  | .scan item a => item ∈ s.listed → ∀ before now, s.last item.pid = some before →
      a.scanned s.daemon.priv = some now → anonExecTotal before < anonExecTotal now →
      ∃ msg ∈ (scanItem item a s.daemon).1, msg.IsGrowthOf item.pid

/-- If the address space has more of them, so has the part that a snapshot
holds. -/
def WatchState.GrowthRecorded (s : WatchState) : WatchOp → Prop
  | .list _ => True
  | .scan item a => item ∈ s.listed → ∀ before now, s.last item.pid = some before →
      a.scanned s.daemon.priv = some now → anonExecTotal before < anonExecTotal now →
      anonExecRecorded before < anonExecRecorded now

/-- A scan logs a growth exactly when the recorded part has grown. -/
theorem WatchState.Inv.growth_iff {s : WatchState} (h : s.Inv) {item : AcProtItem}
    (hitem : item ∈ s.listed) {a : ScanAttempt} {before now : List VmArea}
    (hbefore : s.last item.pid = some before) (hnow : a.scanned s.daemon.priv = some now) :
    (∃ msg ∈ (scanItem item a s.daemon).1, msg.IsGrowthOf item.pid) ↔
      anonExecRecorded before < anonExecRecorded now := by
  rcases scanItem_ok hnow with ⟨rwx, hmsgs, hrwx, -⟩
  have hcounts : s.counts item.pid = some (anonExecRecorded before) := by
    rw [WatchState.counts, hbefore]
    rfl
  have hcheck := (h.check hitem (anonExecRecorded now)).1
  rw [hcounts] at hcheck
  rw [hmsgs, hcheck]
  constructor
  · rintro ⟨msg, hmsg, hgrowth⟩
    rcases List.mem_append.1 hmsg with hmsg | hmsg
    · rcases hrwx msg hmsg with ⟨n, rfl⟩
      exact absurd hgrowth id
    · by_contra hnot
      simp [growthMsgs, hnot] at hmsg
  · intro hlt
    refine ⟨.anonGrowth item.jitAllowed item.pid item.comm (anonExecRecorded before)
      (anonExecRecorded now), ?_, rfl⟩
    simp [growthMsgs, hlt]

/-- In every pass, the growth of a process since its last scan is logged. -/
def GrowthLogged (rounds : List WatchRound) : Prop :=
  StepRun.Along WatchState.step WatchState.LogsGrowth WatchState.initial
    (rounds.flatMap WatchRound.ops)

/-- In every pass, the growth of a process since its last scan shows in the
part that a snapshot holds. -/
def GrowthShows (rounds : List WatchRound) : Prop :=
  StepRun.Along WatchState.step WatchState.GrowthRecorded WatchState.initial
    (rounds.flatMap WatchRound.ops)

/-- Growth is logged exactly when it shows in the snapshots. -/
theorem growthLogged_iff (rounds : List WatchRound) :
    GrowthLogged rounds ↔ GrowthShows rounds := by
  refine StepRun.along_iff_of_invariant (I := WatchState.Inv)
    (fun s op s' hs hstep => hs.step hstep) ?_ WatchState.initial_inv
  intro s op hs
  cases op with
  | list pl => exact Iff.rfl
  | scan item a =>
      constructor
      · intro hlogs hitem before now hbefore hnow hgrew
        exact (hs.growth_iff hitem hbefore hnow).1 (hlogs hitem before now hbefore hnow hgrew)
      · intro hshows hitem before now hbefore hnow hgrew
        exact (hs.growth_iff hitem hbefore hnow).2 (hshows hitem before now hbefore hnow hgrew)

/-- The two checks that rest on a cut snapshot.  A report that a rendering
library is not loaded can be trusted exactly when every mapped library shows in
the recorded part of the address space; and, over every sequence of passes, the
growth of executable memory without a file is logged exactly when it shows
there. -/
theorem capped_checks_agree_iff (fdAlloc : Bool) (env : ScanEnv) (pid : Int)
    (compare : CStr → UInt64 → CStr → HookVerdict) (priv : Option AcFdState)
    (rounds : List WatchRound) :
    (AbsenceSound fdAlloc env pid compare priv ↔ LibsVisible fdAlloc env priv) ∧
      (GrowthLogged rounds ↔ GrowthShows rounds) :=
  ⟨absenceSound_iff fdAlloc env pid compare priv, growthLogged_iff rounds⟩

/-! ## An address space that does not fit -/

/-- A private area without a file, readable only. -/
def plainArea : VmArea :=
  { vmStart := 0, vmEnd := 4096, vmPgoff := 0, vmFlags := 1, vmFile := none }

/-- As many plain areas as a snapshot holds, and one more area. -/
def crowded (a : VmArea) : List VmArea :=
  List.replicate acMaxVmas plainArea ++ [a]

/-- A scan of an address space that meets no failure. -/
def scanOf (areas : List VmArea) : ScanAttempt :=
  { fdAlloc := true, env := { task := true, mm := some areas, alloc := true, bufs := fun _ => true } }

/-- A mapping of the OpenGL library. -/
def glArea : VmArea :=
  { plainArea with
    vmFlags := 5
    vmFile := some { ino := some 7, path := CStr.ascii "/usr/lib/libGL.so.1", dPathOk := true } }

/-- An executable area without a file. -/
def shellcodeArea : VmArea :=
  { plainArea with vmFlags := 5 }

/-- A pass over one protected process. -/
def passOver (areas : List VmArea) : WatchRound :=
  { list := some { count := 1, items := SlotTable.replicate acMaxProts { pid := 9 } }
    attempts := fun _ => scanOf areas }

theorem take_crowded (a : VmArea) :
    (crowded a).take acMaxVmas = List.replicate acMaxVmas plainArea := by
  unfold crowded
  rw [List.take_left' List.length_replicate]

/-- Two passes over one process. -/
theorem growthShows_two_passes {before now : List VmArea}
    (h : GrowthShows [passOver before, passOver now])
    (hgrew : anonExecTotal before < anonExecTotal now) :
    anonExecRecorded before < anonExecRecorded now := by
  have hscan := ((h.2 _ rfl).2 _ rfl).2 _ rfl |>.1
  exact hscan List.mem_cons_self before now rfl rfl hgrew

/-- The last area is in no snapshot: a library there is reported as not loaded,
and code injected there is not noticed. -/
theorem crowded_space_defeats_checks :
    ¬AbsenceSound true (scanOf (crowded glArea)).env 9 (fun _ _ _ => .clean) none ∧
      ¬GrowthLogged [passOver (List.replicate acMaxVmas plainArea),
        passOver (crowded shellcodeArea)] := by
  constructor
  · rw [absenceSound_iff]
    intro hvisible
    have hmapped : LibMapped (CStr.ascii "libGL.so") (crowded glArea) :=
      ⟨glArea, by simp [crowded], _, rfl, by decide⟩
    rcases hvisible (by simp [acGetFdState]) (by simp [scanOf, ScanEnv.snapshot])
      { libPrefix := CStr.ascii "libGL.so", symbol := CStr.ascii "glXSwapBuffers" }
      (by simp [acRenderApis]) hmapped with ⟨i, a, ha, f, hf, -⟩
    rw [show (scanOf (crowded glArea)).env.mm.getD [] = crowded glArea from rfl,
      take_crowded] at ha
    have hplain := List.eq_of_mem_replicate (List.mem_of_getElem? ha)
    rw [hplain] at hf
    contradiction
  · rw [growthLogged_iff]
    intro hshows
    have hbefore : anonExecTotal (List.replicate acMaxVmas plainArea) = 0 :=
      List.countP_eq_zero.2 fun a ha => by
        rw [List.eq_of_mem_replicate ha]
        decide
    have hgrew : 0 < anonExecTotal (crowded shellcodeArea) :=
      List.countP_pos_iff.2 ⟨shellcodeArea, by simp [crowded], by decide⟩
    have hrecorded := growthShows_two_passes hshows (by rw [hbefore]; exact hgrew)
    unfold anonExecRecorded at hrecorded
    rw [take_crowded, List.take_replicate, Nat.min_self] at hrecorded
    exact lt_irrefl _ hrecorded

end Anticheat
