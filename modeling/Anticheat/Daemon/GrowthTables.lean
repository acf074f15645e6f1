import Anticheat.Foundation.PassTable
import Anticheat.Daemon.AnonBaseline

/-!
# Watching counts grow

Two periodic checks of the daemon keep one number for each protected process and log
when it has grown since the last scan: `scan_protected_periodic` counts executable
areas without a file, and `check_implicit_layers_periodic` counts active Vulkan layers
that no prefix on a fixed list vouches for.  Both tables have as many slots as a
listing can have items, free the slots of unlisted pids first, and fill the first free
slot otherwise.

Here the answers of the scans are inputs.  Theorem {lit}`scanProtectedPeriodic_eq`
says that a pass of the daemon on the kernel model is such a pass.

Main results:

- Theorem {lit}`GrowthCheck.law`: what every growth table does, over every sequence of
  passes.
- Theorem {lit}`growth_tables_follow_listing`: both tables of the daemon do so, and
  the first logs at `LOG_CRIT` exactly for processes that may not generate code.
-/

namespace Anticheat

open Foundation

/-! ## Passes over a listing -/

/-- The items of a listing, each with what its check met. -/
def AcProtList.withResults {R : Type} (pl : AcProtList) (result : Nat → R) :
    List (AcProtItem × R) :=
  pl.reported.mapIdx fun i item => (item, result i)

/-- What one pass over the protected processes meets: a listing of distinct pids, and
a result for each item. -/
structure ListedPass (R : Type) where
  list : AcProtList
  distinct : (list.reported.map AcProtItem.pid).Nodup
  result : Nat → R

section ListedPass

variable {R : Type}

def ListedPass.items (p : ListedPass R) : List (AcProtItem × R) :=
  p.list.withResults p.result

/-- What a pass met for a pid, if the pid was listed. -/
def ListedPass.resultOf (p : ListedPass R) (pid : Int) : Option R :=
  (p.items.find? fun x => x.1.pid = pid).map Prod.snd

/-- A pass lists a pid. -/
def ListedPass.Lists (p : ListedPass R) (pid : Int) : Prop :=
  pid ∈ p.list.reported.map AcProtItem.pid

theorem AcProtList.map_fst_withResults (pl : AcProtList) (result : Nat → R) :
    (pl.withResults result).map Prod.fst = pl.reported := by
  apply List.ext_getElem
  · simp [AcProtList.withResults]
  · intro i _ _
    simp [AcProtList.withResults]

theorem ListedPass.map_pid_items (p : ListedPass R) :
    p.items.map (fun x => x.1.pid) = p.list.reported.map AcProtItem.pid := by
  rw [← p.list.map_fst_withResults p.result, List.map_map]
  rfl

theorem ListedPass.distinct_items (p : ListedPass R) :
    (p.items.map fun x => x.1.pid).Nodup := by
  rw [p.map_pid_items]
  exact p.distinct

theorem ListedPass.length_items_le (p : ListedPass R) : p.items.length ≤ acMaxProts := by
  rw [ListedPass.items, AcProtList.withResults, List.length_mapIdx]
  exact p.list.length_reported_le

theorem ListedPass.resultOf_eq_some_iff (p : ListedPass R) (pid : Int) (r : R) :
    p.resultOf pid = some r ↔ ∃ x ∈ p.items, x.1.pid = pid ∧ x.2 = r := by
  rw [ListedPass.resultOf, Option.map_eq_some_iff]
  constructor
  · rintro ⟨x, hx, hr⟩
    exact ⟨x, List.mem_of_find?_eq_some hx, by simpa using List.find?_some hx, hr⟩
  · rintro ⟨x, hx, rfl, hr⟩
    cases hfind : p.items.find? (fun y => y.1.pid = x.1.pid) with
    | none =>
        rw [List.find?_eq_none] at hfind
        simpa using hfind x hx
    | some y =>
        have hy := List.mem_of_find?_eq_some hfind
        have hkey : y.1.pid = x.1.pid := by simpa using List.find?_some hfind
        exact ⟨y, rfl, (List.inj_on_of_nodup_map p.distinct_items hy hx hkey).symm ▸ hr⟩

theorem ListedPass.lists_iff (p : ListedPass R) (pid : Int) :
    p.Lists pid ↔ (p.resultOf pid).isSome := by
  rw [ListedPass.Lists, ← p.map_pid_items, ListedPass.resultOf, Option.isSome_map]
  simp [List.find?_isSome]

/-- The walk over the listing finds the pids of the items. -/
theorem ListedPass.any_pid_iff (p : ListedPass R) (pid : Int) :
    (p.list.reported.any fun item => item.pid == pid) = true ↔
      pid ∈ p.items.map fun x => x.1.pid := by
  rw [p.map_pid_items]
  simp

end ListedPass

/-! ## The law of a growth table -/

/-- The number that a pass read for a pid: `none` if the pid was not listed, and
`some none` if its scan failed. -/
def ListedPass.countOf {B : Type} (count : B → Nat) (p : ListedPass (Option B)) (pid : Int) :
    Option (Option Nat) :=
  (p.resultOf pid).map fun r => r.map count

/-- The number of the last successful scan of a pid that has been listed in every pass
since. -/
def LastCount {B : Type} (count : B → Nat) (ps : List (ListedPass (Option B))) (pid : Int)
    (was : Nat) : Prop :=
  Since (fun p => p.countOf count pid = some (some was))
    (fun p => p.countOf count pid = some none) ps

/-- What the table `t` after the passes `ps` and `p` and the messages of `p` have to
look like, if `IsGrowth` tells the messages about a growth of a pid: no pid has two
slots, only pids of the last listing have one, a pid that was scanned has a slot with
its count, and a growth is logged exactly for a pid whose count exceeds its last count
while it stayed listed. -/
structure GrowthLaw {B μ : Type} (count : B → Nat) (IsGrowth : Int → μ → Prop)
    (ps : List (ListedPass (Option B))) (p : ListedPass (Option B)) (t : AnonTable)
    (msgs : List μ) : Prop where
  one_slot : (t.occupied AcAnonBaseline.owner).Nodup
  listed : ∀ s ∈ t.slots, s.inUse = true → s.pid ∈ p.list.reported.map AcProtItem.pid
  recorded : ∀ pid now, p.countOf count pid = some (some now) →
    ∃ s ∈ t.slots, s.inUse = true ∧ s.pid = pid ∧ s.count = now
  logged : ∀ pid, (∃ msg ∈ msgs, IsGrowth pid msg) ↔
    ∃ now was, p.countOf count pid = some (some now) ∧ LastCount count ps pid was ∧ was < now

/-! ## Growth checks -/

/-- What distinguishes the growth checks: the number that a scan yields, what is logged
about a scan in any case, and what is logged when the number has grown. -/
structure GrowthCheck (B μ : Type) where
  count : B → Nat
  always : AcProtItem → B → List μ
  grown : AcProtItem → B → Nat → μ

namespace GrowthCheck

variable {B μ : Type} (c : GrowthCheck B μ)

/-- What is logged about a scan, given the number of the scan before. -/
def growth (item : AcProtItem) (b : B) : Option Nat → List μ
  | some was => if c.count b > was then [c.grown item b was] else []
  | none => []

/-- The body of the loop over the listing: a failed scan changes nothing, and another
one is compared with the slot of the pid and recorded there, or in a free slot. -/
def visit (x : AcProtItem × Option B) (t : AnonTable) : List μ × AnonTable :=
  match x.2 with
  | none => ([], t)
  | some b =>
      (c.always x.1 b ++
          c.growth x.1 b (t.valueOf AcAnonBaseline.owner AcAnonBaseline.count x.1.pid),
        t.upsert AcAnonBaseline.owner x.1.pid (fun s => { s with count := c.count b })
          { pid := x.1.pid, count := c.count b, inUse := true })

/-- One pass: forget the stale slots, then check every item. -/
def pass (p : ListedPass (Option B)) (t : AnonTable) : List μ × AnonTable :=
  collect c.visit p.items (anonBaselineForgetStale p.list t)

/-- The table after a sequence of passes. -/
def tableAfter (ps : List (ListedPass (Option B))) : AnonTable :=
  ps.foldl (fun t p => (c.pass p t).2) (SlotTable.replicate acMaxProts {})

/-- A growth check as a table that follows the listing. -/
def table : PassTable (ListedPass (Option B)) (AcProtItem × Option B) AcAnonBaseline Int Nat μ
    acMaxProts where
  slotKey := AcAnonBaseline.owner
  slotVal := AcAnonBaseline.count
  empty := {}
  items := ListedPass.items
  itemKey x := x.1.pid
  stores x := x.2.map c.count
  emits x was :=
    match x.2 with
    | none => []
    | some b => c.always x.1 b ++ c.growth x.1 b was
  forget p := anonBaselineForgetStale p.list
  visit := c.visit
  empty_free := rfl
  distinct := ListedPass.distinct_items
  few := ListedPass.length_items_le
  forget_refines := by
    intro t m h p
    have href := anonBaselineForgetStale_refines h p.list
    simp only [p.any_pid_iff] at href
    exact href
  visit_refines := by
    intro t m h x hroom
    rcases x with ⟨item, _ | b⟩
    · refine ⟨rfl, h.nodup, h.map_eq.trans ?_⟩
      simp
    · refine ⟨?_, h.upsert (fun _ => rfl) (fun _ => rfl) rfl hroom⟩
      simp only [visit]
      rw [h.valueOf]

theorem table_outcome (p : ListedPass (Option B)) (pid : Int) :
    c.table.outcome p pid = p.countOf c.count pid := by
  rw [PassTable.outcome, ListedPass.countOf, ListedPass.resultOf, Option.map_map]
  rfl

theorem remembered_eq_some_iff (ps : List (ListedPass (Option B))) (pid : Int) (was : Nat) :
    c.table.remembered ps pid = some was ↔ LastCount c.count ps pid was := by
  rw [PassTable.remembered_eq_some_iff]
  simp only [table_outcome]
  rfl

/-- The items of a pass are what it met for their pids. -/
theorem countOf_eq_some_iff (p : ListedPass (Option B)) (pid : Int) (now : Nat) :
    p.countOf c.count pid = some (some now) ↔
      ∃ x ∈ p.items, x.1.pid = pid ∧ ∃ b, x.2 = some b ∧ c.count b = now := by
  constructor
  · intro h
    simp only [ListedPass.countOf, ListedPass.resultOf, Option.map_map, Option.map_eq_some_iff] at h
    rcases h with ⟨x, hx, hcount⟩
    have hpid : x.1.pid = pid := by simpa using List.find?_some hx
    simp only [Function.comp_apply, Option.map_eq_some_iff] at hcount
    exact ⟨x, List.mem_of_find?_eq_some hx, hpid, hcount⟩
  · rintro ⟨x, hx, rfl, b, hb, rfl⟩
    have hout := c.table.outcome_of_mem hx
    rw [c.table_outcome] at hout
    exact hout.trans (by simp [table, hb])

theorem mem_growth_iff (item : AcProtItem) (b : B) (was : Option Nat) (msg : μ) :
    msg ∈ c.growth item b was ↔ ∃ w, was = some w ∧ w < c.count b ∧ msg = c.grown item b w := by
  cases was with
  | none => simp [growth]
  | some w =>
      by_cases hlt : c.count b > w
      · simp [growth, hlt]
      · simp [growth, hlt]

/-- Which messages a pass logs. -/
theorem mem_pass_iff (ps : List (ListedPass (Option B))) (p : ListedPass (Option B)) (msg : μ) :
    msg ∈ (c.pass p (c.tableAfter ps)).1 ↔ ∃ x ∈ p.items, ∃ b, x.2 = some b ∧
      (msg ∈ c.always x.1 b ∨
        ∃ was, LastCount c.count ps x.1.pid was ∧ was < c.count b ∧ msg = c.grown x.1 b was) := by
  have hmsgs : (c.pass p (c.tableAfter ps)).1 = _ := c.table.pass_messages ps p
  rw [hmsgs, List.mem_flatMap]
  refine exists_congr fun x => and_congr_right fun _ => ?_
  rcases x with ⟨item, _ | b⟩
  · simp [table]
  · simp only [Option.some.injEq, exists_eq_left', ← c.remembered_eq_some_iff]
    rw [← c.mem_growth_iff]
    exact List.mem_append

/-- Every growth check obeys the law, if its messages can be told apart. -/
theorem law {IsGrowth : Int → μ → Prop}
    (halways : ∀ item b, ∀ msg ∈ c.always item b, ∀ pid, ¬IsGrowth pid msg)
    (hgrown : ∀ item b was pid, IsGrowth pid (c.grown item b was) ↔ item.pid = pid)
    (ps : List (ListedPass (Option B))) (p : ListedPass (Option B)) :
    GrowthLaw c.count IsGrowth ps p (c.tableAfter (ps ++ [p])) (c.pass p (c.tableAfter ps)).1 where
  one_slot := (c.table.run_refines _).nodup
  listed := by
    intro s hs huse
    rw [← p.map_pid_items]
    refine c.table.lists_of_occupied ps ?_
    refine List.mem_filterMap.2 ⟨s, hs, ?_⟩
    exact AcAnonBaseline.owner_eq_some_iff.2 ⟨huse, rfl⟩
  recorded := by
    intro pid now hnow
    rcases (c.countOf_eq_some_iff p pid now).1 hnow with ⟨x, hx, rfl, b, hb, rfl⟩
    have hslot := c.table.run_stores ps hx (v := c.count b) (by simp [table, hb])
    rcases SlotTable.exists_slot_of_toMap hslot with ⟨s, hs, howner, hcount⟩
    rcases AcAnonBaseline.owner_eq_some_iff.1 howner with ⟨huse, hpid⟩
    exact ⟨s, hs, huse, hpid, hcount⟩
  logged := by
    intro pid
    constructor
    · rintro ⟨msg, hmsg, hgrowth⟩
      rcases (c.mem_pass_iff ps p msg).1 hmsg with ⟨x, hx, b, hb, hin | ⟨was, hlast, hlt, rfl⟩⟩
      · exact absurd hgrowth (halways _ _ msg hin pid)
      · have hpid := (hgrown _ _ _ _).1 hgrowth
        rw [hpid] at hlast
        exact ⟨c.count b, was, (c.countOf_eq_some_iff p pid _).2 ⟨x, hx, hpid, b, hb, rfl⟩,
          hlast, hlt⟩
    · rintro ⟨now, was, hnow, hlast, hlt⟩
      rcases (c.countOf_eq_some_iff p pid now).1 hnow with ⟨x, hx, rfl, b, hb, rfl⟩
      refine ⟨c.grown x.1 b was, ?_, (hgrown _ _ _ _).2 rfl⟩
      exact (c.mem_pass_iff ps p _).2 ⟨x, hx, b, hb, .inr ⟨was, hlast, hlt, rfl⟩⟩

end GrowthCheck

/-! ## Executable areas without a file -/

/-- The messages of a scan that began. -/
def scanCheck : GrowthCheck AcScanBegin WatchMsg where
  count b := b.anonExecCount
  always item b :=
    if b.rwxCount > 0 then [.rwxPresent item.pid item.comm b.rwxCount] else []
  grown item b was := .anonGrowth item.jitAllowed item.pid item.comm was b.anonExecCount

/-- The body of the loop of `scan_protected_periodic`, given the answer of SCAN_BEGIN. -/
def scanResult (x : AcProtItem × Option AcScanBegin) (t : AnonTable) :
    List WatchMsg × AnonTable :=
  match x.2 with
  | none => ([], t)
  | some b =>
      let rwx :=
        if b.rwxCount > 0 then [WatchMsg.rwxPresent x.1.pid x.1.comm b.rwxCount] else []
      let (msgs, t) := anonBaselineCheck x.1.pid x.1.comm b.anonExecCount x.1.jitAllowed t
      (rwx ++ msgs, t)

/-- `scan_protected_periodic`, given the listing and the answers of SCAN_BEGIN. -/
def scanListed (pl : AcProtList) (result : Nat → Option AcScanBegin) (t : AnonTable) :
    List WatchMsg × AnonTable :=
  collect scanResult (pl.withResults result) (anonBaselineForgetStale pl t)

theorem scanResult_eq : scanResult = scanCheck.visit := by
  funext x t
  rcases x with ⟨item, _ | b⟩
  · rfl
  · simp only [scanResult, GrowthCheck.visit, anonBaselineCheck_eq]
    congr 2

theorem scanListed_eq (p : ListedPass (Option AcScanBegin)) (t : AnonTable) :
    scanListed p.list p.result t = scanCheck.pass p t := by
  rw [scanListed, scanResult_eq]
  rfl

/-- The answer of SCAN_BEGIN for one item. -/
def scanBeginAnswer (item : AcProtItem) (a : ScanAttempt) (priv : Option AcFdState) :
    Option AcScanBegin :=
  match acIoctlSnap true (.scanBegin a.fdAlloc a.env item.pid false) priv with
  | (.ok (.scanBegun b), _) => some b
  | _ => none

/-- Scanning one item on the kernel model. -/
theorem scanItem_eq (item : AcProtItem) (a : ScanAttempt) (d : WatchDaemon) :
    ((scanItem item a d).1, (scanItem item a d).2.baseline) =
      scanResult (item, scanBeginAnswer item a d.priv) d.baseline := by
  unfold scanItem scanBeginAnswer
  split <;> simp_all [scanResult]

theorem scanItems_eq (items : List (AcProtItem × ScanAttempt)) (d : WatchDaemon) :
    ∃ results : List (Option AcScanBegin), results.length = items.length ∧
      ((scanItems items d).1, (scanItems items d).2.baseline) =
        collect scanResult ((items.map Prod.fst).zip results) d.baseline := by
  induction items generalizing d with
  | nil => exact ⟨[], rfl, rfl⟩
  | cons x items ih =>
      rcases ih (scanItem x.1 x.2 d).2 with ⟨results, hlen, hrest⟩
      refine ⟨scanBeginAnswer x.1 x.2 d.priv :: results, by simp [hlen], ?_⟩
      have hfirst := scanItem_eq x.1 x.2 d
      simp only [List.map_cons, List.zip_cons_cons, collect, ← hfirst, ← hrest]
      rfl

/-- A pass of the daemon on the kernel model is a pass with the answers of the kernel. -/
theorem scanProtectedPeriodic_eq {r : WatchRound} {pl : AcProtList} (hlist : r.list = some pl)
    (d : WatchDaemon) :
    ∃ result, (scanProtectedPeriodic r d).1 = some (scanListed pl result d.baseline).1 ∧
      (scanProtectedPeriodic r d).2.baseline = (scanListed pl result d.baseline).2 := by
  rcases scanItems_eq (r.items pl)
    { d with baseline := anonBaselineForgetStale pl d.baseline } with ⟨results, hlen, heq⟩
  have hitems : (r.items pl).map Prod.fst = pl.reported := pl.map_fst_withResults r.attempts
  have hzip : ((r.items pl).map Prod.fst).zip results =
      pl.withResults fun i => results[i]?.getD none := by
    rw [hitems]
    rw [← List.length_map Prod.fst, hitems] at hlen
    apply List.ext_getElem
    · simp [AcProtList.withResults, hlen]
    · intro i h₁ h₂
      have hi : i < results.length := by simp at h₁; omega
      simp [AcProtList.withResults, hi]
  rw [hzip] at heq
  refine ⟨fun i => results[i]?.getD none, ?_, ?_⟩
  · simp only [scanProtectedPeriodic, hlist]
    exact congrArg some (Prod.mk.inj heq).1
  · simp only [scanProtectedPeriodic, hlist]
    exact (Prod.mk.inj heq).2

/-! ## Implicit Vulkan layers -/

/-- `struct ac_implicit_layer` -/
structure AcImplicitLayer where
  name : CStr := []
  libraryPath : CStr := []
  disableEnv : CStr := []
deriving DecidableEq

/-- `AC_KNOWN_LAYER_PREFIXES` -/
def acKnownLayerPrefixes : List CStr :=
  [CStr.ascii "VK_LAYER_MANGOHUD", CStr.ascii "VK_LAYER_OBS_HOOK",
    CStr.ascii "VK_LAYER_OBS_hotkeys", CStr.ascii "VK_LAYER_VKBASALT",
    CStr.ascii "VK_LAYER_RENDERDOC", CStr.ascii "VK_LAYER_LATENCYFLEX",
    CStr.ascii "VK_LAYER_VALVE_steam_overlay", CStr.ascii "VK_LAYER_VALVE_steam_fossilize",
    CStr.ascii "VK_LAYER_GOOGLE_", CStr.ascii "VK_LAYER_KHRONOS_", CStr.ascii "VK_LAYER_MESA_",
    CStr.ascii "VK_LAYER_INTEL_", CStr.ascii "VK_LAYER_NV_", CStr.ascii "VK_LAYER_AMD_"]

/-- `ac_layer_name_known` -/
def acLayerNameKnown (name : CStr) : Bool :=
  acKnownLayerPrefixes.any fun known => name.startsWith known

/-- The buffer with the names of the unknown layers, the length that they would need,
and their number. -/
structure UnknownLayers where
  names : CStr := []
  noff : Nat := 0
  unknown : Nat := 0
deriving DecidableEq

/-- The body of the loop that collects the names: `snprintf` writes what still fits. -/
def UnknownLayers.add (u : UnknownLayers) (layer : AcImplicitLayer) : UnknownLayers :=
  if acLayerNameKnown layer.name then u
  else
    let nm := if layer.name.isEmpty then CStr.ascii "(unnamed)" else layer.name
    let piece := (if u.unknown = 0 then [] else CStr.ascii ", ") ++ nm
    { names := if u.noff < 512 then u.names ++ CStr.bounded (512 - u.noff) piece else u.names
      noff := u.noff + piece.length
      unknown := u.unknown + 1 }

/-- The unknown ones among the active layers. -/
def unknownLayers (layers : List AcImplicitLayer) : UnknownLayers :=
  layers.foldl UnknownLayers.add {}

/-- The message of the implicit-layer check; its priority is `LOG_WARNING`. -/
structure LayerMsg where
  pid : Int
  comm : CStr
  unknown : Nat
  names : CStr
deriving DecidableEq

def LayerMsg.priority (_ : LayerMsg) : LogPriority :=
  .warning

/-- The text of the message, cut to the buffer of `logmsg`. -/
def LayerMsg.text (m : LayerMsg) : CStr :=
  CStr.bounded 512 (CStr.ascii "pid " ++ CStr.decimal m.pid ++ CStr.ascii " (" ++ m.comm ++
    CStr.ascii "): " ++ CStr.decimal m.unknown ++
    CStr.ascii " unrecognized implicit Vulkan layer(s) active (" ++ m.names ++
    CStr.ascii ") -- not in the known-overlay allowlist; informational only, " ++
    CStr.ascii "not a verdict on its own")

/-- The check of the active layers of one process. -/
def layerCheck : GrowthCheck (List AcImplicitLayer) LayerMsg where
  count layers := (unknownLayers layers).unknown
  always _ _ := []
  grown item layers _ :=
    { pid := item.pid, comm := item.comm, unknown := (unknownLayers layers).unknown
      names := (unknownLayers layers).names }

/-- `implicit_layer_baseline_forget_stale`; the table is of the same kind as
`g_anon_baseline`. -/
def implicitLayerBaselineForgetStale (pl : AcProtList) (t : AnonTable) : AnonTable :=
  anonBaselineForgetStale pl t

/-- `check_implicit_layers_periodic`, given the listing and the active layers of each
process, `none` where they could not be determined. -/
def checkImplicitLayersPeriodic (pl : AcProtList) (result : Nat → Option (List AcImplicitLayer))
    (t : AnonTable) : List LayerMsg × AnonTable :=
  collect layerCheck.visit (pl.withResults result) (implicitLayerBaselineForgetStale pl t)

/-! ## Both tables -/

/-- `g_anon_baseline` after a sequence of passes. -/
def anonBaselineAfter (ps : List (ListedPass (Option AcScanBegin))) : AnonTable :=
  ps.foldl (fun t p => (scanListed p.list p.result t).2) (SlotTable.replicate acMaxProts {})

/-- `g_implicit_layer_baseline` after a sequence of passes. -/
def implicitLayerBaselineAfter (ps : List (ListedPass (Option (List AcImplicitLayer)))) :
    AnonTable :=
  ps.foldl (fun t p => (checkImplicitLayersPeriodic p.list p.result t).2)
    (SlotTable.replicate acMaxProts {})

theorem anonBaselineAfter_eq (ps : List (ListedPass (Option AcScanBegin))) :
    anonBaselineAfter ps = scanCheck.tableAfter ps := by
  simp only [anonBaselineAfter, GrowthCheck.tableAfter, scanListed_eq]

theorem scanCheck_always_not_growth (item : AcProtItem) (b : AcScanBegin) :
    ∀ msg ∈ scanCheck.always item b, ∀ pid, ¬msg.IsGrowthOf pid := by
  intro msg hmsg pid hgrowth
  simp only [scanCheck] at hmsg
  split at hmsg
  · rw [List.mem_singleton] at hmsg
    rw [hmsg] at hgrowth
    exact hgrowth
  · contradiction

theorem scanCheck_grown_crit_iff (item : AcProtItem) (b : AcScanBegin) (was : Nat) :
    (scanCheck.grown item b was).priority = .crit ↔ item.jitAllowed = false := by
  cases h : item.jitAllowed <;> simp [scanCheck, WatchMsg.priority, h]

/-- For every sequence of passes over listings of distinct pids, with any answers of the
scans: both tables obey the law of a growth table, and the growth of executable memory
without a file is logged at `LOG_CRIT` exactly if the process is not marked as one that
generates code. -/
theorem growth_tables_follow_listing (scans : List (ListedPass (Option AcScanBegin)))
    (scan : ListedPass (Option AcScanBegin))
    (layers : List (ListedPass (Option (List AcImplicitLayer))))
    (layer : ListedPass (Option (List AcImplicitLayer))) :
    GrowthLaw AcScanBegin.anonExecCount WatchMsg.IsGrowthOf scans scan
        (anonBaselineAfter (scans ++ [scan]))
        (scanListed scan.list scan.result (anonBaselineAfter scans)).1 ∧
      (∀ msg ∈ (scanListed scan.list scan.result (anonBaselineAfter scans)).1,
        ∀ item ∈ scan.list.reported, msg.IsGrowthOf item.pid →
          (msg.priority = .crit ↔ item.jitAllowed = false)) ∧
      GrowthLaw (fun ls => (unknownLayers ls).unknown) (fun pid msg => LayerMsg.pid msg = pid)
        layers layer (implicitLayerBaselineAfter (layers ++ [layer]))
        (checkImplicitLayersPeriodic layer.list layer.result
          (implicitLayerBaselineAfter layers)).1 := by
  rw [anonBaselineAfter_eq, anonBaselineAfter_eq, scanListed_eq]
  refine ⟨scanCheck.law scanCheck_always_not_growth (fun _ _ _ _ => Iff.rfl) scans scan, ?_,
    layerCheck.law (fun _ _ _ h => absurd h List.not_mem_nil) (fun _ _ _ _ => Iff.rfl) layers layer⟩
  intro msg hmsg item hitem hgrowth
  rcases (scanCheck.mem_pass_iff scans scan msg).1 hmsg with
    ⟨x, hx, b, -, hin | ⟨was, -, -, rfl⟩⟩
  · exact absurd hgrowth (scanCheck_always_not_growth _ _ msg hin _)
  · -- the pids of the listing are distinct, so the message is about this very item
    have hmem : x.1 ∈ scan.list.reported := by
      rw [← scan.list.map_fst_withResults scan.result]
      exact List.mem_map_of_mem hx
    have hsame : x.1 = item := List.inj_on_of_nodup_map scan.distinct hmem hitem hgrowth
    rw [← hsame]
    exact scanCheck_grown_crit_iff x.1 b was

end Anticheat
