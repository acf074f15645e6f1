import Anticheat.Daemon.Environ
import Anticheat.Daemon.GrowthTables

/-!
# Warnings about the environment

Two periodic checks warn about variables in the environment of a protected process,
`check_ld_preload_periodic` about `LD_PRELOAD` and `check_vk_layers_periodic` about the
variables that enable Vulkan layers.  Both keep a table of pids that they are done
with, from which unlisted pids are dropped.  The environment of a process changes when
it executes another program, so that a variable can appear while the pid stays listed.

The first check is done with a pid once it has warned about it.  The second is done
with it once it has read its environment, whether it found a variable or not.

Main results:

- Theorem {lit}`WarnCheck.mem_pass_iff`: what such a check logs, over every sequence of
  passes.
- Theorem {lit}`env_warnings_once_iff`: when both checks warn about a pid exactly in
  the first pass that finds a variable.
-/

namespace Anticheat

open Foundation

/-! ## The tables of pids that are done -/

/-- `struct ac_preload_warned`, and `struct ac_vklayer_warned` -/
structure AcWarned where
  pid : Int := 0
  inUse : Bool := false
deriving DecidableEq

/-- The pid that a slot in use belongs to. -/
def AcWarned.owner (s : AcWarned) : Option Int :=
  if s.inUse then some s.pid else none

/-- `g_preload_warned`, and `g_vklayer_warned` -/
abbrev WarnedTable := SlotTable AcWarned acMaxProts

/-- Drop the pids that are not listed. -/
def warnedForgetStale (pl : AcProtList) (t : WarnedTable) : WarnedTable :=
  t.release AcWarned.owner (fun s => { s with inUse := false })
    fun pid => pl.reported.any fun item => item.pid == pid

/-- A slot in use has the pid. -/
def alreadyWarned (pid : Int) (t : WarnedTable) : Bool :=
  t.slots.any fun s => s.inUse && s.pid == pid

/-- Leave the slot of the pid as it is, or else fill the first free slot. -/
def markWarned (pid : Int) (t : WarnedTable) : WarnedTable :=
  t.upsert AcWarned.owner pid id { pid := pid, inUse := true }

/-- `preload_warned_forget_stale` -/
def preloadWarnedForgetStale : AcProtList → WarnedTable → WarnedTable := warnedForgetStale

/-- `preload_already_warned` -/
def preloadAlreadyWarned : Int → WarnedTable → Bool := alreadyWarned

/-- `preload_mark_warned` -/
def preloadMarkWarned : Int → WarnedTable → WarnedTable := markWarned

/-- `vklayer_warned_forget_stale` -/
def vklayerWarnedForgetStale : AcProtList → WarnedTable → WarnedTable := warnedForgetStale

/-- `vklayer_already_warned` -/
def vklayerAlreadyWarned : Int → WarnedTable → Bool := alreadyWarned

/-- `vklayer_mark_warned` -/
def vklayerMarkWarned : Int → WarnedTable → WarnedTable := markWarned

/-! ## The checks -/

/-- The messages of the two checks; their priority is `LOG_WARNING`. -/
inductive EnvMsg where
  | ldPreload (pid : Int) (comm val : CStr)
  | vkLayer (pid : Int) (comm name value : CStr)
deriving DecidableEq

def EnvMsg.pid : EnvMsg → Int
  | ldPreload pid _ _ => pid
  | vkLayer pid _ _ _ => pid

def EnvMsg.priority (_ : EnvMsg) : LogPriority :=
  .warning

/-- The text of a message, cut to the buffer of `logmsg`. -/
def EnvMsg.text : EnvMsg → CStr
  | ldPreload pid comm val =>
      CStr.bounded 512 (CStr.ascii "pid " ++ CStr.decimal pid ++ CStr.ascii " (" ++ comm ++
        CStr.ascii "): LD_PRELOAD=" ++ val ++
        CStr.ascii " set at exec -- common for legitimate overlay/compat tools (MangoHud, " ++
        CStr.ascii "gamemode, gamescope) as well as library-injection hooking; " ++
        CStr.ascii "informational only, not a verdict on its own")
  | vkLayer pid comm name value =>
      CStr.bounded 512 (CStr.ascii "pid " ++ CStr.decimal pid ++ CStr.ascii " (" ++ comm ++
        CStr.ascii "): " ++ name ++ CStr.ascii "=" ++ value ++
        CStr.ascii " set at exec -- common for legitimate overlay tools (MangoHud) as well " ++
        CStr.ascii "as Vulkan-layer-based hooking; informational only, not a verdict on its own")

/-- `AC_VK_LAYER_ENV_VARS` -/
def acVkLayerEnvVars : List CStr :=
  [CStr.ascii "VK_INSTANCE_LAYERS", CStr.ascii "VK_LOADER_LAYERS_ENABLE",
    CStr.ascii "VK_LAYER_PATH", CStr.ascii "VK_ADD_LAYER_PATH"]

/-- The body of the loop of `check_ld_preload_periodic`. -/
def checkLdPreloadItem (x : AcProtItem × EnvironIo) (t : WarnedTable) :
    List EnvMsg × WarnedTable :=
  if preloadAlreadyWarned x.1.pid t then ([], t)
  else
    match acReadLdPreload x.2 512 with
    | .set val => ([.ldPreload x.1.pid x.1.comm val], preloadMarkWarned x.1.pid t)
    | _ => ([], t)

/-- `check_ld_preload_periodic`, given the listing and the environments. -/
def checkLdPreloadPeriodic (pl : AcProtList) (environ : Nat → EnvironIo) (t : WarnedTable) :
    List EnvMsg × WarnedTable :=
  collect checkLdPreloadItem (pl.withResults environ) (preloadWarnedForgetStale pl t)

/-- The messages about the variables that were found. -/
def vkLayerMsgs (item : AcProtItem) (vars : List AcEnvironQuery) : List EnvMsg :=
  (vars.filter AcEnvironQuery.found).map fun q => .vkLayer item.pid item.comm q.name q.value

/-- The body of the loop of `check_vk_layers_periodic`.  The pid is marked also when
no variable was found. -/
def checkVkLayersItem (x : AcProtItem × EnvironIo) (t : WarnedTable) :
    List EnvMsg × WarnedTable :=
  if vklayerAlreadyWarned x.1.pid t then ([], t)
  else
    match acReadEnvironVars x.2 (environQueries acVkLayerEnvVars) with
    | (.ok, vars) => (vkLayerMsgs x.1 vars, vklayerMarkWarned x.1.pid t)
    | _ => ([], t)

/-- `check_vk_layers_periodic`, given the listing and the environments. -/
def checkVkLayersPeriodic (pl : AcProtList) (environ : Nat → EnvironIo) (t : WarnedTable) :
    List EnvMsg × WarnedTable :=
  collect checkVkLayersItem (pl.withResults environ) (vklayerWarnedForgetStale pl t)

/-! ## The law of the warnings -/

/-- The table after a sequence of passes. -/
def warnedAfter (pass : ListedPass EnvironIo → WarnedTable → List EnvMsg × WarnedTable)
    (ps : List (ListedPass EnvironIo)) : WarnedTable :=
  ps.foldl (fun t p => (pass p t).2) (SlotTable.replicate acMaxProts {})

/-- The pid is listed and its environment satisfies `f`. -/
def ListedPass.Meets (p : ListedPass EnvironIo) (f : EnvironIo → Bool) (pid : Int) : Prop :=
  ∃ io, p.resultOf pid = some io ∧ f io = true

/-- In every pass of a run: a warning about a pid is logged exactly if the environment
of the pid has one of the variables, and had none in any earlier pass since which the
pid has stayed listed. -/
def WarnsOnce (pass : ListedPass EnvironIo → WarnedTable → List EnvMsg × WarnedTable)
    (names : List CStr) (ps : List (ListedPass EnvironIo)) : Prop :=
  ps |> AtEach fun before p => ∀ pid,
    (∃ msg ∈ (pass p (warnedAfter pass before)).1, msg.pid = pid) ↔
      p.Meets (fun io => io.finds names) pid ∧
        ¬Since (fun q => q.Meets (fun io => io.finds names) pid) (fun q => q.Lists pid) before

/-- In every pass of a run: if a variable is found for a pid that was marked in an
earlier pass since which it has stayed listed, then a variable was found in such an
earlier pass, too. -/
def NoEarlyMark (marks : EnvironIo → Bool) (names : List CStr)
    (ps : List (ListedPass EnvironIo)) : Prop :=
  ps |> AtEach fun before p => ∀ pid,
    p.Meets (fun io => io.finds names) pid →
    Since (fun q => q.Meets marks pid) (fun q => q.Lists pid) before →
    Since (fun q => q.Meets (fun io => io.finds names) pid) (fun q => q.Lists pid) before

/-! ## What a check does over a run -/

theorem ListedPass.meets_iff (p : ListedPass EnvironIo) (f : EnvironIo → Bool) (pid : Int) :
    p.Meets f pid ↔ ∃ x ∈ p.items, x.1.pid = pid ∧ f x.2 = true := by
  simp only [ListedPass.Meets, p.resultOf_eq_some_iff]
  constructor
  · rintro ⟨io, ⟨x, hx, hpid, rfl⟩, hf⟩
    exact ⟨x, hx, hpid, hf⟩
  · rintro ⟨x, hx, hpid, hf⟩
    exact ⟨x.2, ⟨x, hx, hpid, rfl⟩, hf⟩

theorem AcWarned.owner_eq_some_iff {s : AcWarned} {pid : Int} :
    s.owner = some pid ↔ s.inUse = true ∧ s.pid = pid := by
  unfold AcWarned.owner
  cases s.inUse <;> simp

/-- A table as a set of pids. -/
theorem alreadyWarned_eq {t : WarnedTable} {m : Int → Option Unit}
    (h : SlotTable.Refines AcWarned.owner (fun _ => ()) t m) (pid : Int) :
    alreadyWarned pid t = (m pid).isSome := by
  rw [Bool.eq_iff_iff, ← h.map_eq, SlotTable.toMap_isSome_iff, alreadyWarned,
    SlotTable.occupied, List.mem_filterMap, List.any_eq_true]
  refine exists_congr fun s => and_congr_right fun _ => ?_
  rw [AcWarned.owner_eq_some_iff]
  simp

/-- What distinguishes the checks: the messages about an environment, and whether the
check is then done with the pid. -/
structure WarnCheck where
  msgs : AcProtItem → EnvironIo → List EnvMsg
  marks : EnvironIo → Bool

namespace WarnCheck

variable (c : WarnCheck)

def visit (x : AcProtItem × EnvironIo) (t : WarnedTable) : List EnvMsg × WarnedTable :=
  if alreadyWarned x.1.pid t then ([], t)
  else (c.msgs x.1 x.2, if c.marks x.2 then markWarned x.1.pid t else t)

def pass (p : ListedPass EnvironIo) (t : WarnedTable) : List EnvMsg × WarnedTable :=
  collect c.visit p.items (warnedForgetStale p.list t)

/-- A check as a table that follows the listing. -/
def table : PassTable (ListedPass EnvironIo) (AcProtItem × EnvironIo) AcWarned Int Unit EnvMsg
    acMaxProts where
  slotKey := AcWarned.owner
  slotVal _ := ()
  empty := {}
  items := ListedPass.items
  itemKey x := x.1.pid
  stores x := if c.marks x.2 then some () else none
  emits x done := if done.isSome then [] else c.msgs x.1 x.2
  forget p := warnedForgetStale p.list
  visit := c.visit
  empty_free := rfl
  distinct := ListedPass.distinct_items
  few := ListedPass.length_items_le
  forget_refines := by
    intro t m h p
    have hfree : ∀ s : AcWarned, AcWarned.owner { s with inUse := false } = none := fun _ => rfl
    have href := h.release hfree fun pid => p.list.reported.any fun item => item.pid == pid
    simp only [p.any_pid_iff] at href
    exact href
  visit_refines := by
    intro t m h x hroom
    unfold visit
    rw [alreadyWarned_eq h]
    cases hdone : m x.1.pid with
    | some u =>
        refine ⟨rfl, h.nodup, h.map_eq.trans ?_⟩
        funext pid
        by_cases hpid : pid = x.1.pid
        · simp [hpid, hdone]
        · simp [hpid]
    | none =>
        refine ⟨rfl, ?_⟩
        cases hmark : c.marks x.2 with
        | false =>
            refine ⟨h.nodup, h.map_eq.trans ?_⟩
            simp [← hdone]
        | true => exact h.upsert (fun _ => rfl) (fun _ => rfl) rfl hroom

theorem table_outcome (p : ListedPass EnvironIo) (pid : Int) :
    c.table.outcome p pid =
      (p.resultOf pid).map fun io => if c.marks io then some () else none := by
  rw [PassTable.outcome, ListedPass.resultOf, Option.map_map]
  rfl

/-- The check is done with a pid exactly if a pass marked it and it has been listed ever
since. -/
theorem remembered_isSome_iff (ps : List (ListedPass EnvironIo)) (pid : Int) :
    (c.table.remembered ps pid).isSome ↔
      Since (fun p => p.Meets c.marks pid) (fun p => p.Lists pid) ps := by
  rw [← since_and_not_iff, Option.isSome_iff_exists]
  simp only [PassTable.remembered_eq_some_iff, Unique.exists_iff]
  have hmark : ∀ p, c.table.outcome p pid = some (some default) ↔ p.Meets c.marks pid := by
    intro p
    rw [c.table_outcome, ListedPass.Meets]
    cases p.resultOf pid with
    | none => simp
    | some io => simp
  have hpass : ∀ p, c.table.outcome p pid = some none ↔
      p.Lists pid ∧ ¬p.Meets c.marks pid := by
    intro p
    rw [c.table_outcome, ListedPass.Meets, p.lists_iff]
    cases p.resultOf pid with
    | none => simp
    | some io => simp
  simp only [hmark, hpass]

/-- Which messages a pass logs. -/
theorem mem_pass_iff (ps : List (ListedPass EnvironIo)) (p : ListedPass EnvironIo)
    (msg : EnvMsg) :
    msg ∈ (c.pass p (warnedAfter c.pass ps)).1 ↔ ∃ x ∈ p.items, msg ∈ c.msgs x.1 x.2 ∧
      ¬Since (fun q => q.Meets c.marks x.1.pid) (fun q => q.Lists x.1.pid) ps := by
  have hmsgs : (c.pass p (warnedAfter c.pass ps)).1 = _ := c.table.pass_messages ps p
  rw [hmsgs, List.mem_flatMap]
  refine exists_congr fun x => and_congr_right fun _ => ?_
  rw [← c.remembered_isSome_iff]
  change msg ∈ (if (c.table.remembered ps x.1.pid).isSome then [] else c.msgs x.1 x.2) ↔ _
  cases (c.table.remembered ps x.1.pid).isSome with
  | true => simp
  | false => simp

/-- Messages about a pid are logged in a pass that finds a variable and comes before the
check is done with the pid. -/
theorem warns_iff {names : List CStr}
    (hmsgs : ∀ item io, c.msgs item io ≠ [] ↔ io.finds names = true)
    (hpid : ∀ item io, ∀ msg ∈ c.msgs item io, msg.pid = item.pid)
    (ps : List (ListedPass EnvironIo)) (p : ListedPass EnvironIo) (pid : Int) :
    (∃ msg ∈ (c.pass p (warnedAfter c.pass ps)).1, msg.pid = pid) ↔
      p.Meets (fun io => io.finds names) pid ∧
        ¬Since (fun q => q.Meets c.marks pid) (fun q => q.Lists pid) ps := by
  simp only [c.mem_pass_iff, p.meets_iff]
  constructor
  · rintro ⟨msg, ⟨x, hx, hmsg, hnot⟩, rfl⟩
    rw [hpid _ _ msg hmsg] at *
    exact ⟨⟨x, hx, rfl, (hmsgs _ _).1 (List.ne_nil_of_mem hmsg)⟩, hnot⟩
  · rintro ⟨⟨x, hx, rfl, hfinds⟩, hnot⟩
    rcases List.exists_mem_of_ne_nil _ ((hmsgs x.1 x.2).2 hfinds) with ⟨msg, hmsg⟩
    exact ⟨msg, ⟨x, hx, hmsg, hnot⟩, hpid _ _ msg hmsg⟩

/-- A check that marks at least the environments with a variable warns exactly in the
first pass that finds one, if no earlier pass has marked the pid for another reason. -/
theorem warnsOnce_iff {names : List CStr}
    (hmsgs : ∀ item io, c.msgs item io ≠ [] ↔ io.finds names = true)
    (hpid : ∀ item io, ∀ msg ∈ c.msgs item io, msg.pid = item.pid)
    (hmarks : ∀ io, io.finds names = true → c.marks io = true)
    (ps : List (ListedPass EnvironIo)) :
    WarnsOnce c.pass names ps ↔ NoEarlyMark c.marks names ps := by
  refine atEach_congr (fun before p => forall_congr' fun pid => ?_) ps
  rw [c.warns_iff hmsgs hpid, and_congr_right_iff]
  refine forall_congr' fun _ => ?_
  rw [not_iff_not]
  constructor
  · exact Iff.mp
  · intro h
    refine ⟨h, Since.mono ?_⟩
    rintro q ⟨io, hio, hfinds⟩
    exact ⟨io, hio, hmarks io hfinds⟩

end WarnCheck

/-! ## The two checks -/

/-- What `check_ld_preload_periodic` logs and when it is done with a pid. -/
def preloadCheck : WarnCheck where
  msgs item io :=
    match acReadLdPreload io 512 with
    | .set val => [.ldPreload item.pid item.comm val]
    | _ => []
  marks io := io.finds [CStr.ascii "LD_PRELOAD"]

/-- What `check_vk_layers_periodic` logs and when it is done with a pid. -/
def vkLayerCheck : WarnCheck where
  msgs item io :=
    match acReadEnvironVars io (environQueries acVkLayerEnvVars) with
    | (.ok, vars) => vkLayerMsgs item vars
    | _ => []
  marks io := io.readsOk acVkLayerEnvVars

theorem checkLdPreloadItem_eq : checkLdPreloadItem = preloadCheck.visit := by
  funext x t
  have hset := acReadLdPreload_eq_set_iff x.2 512
  unfold checkLdPreloadItem WarnCheck.visit preloadCheck preloadAlreadyWarned preloadMarkWarned
  simp only
  cases hread : acReadLdPreload x.2 512 with
  | set val =>
      have hfinds := hset.1 ⟨val, hread⟩
      simp [hfinds]
  | failed =>
      have hnot : x.2.finds [CStr.ascii "LD_PRELOAD"] = false := by
        rw [← Bool.not_eq_true, ← hset, hread]
        simp
      simp [hnot]
  | unset =>
      have hnot : x.2.finds [CStr.ascii "LD_PRELOAD"] = false := by
        rw [← Bool.not_eq_true, ← hset, hread]
        simp
      simp [hnot]

theorem checkVkLayersItem_eq : checkVkLayersItem = vkLayerCheck.visit := by
  funext x t
  unfold checkVkLayersItem WarnCheck.visit vkLayerCheck vklayerAlreadyWarned vklayerMarkWarned
    EnvironIo.readsOk
  rcases hread : acReadEnvironVars x.2 (environQueries acVkLayerEnvVars) with ⟨rc, vars⟩
  cases rc with
  | ok => simp [hread]
  | failed => simp [hread]
  | tooLong => simp [hread]

/-- A pass of the first check over a listing of distinct pids. -/
def preloadPass (p : ListedPass EnvironIo) (t : WarnedTable) : List EnvMsg × WarnedTable :=
  checkLdPreloadPeriodic p.list p.result t

/-- A pass of the second check over a listing of distinct pids. -/
def vkLayerPass (p : ListedPass EnvironIo) (t : WarnedTable) : List EnvMsg × WarnedTable :=
  checkVkLayersPeriodic p.list p.result t

theorem preloadPass_eq : preloadPass = preloadCheck.pass := by
  funext p t
  rw [preloadPass, checkLdPreloadPeriodic, checkLdPreloadItem_eq]
  rfl

theorem vkLayerPass_eq : vkLayerPass = vkLayerCheck.pass := by
  funext p t
  rw [vkLayerPass, checkVkLayersPeriodic, checkVkLayersItem_eq]
  rfl

/-- The first check warns once in every run. -/
theorem preload_warnsOnce (ps : List (ListedPass EnvironIo)) :
    WarnsOnce preloadPass [CStr.ascii "LD_PRELOAD"] ps := by
  rw [preloadPass_eq, preloadCheck.warnsOnce_iff ?_ ?_ (fun _ h => h)]
  · intro before p after _ pid _ hmarked
    exact hmarked
  · intro item io
    rw [← acReadLdPreload_eq_set_iff io 512]
    simp only [preloadCheck]
    cases acReadLdPreload io 512 with
    | set val => simp
    | failed => simp
    | unset => simp
  · intro item io msg hmsg
    simp only [preloadCheck] at hmsg
    cases hread : acReadLdPreload io 512 with
    | set val =>
        rw [hread, List.mem_singleton] at hmsg
        rw [hmsg]
        rfl
    | failed => simp [hread] at hmsg
    | unset => simp [hread] at hmsg

/-- The second check warns once in the runs in which it marks no pid too early. -/
theorem vkLayer_warnsOnce_iff (ps : List (ListedPass EnvironIo)) :
    WarnsOnce vkLayerPass acVkLayerEnvVars ps ↔
      NoEarlyMark (fun io => io.readsOk acVkLayerEnvVars) acVkLayerEnvVars ps := by
  rw [vkLayerPass_eq, vkLayerCheck.warnsOnce_iff ?_ ?_ (fun _ => EnvironIo.readsOk_of_finds)]
  · rfl
  · intro item io
    unfold EnvironIo.finds EnvironIo.readsOk
    simp only [vkLayerCheck, vkLayerMsgs]
    rcases acReadEnvironVars io (environQueries acVkLayerEnvVars) with ⟨rc, vars⟩
    cases rc with
    | ok => simp
    | failed => simp
    | tooLong => simp
  · intro item io msg hmsg
    simp only [vkLayerCheck, vkLayerMsgs] at hmsg
    rcases hread : acReadEnvironVars io (environQueries acVkLayerEnvVars) with ⟨rc, vars⟩
    rw [hread] at hmsg
    cases rc with
    | ok =>
        rcases List.mem_map.1 hmsg with ⟨q, -, rfl⟩
        rfl
    | failed => contradiction
    | tooLong => contradiction

/-- For every two sequences of passes over listings of distinct pids, with environments
that may change between passes: both checks warn about a pid exactly in the first pass
of a listing period that finds a variable, if and only if the Vulkan check never reads
an environment without a variable before one with a variable in the same period. -/
theorem env_warnings_once_iff (preloads layers : List (ListedPass EnvironIo)) :
    (WarnsOnce preloadPass [CStr.ascii "LD_PRELOAD"] preloads ∧
        WarnsOnce vkLayerPass acVkLayerEnvVars layers) ↔
      NoEarlyMark (fun io => io.readsOk acVkLayerEnvVars) acVkLayerEnvVars layers := by
  rw [vkLayer_warnsOnce_iff]
  exact and_iff_right (preload_warnsOnce preloads)

/-! ## A variable that appears after the first pass -/

/-- An environment that can be read at once. -/
def environOf (text : String) : EnvironIo :=
  { opens := true, alloc := true, file := CStr.ascii text ++ [0], reads := fun _ => some 4096 }

/-- A pass over one process with the given environment. -/
def environPass (io : EnvironIo) : ListedPass EnvironIo where
  list := { count := 1, items := SlotTable.replicate acMaxProts { pid := 9 } }
  distinct := by decide
  result _ := io

/-- A process that was forked from a protected one has no Vulkan variable when it is
first seen; it then executes a program with one.  No pass warns about it. -/
theorem late_layer_variable_not_reported :
    ¬WarnsOnce vkLayerPass acVkLayerEnvVars
      [environPass (environOf "HOME=/root"), environPass (environOf "VK_LAYER_PATH=/tmp")] := by
  rw [vkLayer_warnsOnce_iff]
  intro h
  have hearlier := h [_] _ [] rfl 9 ⟨_, rfl, by decide +kernel⟩
    ⟨[], _, [], rfl, ⟨_, rfl, by decide +kernel⟩, by simp⟩
  rw [show ([environPass (environOf "HOME=/root")] : List _) = [] ++ [_] from rfl,
    since_concat] at hearlier
  rcases hearlier with ⟨io, hio, hfinds⟩ | ⟨-, hnil⟩
  · cases hio
    exact absurd hfinds (by decide +kernel)
  · exact not_since_nil hnil

end Anticheat
