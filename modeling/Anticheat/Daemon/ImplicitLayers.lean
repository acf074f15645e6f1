import Anticheat.Daemon.Environ
import Anticheat.Daemon.Manifest
import Anticheat.Foundation.CappedList

/-!
# The active implicit layers of a process

`ac_scan_active_implicit_layers` collects the layers of six directories into a buffer of
64 entries and then leaves out those that the process has disabled through a variable of
its environment.  The buffer is filled before the disabled layers are left out, so that
disabled layers take the place of active ones.

Main results:

- Theorem {lit}`acScanActiveImplicitLayers_eq`: what the function returns.
- Theorem {lit}`active_layers_complete_iff`: it returns the active layers exactly when
  none of them stands behind 64 others and no variable is hidden by an empty entry.
- Theorem {lit}`disabled_layers_add_nothing`: where it does so, more disabled layers do
  not change the result.
- Theorem {lit}`disabled_manifests_hide_layer`: 64 disabled layers in front hide an active
  one.
-/

namespace Anticheat

open Foundation

/-! ## The functions -/

/-- `AC_MANIFEST_MAX_BYTES` -/
def acManifestMaxBytes : Nat := 64 * 1024

/-- `AC_MAX_IMPLICIT_LAYERS` -/
def acMaxImplicitLayers : Nat := 64

/-- What the scan meets: the entries of each directory in the order of `readdir` and the
content of each file, `none` where it does not open; whether the buffer for a file is
allocated; and the number of bytes that reading it hands out, `none` if that fails. -/
structure LayerFs where
  names : CStr → Option (List CStr)
  content : CStr → Option (List UInt8)
  alloc : CStr → Bool
  granted : CStr → Option Nat

/-- The bytes of one manifest, from a single read. -/
def LayerFs.read (fs : LayerFs) (path : CStr) : Option (List UInt8) := do
  let content ← fs.content path
  guard (fs.alloc path)
  let n ← fs.granted path
  let buf := content.take (min n (acManifestMaxBytes - 1))
  guard (buf ≠ [])
  return buf

/-- The layer that a manifest describes; it has to have a name and a library. -/
def parseManifest (buf : List UInt8) : Option AcImplicitLayer := do
  let name ← jsonExtractString buf (CStr.ascii "name") acManifestStrLen
  let libraryPath ← jsonExtractString buf (CStr.ascii "library_path") acManifestStrLen
  -- the record is cleared before, so that a variable that is not found is empty
  let disableEnv := (jsonExtractDisableEnv buf acManifestStrLen).getD []
  return { name := name, libraryPath := libraryPath, disableEnv := disableEnv }

/-- The layer of one directory entry. -/
def LayerFs.layer (fs : LayerFs) (dir name : CStr) : Option AcImplicitLayer := do
  guard (5 ≤ name.length ∧ name.drop (name.length - 5) = CStr.ascii ".json")
  let buf ← fs.read (CStr.bounded pathMax (dir ++ CStr.ascii "/" ++ name))
  parseManifest buf

/-- `ac_scan_implicit_layer_dir` -/
def acScanImplicitLayerDir (fs : LayerFs) (dir : CStr) (layers : List AcImplicitLayer) :
    List AcImplicitLayer :=
  match fs.names dir with
  | none => layers
  | some names => collectUpTo acMaxImplicitLayers (fs.layer dir) names layers

/-- The directories that are scanned, given what `ac_resolve_pid_home` finds. -/
def implicitLayerDirs (home : Option CStr) : List CStr :=
  (match home with
  | none => []
  | some home =>
      [CStr.bounded (pathMax + 64) (home ++ CStr.ascii "/.config/vulkan/implicit_layer.d"),
        CStr.bounded (pathMax + 64) (home ++ CStr.ascii "/.local/share/vulkan/implicit_layer.d")]) ++
  [CStr.ascii "/etc/vulkan/implicit_layer.d", CStr.ascii "/usr/local/etc/vulkan/implicit_layer.d",
    CStr.ascii "/usr/share/vulkan/implicit_layer.d",
    CStr.ascii "/usr/local/share/vulkan/implicit_layer.d"]

/-- A layer is left out if its variable is found in the environment of the process. -/
def keepLayer (io : EnvironIo) (layer : AcImplicitLayer) : Bool :=
  layer.disableEnv.isEmpty || !io.finds [layer.disableEnv]

/-- `ac_scan_active_implicit_layers` -/
def acScanActiveImplicitLayers (fs : LayerFs) (home : Option CStr) (io : EnvironIo)
    (outcap : Nat) : List AcImplicitLayer :=
  let found := (implicitLayerDirs home).foldl
    (fun layers dir => acScanImplicitLayerDir fs dir layers) []
  collectUpTo outcap (Option.guard (keepLayer io)) found []

/-- What `check_implicit_layers` prints. -/
inductive LayerLine where
  | noneActive
  | layer (name libraryPath : CStr) (known : Bool)
  | note
deriving DecidableEq

/-- The line for one layer. -/
def layerLine (layer : AcImplicitLayer) : LayerLine :=
  .layer (if layer.name.isEmpty then CStr.ascii "(unnamed)" else layer.name)
    (if layer.libraryPath.isEmpty then CStr.ascii "(no library_path)" else layer.libraryPath)
    (acLayerNameKnown layer.name)

/-- `check_implicit_layers`: what it prints and what it returns. -/
def checkImplicitLayers (fs : LayerFs) (home : Option CStr) (io : EnvironIo) :
    List LayerLine × Int :=
  let layers := acScanActiveImplicitLayers fs home io acMaxImplicitLayers
  if layers.isEmpty then ([.noneActive], 0)
  else
    let unknown := layers.countP fun layer => !acLayerNameKnown layer.name
    (layers.map layerLine ++ [.note], if unknown > 0 then 1 else 0)

/-! ## What it should return -/

/-- A manifest as it is written is taken as its record; behind a decoy, as a layer that
cannot be disabled. -/
theorem parseManifest_manifestText (ws : Nat → Quoted.Gap) (r : LayerRecord) :
    parseManifest (manifestText ws r) = some
      { name := CStr.bounded acManifestStrLen r.name
        libraryPath := CStr.bounded acManifestStrLen r.libraryPath
        disableEnv :=
          if ∃ s ∈ [r.name, r.libraryPath, r.description],
            Quoted.Decoy (CStr.ascii "disable_environment") s
          then [] else CStr.bounded acManifestStrLen r.disableEnv } := by
  simp only [parseManifest, jsonExtractString_name, jsonExtractString_libraryPath,
    jsonExtractDisableEnv_manifest]
  split <;> rfl

/-- All layers of the directories, in the order of the scan. -/
def LayerFs.layers (fs : LayerFs) (home : Option CStr) : List AcImplicitLayer :=
  (implicitLayerDirs home).flatMap fun dir => ((fs.names dir).getD []).filterMap (fs.layer dir)

/-- A layer is active unless it has a disable variable, the environment can be read and an
entry sets the variable. -/
def isActive (io : EnvironIo) (entries : List CStr) (layer : AcImplicitLayer) : Bool :=
  layer.disableEnv.isEmpty || !decide io.ReadsAll || !entries.any (Sets layer.disableEnv)

/-- The function filters the first 64 layers. -/
theorem acScanActiveImplicitLayers_eq (fs : LayerFs) (home : Option CStr) (io : EnvironIo)
    (outcap : Nat) :
    acScanActiveImplicitLayers fs home io outcap =
      (((fs.layers home).take acMaxImplicitLayers).filter (keepLayer io)).take outcap := by
  have hdir (layers : List AcImplicitLayer) (dir : CStr) :
      acScanImplicitLayerDir fs dir layers =
        collectUpTo acMaxImplicitLayers (fs.layer dir) ((fs.names dir).getD []) layers := by
    rw [acScanImplicitLayerDir]
    cases fs.names dir with
    | none => rfl
    | some names => rfl
  simp only [acScanActiveImplicitLayers, hdir]
  rw [foldl_collectUpTo fs.layer (fun dir => (fs.names dir).getD []) _ (Nat.zero_le _),
    collectUpTo_eq _ _ (Nat.zero_le _), List.filterMap_eq_filter, List.nil_append,
    List.nil_append, LayerFs.layers]

section

variable {io : EnvironIo} {entries : List CStr}

/-- The code's test differs from the activity of a layer only by what an empty entry
hides. -/
theorem keepLayer_eq_false_iff (hnul : ∀ e ∈ entries, (0 : UInt8) ∉ e)
    (hfile : io.file = environText entries) (layer : AcImplicitLayer) :
    keepLayer io layer = false ↔
      layer.disableEnv ≠ [] ∧ io.ReadsAll ∧
        (entries.takeWhile fun e => !e.isEmpty).any (Sets layer.disableEnv) = true := by
  rw [keepLayer, Bool.or_eq_false_iff, Bool.not_eq_false', EnvironIo.finds_singleton_iff hnul hfile,
    List.isEmpty_eq_false_iff]

theorem isActive_eq_false_iff (layer : AcImplicitLayer) :
    isActive io entries layer = false ↔
      layer.disableEnv ≠ [] ∧ io.ReadsAll ∧ entries.any (Sets layer.disableEnv) = true := by
  simp [isActive, and_assoc]

theorem keepLayer_of_isActive (hnul : ∀ e ∈ entries, (0 : UInt8) ∉ e)
    (hfile : io.file = environText entries) (layer : AcImplicitLayer)
    (hactive : isActive io entries layer = true) : keepLayer io layer = true := by
  by_contra hkeep
  rw [Bool.not_eq_true, keepLayer_eq_false_iff hnul hfile] at hkeep
  obtain ⟨hvar, hreads, hset⟩ := hkeep
  obtain ⟨e, he, hsets⟩ := List.any_eq_true.mp hset
  have hall : entries.any (Sets layer.disableEnv) = true :=
    List.any_eq_true.mpr ⟨e, (List.takeWhile_subset _) he, hsets⟩
  rw [(isActive_eq_false_iff layer).mpr ⟨hvar, hreads, hall⟩] at hactive
  contradiction

/-- The function returns the active layers exactly if none of them stands behind the first
64 layers and no variable of a disabled one of those is hidden. -/
theorem returns_active_iff (hnul : ∀ e ∈ entries, (0 : UInt8) ∉ e)
    (hfile : io.file = environText entries) (fs : LayerFs) (home : Option CStr) :
    acScanActiveImplicitLayers fs home io acMaxImplicitLayers =
        (fs.layers home).filter (isActive io entries) ↔
      (∀ layer ∈ (fs.layers home).take acMaxImplicitLayers,
        isActive io entries layer = false →
          ∃ e ∈ entries.takeWhile fun e => !e.isEmpty, Sets layer.disableEnv e = true) ∧
      ∀ layer ∈ (fs.layers home).drop acMaxImplicitLayers, isActive io entries layer = false := by
  have hshort : (((fs.layers home).take acMaxImplicitLayers).filter (keepLayer io)).length ≤
      acMaxImplicitLayers :=
    (List.length_filter_le _ _).trans (List.length_take_le _ _)
  have hhidden (layer : AcImplicitLayer) (hactive : isActive io entries layer = false) :
      keepLayer io layer = false ↔
        ∃ e ∈ entries.takeWhile fun e => !e.isEmpty, Sets layer.disableEnv e = true := by
    obtain ⟨hvar, hreads, -⟩ := (isActive_eq_false_iff layer).mp hactive
    rw [keepLayer_eq_false_iff hnul hfile, and_iff_right hvar, and_iff_right hreads,
      List.any_eq_true]
  rw [acScanActiveImplicitLayers_eq, List.take_of_length_le hshort,
    filter_take_eq_filter_iff (keepLayer_of_isActive hnul hfile)]
  refine and_congr_left fun _ => ?_
  exact forall₂_congr fun layer _ => imp_congr_right (hhidden layer)

/-- Up to 64 layers in all, and with no empty entry in the environment, the active layers
are returned. -/
theorem returns_active_of_le (hnul : ∀ e ∈ entries, (0 : UInt8) ∉ e)
    (hfile : io.file = environText entries) (hempty : [] ∉ entries) {fs : LayerFs}
    {home : Option CStr} (hle : (fs.layers home).length ≤ acMaxImplicitLayers) :
    acScanActiveImplicitLayers fs home io acMaxImplicitLayers =
      (fs.layers home).filter (isActive io entries) := by
  rw [returns_active_iff hnul hfile, List.drop_eq_nil_of_le hle]
  refine ⟨fun layer _ hactive => ?_, fun layer hmem => absurd hmem List.not_mem_nil⟩
  have hall : (entries.takeWhile fun e => !e.isEmpty) = entries := by
    rw [List.takeWhile_eq_self_iff]
    intro e he
    cases e with
    | nil => exact absurd he hempty
    | cons c e => rfl
  rw [hall]
  exact List.any_eq_true.mp ((isActive_eq_false_iff layer).mp hactive).2.2

/-- Up to there, more disabled layers do not change the result. -/
theorem disabled_layers_add_nothing (hnul : ∀ e ∈ entries, (0 : UInt8) ∉ e)
    (hfile : io.file = environText entries) (hempty : [] ∉ entries) {fs fs' : LayerFs}
    {home : Option CStr} (hadd : (fs.layers home).Sublist (fs'.layers home))
    (hdisabled : (fs'.layers home).filter (isActive io entries) =
      (fs.layers home).filter (isActive io entries))
    (hle : (fs'.layers home).length ≤ acMaxImplicitLayers) :
    acScanActiveImplicitLayers fs' home io acMaxImplicitLayers =
      acScanActiveImplicitLayers fs home io acMaxImplicitLayers := by
  rw [returns_active_of_le hnul hfile hempty hle, hdisabled,
    returns_active_of_le hnul hfile hempty (hadd.length_le.trans hle)]

/-- There, the command returns 1 exactly if an active layer has a name that is not known. -/
theorem checkImplicitLayers_eq_one_iff (hnul : ∀ e ∈ entries, (0 : UInt8) ∉ e)
    (hfile : io.file = environText entries) (hempty : [] ∉ entries) {fs : LayerFs}
    {home : Option CStr} (hle : (fs.layers home).length ≤ acMaxImplicitLayers) :
    (checkImplicitLayers fs home io).2 = 1 ↔
      ∃ layer ∈ fs.layers home,
        isActive io entries layer = true ∧ acLayerNameKnown layer.name = false := by
  have hcount : (checkImplicitLayers fs home io).2 = 1 ↔
      ∃ layer ∈ acScanActiveImplicitLayers fs home io acMaxImplicitLayers,
        acLayerNameKnown layer.name = false := by
    unfold checkImplicitLayers
    cases acScanActiveImplicitLayers fs home io acMaxImplicitLayers with
    | nil => simp
    | cons layer layers =>
        simp only [List.isEmpty_cons, Bool.false_eq_true, if_false, gt_iff_lt,
          List.countP_pos_iff, Bool.not_eq_true', ite_eq_left_iff, zero_ne_one, imp_false, not_not]
  rw [hcount, returns_active_of_le hnul hfile hempty hle]
  simp only [List.mem_filter, and_assoc]

end

/-- If at most 64 layers are active, the function returns them exactly when none of them
stands behind the first 64 layers and every disabled one of those has its variable set
before the first empty entry of the environment. -/
theorem active_layers_complete_iff (fs : LayerFs) (home : Option CStr) (io : EnvironIo)
    (entries : List CStr) (hnul : ∀ e ∈ entries, (0 : UInt8) ∉ e)
    (hfile : io.file = environText entries) :
    (((fs.layers home).filter (isActive io entries)).length ≤ acMaxImplicitLayers →
        acScanActiveImplicitLayers fs home io acMaxImplicitLayers =
          (fs.layers home).filter (isActive io entries)) ↔
      (((fs.layers home).filter (isActive io entries)).length ≤ acMaxImplicitLayers →
        (∀ layer ∈ (fs.layers home).take acMaxImplicitLayers,
          isActive io entries layer = false →
            ∃ e ∈ entries.takeWhile fun e => !e.isEmpty, Sets layer.disableEnv e = true) ∧
        ∀ layer ∈ (fs.layers home).drop acMaxImplicitLayers,
          isActive io entries layer = false) :=
  imp_congr_right fun _ => returns_active_iff hnul hfile fs home

/-! ## A crowded directory -/

/-- A layer that hooks something and cannot be disabled. -/
def hookLayer : AcImplicitLayer where
  name := CStr.ascii "hook"
  libraryPath := CStr.ascii "/tmp/h.so"

/-- A layer that is disabled by the variable `NO_X`. -/
def fillerLayer : AcImplicitLayer where
  name := CStr.ascii "x"
  libraryPath := CStr.ascii "/x.so"
  disableEnv := CStr.ascii "NO_X"

/-- A directory with manifests of `n` layers that can be disabled and one that cannot. -/
def crowdedFs (n : Nat) : LayerFs where
  names dir :=
    if dir = CStr.ascii "/etc/vulkan/implicit_layer.d" then
      some ((List.range n).map (fun i => UInt8.ofNat (48 + i) :: CStr.ascii ".json") ++
        [CStr.ascii "z.json"])
    else none
  content path := some <|
    if path = CStr.ascii "/etc/vulkan/implicit_layer.d/z.json" then
      CStr.ascii "\x7b\"name\":\"hook\",\"library_path\":\"/tmp/h.so\"\x7d"
    else
      CStr.ascii "\x7b\"name\":\"x\",\"library_path\":\"/x.so\"," ++
        CStr.ascii "\"disable_environment\":\x7b\"NO_X\":\"1\"\x7d\x7d"
  alloc _ := true
  granted _ := some acManifestMaxBytes

/-- A process that has disabled the layers that can be disabled. -/
def noXEnviron : EnvironIo where
  opens := true
  alloc := true
  file := environText [CStr.ascii "NO_X=1"]
  reads := fun _ => some acEnvironBuf

theorem layers_crowdedFs :
    (crowdedFs 1).layers none = [fillerLayer, hookLayer] ∧
      (crowdedFs 64).layers none = List.replicate 64 fillerLayer ++ [hookLayer] := by
  decide +kernel

theorem noXEnviron_readsAll : noXEnviron.ReadsAll :=
  EnvironIo.Complete.readsAll ⟨rfl, rfl, fun _ => rfl⟩ (by decide)

theorem fillerLayer_not_isActive :
    isActive noXEnviron [CStr.ascii "NO_X=1"] fillerLayer = false :=
  (isActive_eq_false_iff fillerLayer).mpr ⟨by decide, noXEnviron_readsAll, by decide⟩

theorem keepLayer_fillerLayer : keepLayer noXEnviron fillerLayer = false :=
  (@keepLayer_eq_false_iff _ [CStr.ascii "NO_X=1"] (by decide) rfl fillerLayer).mpr
    ⟨by decide, noXEnviron_readsAll, by decide⟩

/-- Behind one disabled layer the hook is returned, and the other is not. -/
theorem hook_behind_one_returned :
    (crowdedFs 1).layers none = [fillerLayer, hookLayer] ∧
      acScanActiveImplicitLayers (crowdedFs 1) none noXEnviron acMaxImplicitLayers =
        [hookLayer] := by
  have hlayers := layers_crowdedFs.1
  have hhook : isActive noXEnviron [CStr.ascii "NO_X=1"] hookLayer = true := rfl
  have hactive : ((crowdedFs 1).layers none).filter
      (isActive noXEnviron [CStr.ascii "NO_X=1"]) = [hookLayer] := by
    rw [hlayers, List.filter_cons, fillerLayer_not_isActive]
    rfl
  refine ⟨hlayers, ?_⟩
  rw [← hactive]
  refine (active_layers_complete_iff (crowdedFs 1) none noXEnviron [CStr.ascii "NO_X=1"]
    (by decide) rfl).mpr (fun _ => ⟨?_, ?_⟩) (by rw [hactive]; decide)
  · rw [hlayers]
    intro layer hlayer hinactive
    rcases List.mem_cons.mp hlayer with rfl | hlayer
    · exact ⟨CStr.ascii "NO_X=1", by decide, by decide⟩
    · obtain rfl := List.mem_singleton.mp hlayer
      rw [hhook] at hinactive
      cases hinactive
  · rw [hlayers, List.drop_of_length_le (by decide)]
    exact List.forall_mem_nil _

/-- Behind 64 disabled layers the hook is still active, but it is not returned. -/
theorem disabled_manifests_hide_layer :
    ((crowdedFs 64).layers none).filter (isActive noXEnviron [CStr.ascii "NO_X=1"]) =
        [hookLayer] ∧
      acScanActiveImplicitLayers (crowdedFs 64) none noXEnviron acMaxImplicitLayers = [] := by
  constructor
  · rw [layers_crowdedFs.2, List.filter_append, List.filter_replicate_of_neg]
    · rfl
    · rw [fillerLayer_not_isActive]
      exact Bool.false_ne_true
  · rw [acScanActiveImplicitLayers_eq, layers_crowdedFs.2, acMaxImplicitLayers,
      List.take_left' List.length_replicate, List.filter_replicate_of_neg]
    · rfl
    · rw [keepLayer_fillerLayer]
      exact Bool.false_ne_true

end Anticheat
