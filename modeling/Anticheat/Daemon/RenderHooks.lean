import Anticheat.Kernel.SnapshotIoctl

/-!
# Locating the rendering libraries of a process

The daemon looks for the libraries of three rendering interfaces among the
memory areas of a process, in one pass over a kernel snapshot, and compares the
code of each library it found with its file.  A library that the pass did not
find is reported as not loaded.

The snapshot holds only the first areas of a process, and paths that fit its
entries; the daemon does not look at the flag that says that the snapshot was
cut.  The comparison with the file is a parameter here.

Main results:

- Theorem {lit}`findLibsByBasenames_eq`: the pass finds, for each library, what
  a pass for that library alone would find in the snapshot.
- Theorem {lit}`findLibsByBasenames_each`: base and path of a library are those
  of its lowest area in the snapshot.
- Theorem {lit}`absenceSound_iff`: a report that a library is not loaded can be
  trusted exactly when the library shows in the recorded part.
-/

namespace Anticheat

open Foundation

/-- One row of `AC_RENDER_APIS`. -/
structure RenderApi where
  libPrefix : CStr
  symbol : CStr
deriving DecidableEq

/-- `AC_RENDER_APIS` -/
def acRenderApis : List RenderApi :=
  [{ libPrefix := CStr.ascii "libvulkan.so", symbol := CStr.ascii "vkQueuePresentKHR" },
    { libPrefix := CStr.ascii "libGL.so", symbol := CStr.ascii "glXSwapBuffers" },
    { libPrefix := CStr.ascii "libEGL.so", symbol := CStr.ascii "eglSwapBuffers" }]

/-- `struct ac_lib_result` -/
structure AcLibResult where
  found : Bool := false
  libBase : UInt64 := 0
  libpath : CStr := []
deriving DecidableEq

/-- The test of one area against one library. -/
def AcLibResult.offer (res : AcLibResult) (start : CStr) (vi : AcVmaInfo) : AcLibResult :=
  if !CStr.startsWith (CStr.lastComponent vi.path) start then
    res
  else if !res.found || vi.start < res.libBase then
    { found := true, libBase := vi.start, libpath := CStr.bounded acVmaPath vi.path }
  else res

/-- The body of the loop over the snapshot: one area, all libraries. -/
def visitVma (starts : List CStr) (vi : AcVmaInfo) (results : List AcLibResult) :
    List AcLibResult :=
  if !vi.isFile || vi.path.isEmpty then results
  else List.zipWith (fun start res => res.offer start vi) starts results

/-- The loop over the snapshot, from index `v` on with `m` entries to go.  A
SCAN_GET that fails ends the loop. -/
def libLoop (priv : Option AcFdState) (starts : List CStr) :
    Nat → Nat → List AcLibResult → List AcLibResult
  | 0, _, results => results
  | m + 1, v, results =>
      match (acIoctlSnap true (.scanGet v) priv).1 with
      | .ok (.vma (some vi)) => libLoop priv starts m (v + 1) (visitVma starts vi results)
      | _ => results

/-- `find_libs_by_basenames`; the result is `none` when SCAN_BEGIN fails. -/
def findLibsByBasenames (fdAlloc : Bool) (env : ScanEnv) (pid : Int) (starts : List CStr)
    (priv : Option AcFdState) : Option (List AcLibResult) × Option AcFdState :=
  match acIoctlSnap true (.scanBegin fdAlloc env pid false) priv with
  | (.ok (.scanBegun b), priv) =>
      (some (libLoop priv starts b.nVmas 0 (starts.map fun _ => {})),
        (acIoctlSnap true .scanEnd priv).2)
  | (_, priv) => (none, priv)

/-- What the comparison of a library with its file can answer. -/
inductive HookVerdict where
  | inconclusive
  | clean
  | hooked
deriving DecidableEq, Repr

/-- The status of one rendering interface: -2, -1, 0 or 1 in the source. -/
inductive RenderStatus where
  | notLoaded
  | compared (verdict : HookVerdict)
deriving DecidableEq, Repr

/-- The status and library path of one interface. -/
def renderStatus (compare : CStr → UInt64 → CStr → HookVerdict) (api : RenderApi)
    (res : AcLibResult) : RenderStatus × CStr :=
  if !res.found then (.notLoaded, [])
  else
    (.compared (compare res.libpath res.libBase api.symbol),
      CStr.bounded acVmaPath res.libpath)

/-- `render_hook_statuses_for`, where `compare` is `compare_render_symbol` on
the given process. -/
def renderHookStatusesFor (fdAlloc : Bool) (env : ScanEnv) (pid : Int)
    (compare : CStr → UInt64 → CStr → HookVerdict) (priv : Option AcFdState) :
    List (RenderStatus × CStr) × Option AcFdState :=
  match findLibsByBasenames fdAlloc env pid (acRenderApis.map RenderApi.libPrefix) priv with
  | (none, priv) => (acRenderApis.map fun _ => (.compared .inconclusive, []), priv)
  | (some results, priv) =>
      (List.zipWith (renderStatus compare) acRenderApis results, priv)

/-! ## The pass over the snapshot -/

/-- One area and one library. -/
def AcLibResult.visit (start : CStr) (res : AcLibResult) (vi : AcVmaInfo) : AcLibResult :=
  if !vi.isFile || vi.path.isEmpty then res else res.offer start vi

/-- The search for one library alone. -/
def locateLib (start : CStr) (l : List AcVmaInfo) : AcLibResult :=
  l.foldl (AcLibResult.visit start) {}

/-- The area shows a file of the library. -/
def VmaMatches (start : CStr) (vi : AcVmaInfo) : Prop :=
  vi.isFile = true ∧ vi.path ≠ [] ∧
    CStr.startsWith (CStr.lastComponent vi.path) start = true

/-- The loop reads the snapshot entry by entry. -/
theorem libLoop_eq {st : AcFdState} {l : List AcVmaInfo}
    (hst : CellsHold st.vmas st.nVmas (some l)) (starts : List CStr) (m v : Nat)
    (hm : v + m ≤ l.length) (results : List AcLibResult) :
    libLoop (some st) starts m v results =
      ((l.drop v).take m).foldl (fun res vi => visitVma starts vi res) results := by
  induction m generalizing v results with
  | zero => simp [libLoop]
  | succ m ih =>
      have hv : v < l.length := by omega
      rw [libLoop, hst.scanGet hv]
      simp only
      rw [ih (v + 1) (by omega), List.drop_eq_getElem_cons hv, List.take_succ_cons,
        List.foldl_cons]

theorem visitVma_eq {starts : List CStr} {results : List AcLibResult}
    (hlen : results.length = starts.length) (vi : AcVmaInfo) :
    visitVma starts vi results =
      List.zipWith (fun start res => res.visit start vi) starts results := by
  unfold visitVma AcLibResult.visit
  by_cases hskip : (!vi.isFile || vi.path.isEmpty) = true
  · simp only [hskip, if_true]
    apply List.ext_getElem
    · simp [hlen]
    · intro i h₁ h₂
      simp
  · simp only [hskip, if_false, Bool.false_eq_true]

/-- All libraries in one pass, or one pass for each of them. -/
theorem foldl_visitVma (starts : List CStr) (l : List AcVmaInfo) (results : List AcLibResult)
    (hlen : results.length = starts.length) :
    l.foldl (fun res vi => visitVma starts vi res) results =
      List.zipWith (fun start res => l.foldl (AcLibResult.visit start) res) starts results := by
  induction l generalizing results with
  | nil =>
      apply List.ext_getElem
      · simp [hlen]
      · intro i h₁ h₂
        simp
  | cons vi l ih =>
      rw [List.foldl_cons, visitVma_eq hlen, ih _ (by simp [hlen])]
      apply List.ext_getElem
      · simp
      · intro i h₁ h₂
        simp

/-- The pass finds for each library what a pass for it alone would find in the
snapshot; it fails when the snapshot cannot be taken. -/
theorem findLibsByBasenames_eq (fdAlloc : Bool) (env : ScanEnv) (pid : Int)
    (starts : List CStr) (priv : Option AcFdState) :
    (findLibsByBasenames fdAlloc env pid starts priv).1 =
      match acGetFdState fdAlloc priv, env.snapshot with
      | some _, some l => some (starts.map fun start => locateLib start l)
      | _, _ => none := by
  by_cases hfail : acGetFdState fdAlloc priv = none ∨ env.snapshot = none
  · rcases acIoctlScanBegin_fails hfail pid false with ⟨e, priv', hrun, -⟩
    have hnone : (findLibsByBasenames fdAlloc env pid starts priv).1 = none := by
      simp [findLibsByBasenames, acIoctlSnap, hrun]
    rw [hnone]
    rcases hfail with hfail | hfail
    · rw [hfail]
    · rw [hfail]
      cases acGetFdState fdAlloc priv <;> rfl
  · rw [not_or] at hfail
    rcases Option.ne_none_iff_exists'.1 hfail.1 with ⟨st, hst⟩
    rcases Option.ne_none_iff_exists'.1 hfail.2 with ⟨l, henv⟩
    rcases acIoctlScanBegin_ok hst henv pid false with
      ⟨areas, st', -, hl, hrun, hcells, -, -⟩
    have hn : (scanReply env pid false areas).nVmas = l.length := by
      rw [hl]
      rfl
    simp only [findLibsByBasenames, acIoctlSnap, Bool.not_true, Bool.false_eq_true, if_false,
      hrun, hst, henv]
    rw [libLoop_eq hcells starts _ 0 (by omega), hn, List.drop_zero, List.take_length,
      foldl_visitVma starts l _ (by simp)]
    congr 1
    apply List.ext_getElem
    · simp
    · intro i h₁ h₂
      simp [locateLib]

/-! ## What the pass misses -/

theorem AcLibResult.visit_found (start : CStr) (res : AcLibResult) (vi : AcVmaInfo) :
    (res.visit start vi).found = true ↔ res.found = true ∨ VmaMatches start vi := by
  unfold AcLibResult.visit AcLibResult.offer VmaMatches
  by_cases hfile : vi.isFile = true
  · by_cases hpath : vi.path = []
    · simp [hfile, hpath]
    · by_cases hstart : CStr.startsWith (CStr.lastComponent vi.path) start = true
      · cases hfound : res.found with
        | false => simp [hfile, hpath, hstart]
        | true =>
            by_cases hbase : vi.start < res.libBase
            · simp [hfile, hpath, hstart, hbase]
            · simp [hfile, hpath, hstart, hbase, hfound]
      · simp [hfile, hpath, hstart]
  · simp [hfile]

/-- A library is found exactly when some entry of the snapshot shows it. -/
theorem locateLib_found_iff (start : CStr) (l : List AcVmaInfo) :
    (locateLib start l).found = true ↔ ∃ vi ∈ l, VmaMatches start vi := by
  have hfold : ∀ res : AcLibResult, (l.foldl (AcLibResult.visit start) res).found = true ↔
      res.found = true ∨ ∃ vi ∈ l, VmaMatches start vi := by
    induction l with
    | nil => simp
    | cons vi l ih =>
        intro res
        rw [List.foldl_cons, ih, AcLibResult.visit_found]
        simp only [List.mem_cons, exists_eq_or_imp]
        exact or_assoc
  rw [locateLib, hfold]
  simp

theorem mem_recordsFrom_zero {bufs : Nat → Bool} {areas : List VmArea} {vi : AcVmaInfo} :
    vi ∈ recordsFrom bufs 0 areas ↔
      ∃ i a, (areas.take acMaxVmas)[i]? = some a ∧ vi = vmaInfo (bufs i) a := by
  unfold recordsFrom
  rw [List.mem_mapIdx]
  constructor
  · rintro ⟨i, hi, rfl⟩
    exact ⟨i, _, List.getElem?_eq_getElem hi, by simp⟩
  · rintro ⟨i, a, ha, rfl⟩
    rcases List.getElem?_eq_some_iff.1 ha with ⟨hi, rfl⟩
    exact ⟨i, by simpa using hi, by simp⟩

/-! ## The lowest area of a library -/

theorem AcLibResult.visit_of_not_matches {start : CStr} {vi : AcVmaInfo}
    (hnot : ¬VmaMatches start vi) (res : AcLibResult) : res.visit start vi = res := by
  unfold AcLibResult.visit AcLibResult.offer
  by_cases hskip : (!vi.isFile || vi.path.isEmpty) = true
  · rw [if_pos hskip]
  · rw [if_neg hskip]
    simp only [Bool.or_eq_true, Bool.not_eq_true', List.isEmpty_iff, not_or,
      Bool.not_eq_false] at hskip
    have hstart : CStr.startsWith (CStr.lastComponent vi.path) start = false := by
      by_contra h
      exact hnot ⟨hskip.1, hskip.2, by simpa using h⟩
    simp [hstart]

theorem AcLibResult.visit_of_matches {start : CStr} {vi : AcVmaInfo}
    (hmatch : VmaMatches start vi) (res : AcLibResult) :
    res.visit start vi =
      if !res.found || vi.start < res.libBase then
        { found := true, libBase := vi.start, libpath := CStr.bounded acVmaPath vi.path }
      else res := by
  rcases hmatch with ⟨hfile, hpath, hstart⟩
  simp [AcLibResult.visit, AcLibResult.offer, hfile, hpath, hstart]

/-- A result that names the lowest area of a library among those in a list. -/
structure LowestLib (start : CStr) (l : List AcVmaInfo) (res : AcLibResult)
    (vi : AcVmaInfo) : Prop where
  mem : vi ∈ l
  shows : VmaMatches start vi
  base : res.libBase = vi.start
  path : res.libpath = CStr.bounded acVmaPath vi.path
  lowest : ∀ vi' ∈ l, VmaMatches start vi' → vi.start ≤ vi'.start

/-- A further area that is not a lower one of the library changes nothing. -/
theorem LowestLib.concat {start : CStr} {l : List AcVmaInfo} {res : AcLibResult}
    {vi last : AcVmaInfo} (h : LowestLib start l res vi)
    (hlast : VmaMatches start last → vi.start ≤ last.start) :
    LowestLib start (l ++ [last]) res vi := by
  refine ⟨List.mem_append_left _ h.mem, h.shows, h.base, h.path, ?_⟩
  intro vi' hvi' hmatch'
  rcases List.mem_append.1 hvi' with hvi' | hvi'
  · exact h.lowest vi' hvi' hmatch'
  · rw [List.mem_singleton.1 hvi'] at hmatch' ⊢
    exact hlast hmatch'

/-- Base and path are taken from one area, and no other area of the library is
lower. -/
theorem locateLib_lowest (start : CStr) (l : List AcVmaInfo) :
    (locateLib start l).found = true →
      ∃ vi, LowestLib start l (locateLib start l) vi := by
  -- the areas are taken in order, so the induction adds the last one
  induction l using List.reverseRecOn with
  | nil => simp [locateLib]
  | append_singleton l last ih =>
      intro hfound
      have hstep : locateLib start (l ++ [last]) = (locateLib start l).visit start last := by
        simp [locateLib]
      rw [hstep] at hfound ⊢
      by_cases hmatch : VmaMatches start last
      · rw [AcLibResult.visit_of_matches hmatch]
        split
        · -- the last area is the first of the library, or lower than those before it
          rename_i hlower
          refine ⟨last, by simp, hmatch, rfl, rfl, ?_⟩
          intro vi' hvi' hmatch'
          rcases List.mem_append.1 hvi' with hvi' | hvi'
          · have hl : (locateLib start l).found = true :=
              (locateLib_found_iff start l).2 ⟨vi', hvi', hmatch'⟩
            rcases ih hl with ⟨vi, hvi⟩
            have hlt : last.start < vi.start := by
              rw [← hvi.base]
              simpa [hl] using hlower
            exact UInt64.le_of_lt (UInt64.lt_of_lt_of_le hlt (hvi.lowest vi' hvi' hmatch'))
          · rw [List.mem_singleton.1 hvi']
            exact UInt64.le_refl _
        · rename_i hnot
          simp only [Bool.or_eq_true, Bool.not_eq_true', decide_eq_true_eq, not_or,
            Bool.not_eq_false, UInt64.not_lt] at hnot
          rcases ih hnot.1 with ⟨vi, hvi⟩
          refine ⟨vi, hvi.concat fun _ => ?_⟩
          rw [← hvi.base]
          exact hnot.2
      · rw [AcLibResult.visit_of_not_matches hmatch] at hfound ⊢
        rcases ih hfound with ⟨vi, hvi⟩
        exact ⟨vi, hvi.concat fun hlast => absurd hlast hmatch⟩

/-- A recorded path fits the buffer that the daemon copies it to. -/
theorem bounded_path_of_mem_snapshot {env : ScanEnv} {l : List AcVmaInfo}
    (henv : env.snapshot = some l) {vi : AcVmaInfo} (hvi : vi ∈ l) :
    CStr.bounded acVmaPath vi.path = vi.path := by
  rcases env.snapshot_some henv with ⟨areas, -, -, -, hl⟩
  rw [hl] at hvi
  rcases mem_recordsFrom_zero.1 hvi with ⟨i, a, -, rfl⟩
  have hidem : ∀ s : CStr, CStr.bounded acVmaPath (CStr.bounded acVmaPath s) =
      CStr.bounded acVmaPath s := by
    intro s
    simp [CStr.bounded, List.take_take]
  unfold vmaInfo vmaPath
  cases a.vmFile with
  | none => rfl
  | some f =>
      simp only
      split
      · split
        · exact hidem f.path
        · rfl
      · rfl

/-- What a search for one library is to answer on a snapshot: base and path are
those of the lowest area that shows the library. -/
structure LocatedLib (l : List AcVmaInfo) (start : CStr) (res : AcLibResult) : Prop where
  found_iff : res.found = true ↔ ∃ vi ∈ l, VmaMatches start vi
  lowest : res.found = true →
    ∃ vi ∈ l, VmaMatches start vi ∧ res.libBase = vi.start ∧ res.libpath = vi.path ∧
      ∀ vi' ∈ l, VmaMatches start vi' → vi.start ≤ vi'.start

theorem locateLib_located {env : ScanEnv} {l : List AcVmaInfo} (henv : env.snapshot = some l)
    (start : CStr) : LocatedLib l start (locateLib start l) := by
  refine ⟨locateLib_found_iff start l, ?_⟩
  intro hfound
  rcases locateLib_lowest start l hfound with ⟨vi, hvi⟩
  have hpath := hvi.path.trans (bounded_path_of_mem_snapshot henv hvi.mem)
  exact ⟨vi, hvi.mem, hvi.shows, hvi.base, hpath, hvi.lowest⟩

/-- One pass for all libraries gives each of them the result of a pass for it
alone, and that is what a search on the snapshot is to answer. -/
theorem findLibsByBasenames_each {fdAlloc : Bool} {env : ScanEnv} {pid : Int}
    {starts : List CStr} {priv : Option AcFdState} {results : List AcLibResult}
    (hrun : (findLibsByBasenames fdAlloc env pid starts priv).1 = some results) :
    ∃ l, env.snapshot = some l ∧
      List.Forall₂ (fun start res =>
        (findLibsByBasenames fdAlloc env pid [start] priv).1 = some [res] ∧
          LocatedLib l start res) starts results := by
  rw [findLibsByBasenames_eq] at hrun
  cases hst : acGetFdState fdAlloc priv with
  | none => simp [hst] at hrun
  | some st =>
      cases henv : env.snapshot with
      | none => simp [hst, henv] at hrun
      | some l =>
          simp only [hst, henv, Option.some.injEq] at hrun
          subst hrun
          refine ⟨l, rfl, ?_⟩
          rw [List.forall₂_map_right_iff, List.forall₂_same]
          intro start _
          refine ⟨?_, locateLib_located henv start⟩
          rw [findLibsByBasenames_eq, hst, henv]
          rfl

/-- Two mappings of one library, the higher one first, and a library whose name
continues that of the first. -/
def glEnv : ScanEnv where
  task := true
  mm := some
    [{ vmStart := 0x9000, vmEnd := 0xa000, vmPgoff := 1, vmFlags := 0,
       vmFile := some { ino := none, path := CStr.ascii "/b/libGL.so.1", dPathOk := true } },
     { vmStart := 0x5000, vmEnd := 0x6000, vmPgoff := 0, vmFlags := 0,
       vmFile := some { ino := none, path := CStr.ascii "/a/libGL.so.1", dPathOk := true } },
     { vmStart := 0x7000, vmEnd := 0x8000, vmPgoff := 0, vmFlags := 0,
       vmFile := some { ino := none, path := CStr.ascii "/a/libGLX.so", dPathOk := true } }]
  alloc := true
  bufs := fun _ => true

theorem findLibsByBasenames_glEnv :
    ∃ l, glEnv.snapshot = some l ∧
      List.Forall₂ (fun start res =>
        (findLibsByBasenames true glEnv 7 [start] none).1 = some [res] ∧
          LocatedLib l start res)
        [CStr.ascii "libGL", CStr.ascii "libGLX.so"]
        [{ found := true, libBase := 0x5000, libpath := CStr.ascii "/a/libGL.so.1" },
          { found := true, libBase := 0x7000, libpath := CStr.ascii "/a/libGLX.so" }] :=
  findLibsByBasenames_each (by rw [findLibsByBasenames_eq]; decide +kernel)

/-! ## Areas that show a library -/

/-- The recorded path of an area shows a library. -/
def ShowsLib (start : CStr) (buf : Bool) (a : VmArea) : Prop :=
  ∃ f, a.vmFile = some f ∧ buf = true ∧ f.dPathOk = true ∧
    CStr.startsWith (CStr.lastComponent (CStr.bounded acVmaPath f.path)) start = true

theorem vmaMatches_vmaInfo_iff {start : CStr} (hstart : start ≠ []) (buf : Bool) (a : VmArea) :
    VmaMatches start (vmaInfo buf a) ↔ ShowsLib start buf a := by
  have hempty : CStr.startsWith (CStr.lastComponent []) start = false := by
    cases start with
    | nil => contradiction
    | cons c cs => rfl
  unfold VmaMatches ShowsLib
  cases hfile : a.vmFile with
  | none => simp [vmaInfo, hfile]
  | some f =>
      cases hbuf : buf with
      | false => simp [vmaInfo, vmaPath, hfile]
      | true =>
          cases hok : f.dPathOk with
          | false => simp [vmaInfo, vmaPath, hfile, hok]
          | true =>
              by_cases hpath : CStr.bounded acVmaPath f.path = []
              · simp [vmaInfo, vmaPath, hfile, hok, hpath, hempty]
              · simp [vmaInfo, vmaPath, hfile, hok, hpath]

/-- A library is found in a snapshot exactly when one of the first areas shows
it. -/
theorem locateLib_records_iff {start : CStr} (hstart : start ≠ []) (bufs : Nat → Bool)
    (areas : List VmArea) :
    (locateLib start (recordsFrom bufs 0 areas)).found = true ↔
      ∃ i a, (areas.take acMaxVmas)[i]? = some a ∧ ShowsLib start (bufs i) a := by
  rw [locateLib_found_iff]
  constructor
  · rintro ⟨vi, hvi, hmatch⟩
    rcases mem_recordsFrom_zero.1 hvi with ⟨i, a, ha, rfl⟩
    exact ⟨i, a, ha, (vmaMatches_vmaInfo_iff hstart _ _).1 hmatch⟩
  · rintro ⟨i, a, ha, hshows⟩
    exact ⟨_, mem_recordsFrom_zero.2 ⟨i, a, ha, rfl⟩,
      (vmaMatches_vmaInfo_iff hstart _ _).2 hshows⟩

theorem acRenderApis_libPrefix_ne_nil : ∀ api ∈ acRenderApis, api.libPrefix ≠ [] := by
  decide

/-! ## Reports of absence -/

/-- Some area of the process is backed by a file of the library. -/
def LibMapped (start : CStr) (areas : List VmArea) : Prop :=
  ∃ a ∈ areas, ∃ f, a.vmFile = some f ∧
    CStr.startsWith (CStr.lastComponent f.path) start = true

/-- Where an interface is reported as not loaded, no file of its library is
mapped. -/
def AbsenceSound (fdAlloc : Bool) (env : ScanEnv) (pid : Int)
    (compare : CStr → UInt64 → CStr → HookVerdict) (priv : Option AcFdState) : Prop :=
  ∀ (k : Nat) (api : RenderApi), acRenderApis[k]? = some api →
    ((renderHookStatusesFor fdAlloc env pid compare priv).1[k]?).map Prod.fst =
      some .notLoaded →
    ¬LibMapped api.libPrefix (env.mm.getD [])

/-- If the snapshot can be taken, every library that is mapped shows in the
recorded path of one of the first areas. -/
def LibsVisible (fdAlloc : Bool) (env : ScanEnv) (priv : Option AcFdState) : Prop :=
  acGetFdState fdAlloc priv ≠ none → env.snapshot ≠ none →
    ∀ api ∈ acRenderApis, LibMapped api.libPrefix (env.mm.getD []) →
      ∃ i a, ((env.mm.getD []).take acMaxVmas)[i]? = some a ∧
        ShowsLib api.libPrefix (env.bufs i) a

/-- The statuses after a snapshot, and without one. -/
theorem renderHookStatusesFor_eq (fdAlloc : Bool) (env : ScanEnv) (pid : Int)
    (compare : CStr → UInt64 → CStr → HookVerdict) (priv : Option AcFdState) :
    (renderHookStatusesFor fdAlloc env pid compare priv).1 =
      match acGetFdState fdAlloc priv, env.snapshot with
      | some _, some l =>
          acRenderApis.map fun api => renderStatus compare api (locateLib api.libPrefix l)
      | _, _ => acRenderApis.map fun _ => (.compared .inconclusive, []) := by
  have hfind := findLibsByBasenames_eq fdAlloc env pid (acRenderApis.map RenderApi.libPrefix) priv
  unfold renderHookStatusesFor
  rcases hpair : findLibsByBasenames fdAlloc env pid (acRenderApis.map RenderApi.libPrefix) priv
    with ⟨found, priv'⟩
  rw [hpair] at hfind
  simp only at hfind
  subst found
  cases acGetFdState fdAlloc priv with
  | none => rfl
  | some st =>
      cases env.snapshot with
      | none => rfl
      | some l => rfl

/-- Reports of absence can be trusted exactly when every mapped library is
visible in the snapshot. -/
theorem absenceSound_iff (fdAlloc : Bool) (env : ScanEnv) (pid : Int)
    (compare : CStr → UInt64 → CStr → HookVerdict) (priv : Option AcFdState) :
    AbsenceSound fdAlloc env pid compare priv ↔ LibsVisible fdAlloc env priv := by
  unfold AbsenceSound LibsVisible
  rw [renderHookStatusesFor_eq]
  have hinconclusive : ∀ (k : Nat) (api : RenderApi), acRenderApis[k]? = some api →
      ((acRenderApis.map fun _ => (RenderStatus.compared .inconclusive, ([] : CStr)))[k]?).map
        Prod.fst = some .notLoaded → ¬LibMapped api.libPrefix (env.mm.getD []) := by
    intro k api hk hstatus
    rw [List.getElem?_map, hk] at hstatus
    cases hstatus
  cases hst : acGetFdState fdAlloc priv with
  | none => exact iff_of_true hinconclusive (fun h => absurd rfl h)
  | some st =>
      cases henv : env.snapshot with
      | none => exact iff_of_true hinconclusive (fun _ h => absurd rfl h)
      | some l =>
          rcases env.snapshot_some henv with ⟨areas, -, hmm, -, hl⟩
          rw [hmm, Option.getD_some]
          have hshown : ∀ api ∈ acRenderApis,
              ((locateLib api.libPrefix l).found = true ↔
                ∃ i a, (areas.take acMaxVmas)[i]? = some a ∧
                  ShowsLib api.libPrefix (env.bufs i) a) := by
            intro api hapi
            rw [hl]
            exact locateLib_records_iff (acRenderApis_libPrefix_ne_nil api hapi) env.bufs areas
          constructor
          · intro hsound _ _ api hapi hmapped
            rcases List.getElem?_of_mem hapi with ⟨k, hk⟩
            rw [← hshown api hapi]
            by_contra hnot
            rw [Bool.not_eq_true] at hnot
            refine hsound k api hk ?_ hmapped
            simp [hk, renderStatus, hnot]
          · intro hvisible k api hk hstatus hmapped
            have hapi := List.mem_of_getElem? hk
            have hfound := (hshown api hapi).2
              (hvisible (by simp) (by simp) api hapi hmapped)
            simp [hk, renderStatus, hfound] at hstatus

end Anticheat
