import Anticheat.Daemon.Baseline

/-!
# Saving baselines and checking them

An operator saves the baselines of a process with `scan --hash --save`; later
`scan --hash --check` and the periodic check of the daemon compare.  As long as the
process does not change, a check should not report a difference for a mapping that
both runs hashed.

A baseline file is named after the path of a mapping only, and every save overwrites
it.  A process that maps one file executable more than once therefore leaves the
digest of the last of these mappings, and a check compares all of them with it.

Main results:

- Theorem {lit}`baseline_round_trip_iff`: the checks stay silent about an unchanged
  process exactly when the last save under every name agrees.
- Theorem {lit}`shared_path_reports_difference`: two mappings of one file make both
  checks report a difference.
-/

namespace Anticheat

open Foundation

/-- `scan --hash --save` -/
def saveFlags (verbose : Bool) : ScanFlags where
  hash := true
  save := true
  check := false
  verbose := verbose

/-- `scan --hash --check` -/
def checkFlags (verbose : Bool) : ScanFlags where
  hash := true
  save := false
  check := true
  verbose := verbose

/-! ## The condition -/

/-- For every mapping that the save and the later run can both hash and whose
baseline the later run can open: what the save left under the name of the mapping, or
what was there before if it wrote nothing there, is the digest of the mapping. -/
def SaveAgrees (var : Option CStr) (files : BaselineFiles) (p : Process) (save r : ScanRun)
    (priv : Option AcFdState) : Prop :=
  ∀ v vi d, save.digest p none v ≠ none → (r.records p)[v]? = some vi →
    r.digest p priv v = some d → r.readable v = true →
    ∀ d', (save.savedDigest var p (baselinePathFor var vi.path)).or
      ((files (baselinePathFor var vi.path)).bind baselineDigest) = some d' → d' = d

/-- What a later run finds after a save. -/
theorem silent_after_save_iff (var : Option CStr) (verbose : Bool) (files : BaselineFiles)
    (p : Process) (pid : Int) (save r : ScanRun) (priv : Option AcFdState) :
    (∀ v, save.digest p none v ≠ none → r.digest p priv v ≠ none →
        ¬FindsDifference var (cmdScan var (saveFlags verbose) save p pid files).2 r p priv v) ↔
      SaveAgrees var files p save r priv := by
  have hafter : ∀ name,
      ((cmdScan var (saveFlags verbose) save p pid files).2 name).bind baselineDigest =
        (save.savedDigest var p name).or ((files name).bind baselineDigest) :=
    cmdScan_save_digest rfl rfl var save p pid files
  constructor
  · intro hsilent v vi d hsave hvi hd hread d' hd'
    by_contra hne
    rw [← hafter, Option.bind_eq_some_iff] at hd'
    rcases hd' with ⟨text, htext, hd'⟩
    refine hsilent v hsave (by simp [hd]) ⟨vi, d, text, d', hvi, hd, ?_, hd', hne⟩
    rw [ScanRun.openBaseline, if_pos hread, htext]
  · rintro hagrees v hsave - ⟨vi, d, text, d', hvi, hd, hopen, hd', hne⟩
    unfold ScanRun.openBaseline at hopen
    split at hopen
    · rename_i hread
      apply hne
      apply hagrees v vi d hsave hvi hd hread d'
      rw [← hafter, hopen, Option.bind_some, hd']
    · contradiction

/-! ## The periodic check as a whole -/

/-- The items of a pass; there are none if LIST_PROTECTED fails. -/
def CheckRound.listed (c : CheckRound) : List (AcProtItem × Process × ScanRun) :=
  match c.list with
  | none => []
  | some pl => c.items pl

/-- The device file before the `k`-th item of a pass. -/
def CheckRound.privAt (c : CheckRound) (var : Option CStr) (files : BaselineFiles)
    (priv : Option AcFdState) (k : Nat) : Option AcFdState :=
  (checkItems var files (c.listed.take k) priv).2

/-- The pass reports, for a mapping of its `k`-th item, that it differs. -/
def RoundReports (msgs : Option (List (List (List BaselineMsg)))) (k v : Nat) : Prop :=
  ∃ ms, (msgs.bind fun l => l[k]?) = some ms ∧ ReportsDifference ms v

theorem checkItems_getElem? (var : Option CStr) (files : BaselineFiles)
    (l : List (AcProtItem × Process × ScanRun)) (priv : Option AcFdState) (k : Nat) :
    (checkItems var files l priv).1[k]? = (l[k]?).map fun e =>
      (checkItem var files e.1 e.2.2 e.2.1 (checkItems var files (l.take k) priv).2).1 := by
  induction l generalizing priv k with
  | nil => rfl
  | cons e l ih =>
      cases k with
      | zero => rfl
      | succ k => exact ih (checkItem var files e.1 e.2.2 e.2.1 priv).2 k

/-- When a pass reports a difference. -/
theorem checkBaselinesPeriodic_reports_iff (var : Option CStr) (files : BaselineFiles)
    (c : CheckRound) (priv : Option AcFdState) {k : Nat} {item : AcProtItem} {p : Process}
    {r : ScanRun} (hk : c.listed[k]? = some (item, p, r)) (v : Nat) :
    RoundReports (checkBaselinesPeriodic var files c priv).1 k v ↔
      FindsDifference var files r p (c.privAt var files priv k) v := by
  have hmsgs : ((checkBaselinesPeriodic var files c priv).1.bind fun l => l[k]?) =
      some (checkItem var files item r p (c.privAt var files priv k)).1 := by
    unfold CheckRound.privAt CheckRound.listed checkBaselinesPeriodic at *
    cases hlist : c.list with
    | none =>
        rw [hlist] at hk
        contradiction
    | some pl =>
        rw [hlist] at hk
        simp only at hk
        simp [checkItems_getElem?, hk]
  unfold RoundReports
  rw [hmsgs]
  simpa using checkItem_reports_iff var files item r p (c.privAt var files priv k) v

/-- After a save, neither check reports a difference for a mapping of the unchanged
process that the save and the check could hash, exactly when the last save under the
name of every such mapping agrees with it. -/
theorem baseline_round_trip_iff (var : Option CStr) (verbose verbose' : Bool)
    (files : BaselineFiles) (p : Process) (pid : Int) (save check : ScanRun) (c : CheckRound)
    (priv : Option AcFdState) :
    let after := (cmdScan var (saveFlags verbose) save p pid files).2
    ((∀ v, save.digest p none v ≠ none → check.digest p none v ≠ none →
        ¬PrintsDifference (cmdScan var (checkFlags verbose') check p pid after).1 v) ↔
      SaveAgrees var files p save check none) ∧
    ∀ k item r, c.listed[k]? = some (item, p, r) →
      ((∀ v, save.digest p none v ≠ none →
          r.digest p (c.privAt var after priv k) v ≠ none →
          ¬RoundReports (checkBaselinesPeriodic var after c priv).1 k v) ↔
        SaveAgrees var files p save r (c.privAt var after priv k)) := by
  intro after
  refine ⟨?_, ?_⟩
  · rw [← silent_after_save_iff var verbose files p pid]
    simp only [@cmdScan_check_differs_iff (checkFlags verbose') rfl rfl rfl]
    rfl
  · intro k item r hk
    rw [← silent_after_save_iff var verbose files p pid]
    simp only [checkBaselinesPeriodic_reports_iff var after c priv hk]
    rfl

/-! ## Two mappings of one file -/

/-- The blocks of the padded page that holds one byte throughout. -/
def pageBlocks (b : UInt8) : List (List UInt8) :=
  List.replicate 64 (List.replicate 64 b) ++
    [[0x80] ++ List.replicate 55 0 ++ Sha256.beBytes 8 32768]

theorem pad_page (b : UInt8) :
    Sha256.pad (List.replicate 4096 b) = (pageBlocks b).flatten := by
  rw [Sha256.pad, pageBlocks, List.flatten_append, List.flatten_replicate_replicate,
    List.flatten_singleton, List.length_replicate]
  simp only [List.append_assoc]
  rfl

theorem length_of_mem_pageBlocks {b : UInt8} {block : List UInt8} (h : block ∈ pageBlocks b) :
    block.length = 64 := by
  simp only [pageBlocks, List.mem_append, List.mem_replicate, List.mem_singleton] at h
  rcases h with ⟨-, rfl⟩ | rfl
  · simp
  · simp

/-- A page of zeros and a page of breakpoint instructions have different digests. -/
theorem hexDigest_pages_ne :
    Sha256.hexDigest (List.replicate 4096 0xcc) ≠ Sha256.hexDigest (List.replicate 4096 0) := by
  rw [Sha256.hexDigest, Sha256.hexDigest,
    digest_eval (pageBlocks 0xcc) (fun _ => length_of_mem_pageBlocks) (pad_page 0xcc),
    digest_eval (pageBlocks 0) (fun _ => length_of_mem_pageBlocks) (pad_page 0)]
  decide +kernel

/-- A file with a path that the snapshot holds whole. -/
def sharedFile : VmFile where
  ino := some 77
  path := CStr.ascii "/usr/lib/libgame.so"
  dPathOk := true

/-- An executable page of that file. -/
def sharedArea (start : UInt64) : VmArea where
  vmStart := start
  vmEnd := start + 0x1000
  vmPgoff := 0
  vmFlags := acVmExec ||| 0x1
  vmFile := some sharedFile

/-- A process that maps the file executable twice, one page at `0x10000` that holds
zeros and one at `0x20000` that does not. -/
def sharedProc : Process where
  areas := [sharedArea 0x10000, sharedArea 0x20000]
  mem := fun a => if a < 0x20000 then 0 else 0xcc

/-- A run in which nothing fails. -/
def cleanRun : ScanRun where
  fdAlloc := true
  task := true
  alloc := true
  bufs := fun _ => true
  memOpen := true
  reads := fun _ => [.bytes 4096]
  readable := fun _ => true
  writable := fun _ => true

/-- A pass over a list with this process only. -/
def sharedRound : CheckRound where
  list := some { count := 1, items := SlotTable.replicate acMaxProts { pid := 7 } }
  procs := fun _ => sharedProc
  runs := fun _ => cleanRun

theorem cleanRun_entryDigest {p : Process} {v : Nat} {vi : AcVmaInfo} {b : UInt8}
    (hmap : (vi.isExec && vi.isFile) = true) (hsize : hashSize vi = 4096)
    (hmem : ∀ i < 4096, p.mem (vi.start + UInt64.ofNat i) = b) :
    cleanRun.entryDigest p v vi = some (Sha256.hexDigest (List.replicate 4096 b)) := by
  have hcovers : covers (hashSize vi).toNat (cleanRun.reads v) 0 = true := by
    rw [hsize, show cleanRun.reads v = [.bytes 4096] from rfl]
    decide
  have hread : p.mem.read vi.start (hashSize vi).toNat = List.replicate 4096 b := by
    rw [hsize]
    exact Memory.read_eq_replicate hmem
  have hopen : cleanRun.memOpen = true := rfl
  rw [ScanRun.entryDigest, if_pos hmap, if_pos hopen, ScanRun.hashVma_eq, if_pos hcovers, hread]

/-- The entry of one of the pages. -/
def sharedEntry (start : UInt64) : AcVmaInfo :=
  vmaInfo true (sharedArea start)

theorem sharedEntry_digest_low (v : Nat) :
    cleanRun.entryDigest sharedProc v (sharedEntry 0x10000) =
      some (Sha256.hexDigest (List.replicate 4096 0)) := by
  apply cleanRun_entryDigest (by decide) (by decide)
  intro i hi
  have hlow : (0x10000 : UInt64) + UInt64.ofNat i < 0x20000 := by
    rw [UInt64.lt_iff_toNat_lt]
    simp
    omega
  exact if_pos hlow

theorem sharedEntry_digest_high (v : Nat) :
    cleanRun.entryDigest sharedProc v (sharedEntry 0x20000) =
      some (Sha256.hexDigest (List.replicate 4096 0xcc)) := by
  apply cleanRun_entryDigest (by decide) (by decide)
  intro i hi
  have hhigh : ¬(0x20000 : UInt64) + UInt64.ofNat i < 0x20000 := by
    rw [UInt64.lt_iff_toNat_lt]
    simp
    omega
  exact if_neg hhigh

theorem cleanRun_begins : cleanRun.begins none = true :=
  rfl

theorem sharedProc_records :
    cleanRun.records sharedProc = [sharedEntry 0x10000, sharedEntry 0x20000] :=
  rfl

theorem sharedProc_digest :
    cleanRun.digest sharedProc none 0 = some (Sha256.hexDigest (List.replicate 4096 0)) := by
  rw [ScanRun.digest, if_pos cleanRun_begins, sharedProc_records, List.getElem?_cons_zero,
    Option.bind_some, sharedEntry_digest_low]

/-- After the save, the check of the first mapping meets the digest of the second. -/
theorem sharedProc_findsDifference :
    FindsDifference none
      (cmdScan none (saveFlags false) cleanRun sharedProc 7 fun _ => none).2
      cleanRun sharedProc none 0 := by
  have hsaved : cleanRun.savedDigest none sharedProc
      (baselinePathFor none (sharedEntry 0x10000).path) =
        some (Sha256.hexDigest (List.replicate 4096 0xcc)) := by
    rw [ScanRun.savedDigest, if_pos cleanRun_begins, sharedProc_records,
      ScanRun.lastSaved_cons, ScanRun.lastSaved_cons]
    have hlast : cleanRun.savesUnder none sharedProc
        (baselinePathFor none (sharedEntry 0x10000).path) 1 (sharedEntry 0x20000) =
          some (Sha256.hexDigest (List.replicate 4096 0xcc)) := by
      rw [ScanRun.savesUnder, if_pos ⟨rfl, rfl⟩, sharedEntry_digest_high]
    rw [Nat.zero_add, hlast]
    rfl
  have hafter := @cmdScan_save_digest (saveFlags false) rfl rfl none cleanRun sharedProc 7
    (fun _ => none) (baselinePathFor none (sharedEntry 0x10000).path)
  rw [hsaved, Option.some_or, Option.bind_eq_some_iff] at hafter
  rcases hafter with ⟨text, htext, hdigest⟩
  refine ⟨sharedEntry 0x10000, _, text, _, rfl, sharedProc_digest, ?_, hdigest,
    hexDigest_pages_ne⟩
  have hread : cleanRun.readable 0 = true := rfl
  rw [ScanRun.openBaseline, if_pos hread, htext]

/-- Both checks report a difference for a mapping that did not change and that every
run hashed. -/
theorem shared_path_reports_difference :
    cleanRun.digest sharedProc none 0 ≠ none ∧
      PrintsDifference (cmdScan none (checkFlags false) cleanRun sharedProc 7
        (cmdScan none (saveFlags false) cleanRun sharedProc 7 fun _ => none).2).1 0 ∧
      sharedRound.listed[0]? = some ({ pid := 7 }, sharedProc, cleanRun) ∧
      RoundReports (checkBaselinesPeriodic none
        (cmdScan none (saveFlags false) cleanRun sharedProc 7 fun _ => none).2
        sharedRound none).1 0 0 := by
  have hlisted : sharedRound.listed[0]? = some ({ pid := 7 }, sharedProc, cleanRun) := rfl
  refine ⟨?_, ?_, hlisted, ?_⟩
  · rw [sharedProc_digest]
    exact Option.some_ne_none _
  · rw [@cmdScan_check_differs_iff (checkFlags false) rfl rfl rfl]
    exact sharedProc_findsDifference
  · rw [checkBaselinesPeriodic_reports_iff none _ sharedRound none hlisted]
    exact sharedProc_findsDifference

end Anticheat
