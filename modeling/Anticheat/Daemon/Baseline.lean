import Anticheat.Foundation.CScan
import Anticheat.Daemon.AnonBaseline
import Anticheat.Daemon.ProcMem

/-!
# Baselines of executable mappings

`scan --hash --save` hashes every executable mapping of a process that has a file
and writes the digest to a baseline file whose name is the hash of the mapping's
path; `scan --hash --check` and a periodic check of the daemon hash the mappings
again and compare.

The file system is a map from names to contents.  A run meets outcomes that the
code does not control: whether the scan begins, whether the memory of the process
opens, what every read returns, and which baseline files open.

Main results:

- Theorem {lit}`scanGetLoop_eq`: a loop over SCAN_GET visits the snapshot entry by
  entry.
- Theorem {lit}`baselineDigest_baselineText`: the digest that was saved is the digest
  that is read back.
- Theorems {lit}`cmdScan_check_differs_iff` and {lit}`checkItem_reports_iff`: when the
  two checks report a difference.
- Theorem {lit}`cmdScan_save_digest`: what the baseline files say after a save.
-/

namespace Anticheat

open Foundation

/-! ## Baseline files -/

/-- `AC_HASH_CAP` -/
def acHashCap : UInt64 := 16 * 1024 * 1024

/-- `ac_baseline_dir`, where `var` is the environment variable of that name. -/
def acBaselineDir (var : Option CStr) : CStr :=
  match var with
  | some e => if e.isEmpty then CStr.ascii "/var/lib/anticheat/baselines" else e
  | none => CStr.ascii "/var/lib/anticheat/baselines"

/-- `baseline_path_for` -/
def baselinePathFor (var : Option CStr) (path : CStr) : CStr :=
  CStr.bounded pathMax (acBaselineDir var ++ CStr.ascii "/" ++
    (acSha256Hex path).get (acSha256Hex_isSome path) ++ CStr.ascii ".txt")

/-- The contents of the files, by name. -/
abbrev BaselineFiles := CStr → Option (List UInt8)

/-- What `fprintf` writes with the format `%llx %llx %s\n`. -/
def baselineText (start size : UInt64) (hex : CStr) : List UInt8 :=
  CStr.hex start.toNat ++ CStr.ascii " " ++ CStr.hex size.toNat ++ CStr.ascii " " ++ hex ++
    CStr.ascii "\n"

/-- `sscanf` with the format `%llx %llx %64s`: the digest, if all three conversions
succeed. -/
def sscanfBaseline (line : CStr) : Option CStr := do
  let s ← CStr.scanHex line
  let s ← CStr.scanHex s
  let (bhex, _) ← CStr.scanWord 64 s
  return bhex

/-! ## Runs -/

/-- A process: its memory areas and its memory. -/
structure Process where
  areas : List VmArea
  mem : Memory

/-- What one run over a process meets: the outcomes of SCAN_BEGIN, of opening and
reading the memory, and of opening the baseline file of each mapping. -/
structure ScanRun where
  fdAlloc : Bool
  task : Bool
  alloc : Bool
  bufs : Nat → Bool
  memOpen : Bool
  reads : Nat → List PreadOutcome
  readable : Nat → Bool
  writable : Nat → Bool

/-- What SCAN_BEGIN meets in a run. -/
def ScanRun.scanEnv (r : ScanRun) (p : Process) : ScanEnv where
  task := r.task
  mm := some p.areas
  alloc := r.alloc
  bufs := r.bufs

/-- How many bytes of a mapping are hashed. -/
def hashSize (vi : AcVmaInfo) : UInt64 :=
  if vi.stop - vi.start > acHashCap then acHashCap else vi.stop - vi.start

/-- What `hash_proc_mem` returns for the mapping at index `v`. -/
def ScanRun.hashVma (r : ScanRun) (p : Process) (v : Nat) (vi : AcVmaInfo) : Option CStr :=
  (hashProcMem p.mem (r.reads v) vi.start (hashSize vi)).get (hashProcMem_isSome _ _ _ _)

/-- `fopen(blpath, "r")` in the iteration for index `v`. -/
def ScanRun.openBaseline (r : ScanRun) (files : BaselineFiles) (v : Nat) (blpath : CStr) :
    Option (List UInt8) :=
  if r.readable v then files blpath else none

/-- A loop over the snapshot, from index `v` on with `m` entries to go.  A SCAN_GET
that fails ends the loop. -/
def scanGetLoop {σ β : Type} (priv : Option AcFdState) (body : Nat → AcVmaInfo → σ → β × σ) :
    Nat → Nat → σ → List β × σ
  | 0, _, s => ([], s)
  | m + 1, v, s =>
      match (acIoctlSnap true (.scanGet v) priv).1 with
      | .ok (.vma (some vi)) =>
          let (b, s) := body v vi s
          let (bs, s) := scanGetLoop priv body m (v + 1) s
          (b :: bs, s)
      | _ => ([], s)

/-! ## The command -/

/-- The options of `scan` that the loop over the mappings looks at. -/
structure ScanFlags where
  hash : Bool
  save : Bool
  check : Bool
  verbose : Bool

/-- The lines that the loop of `cmd_scan` prints. -/
inductive ScanLine where
  | rwx (vi : AcVmaInfo)
  | anonExec (vi : AcVmaInfo)
  | exec (vi : AcVmaInfo)
  | hashFailed (path : CStr)
  | hashed (path : CStr) (start stop : UInt64) (hex : CStr)
  | cannotWrite (blpath : CStr)
  | saved (blpath : CStr)
  | noBaseline (path : CStr)
  | differs
  | ok
deriving DecidableEq

/-- The range of a mapping, as it is printed. -/
def rangeText (start stop : UInt64) (sep : String) : CStr :=
  CStr.ascii "[" ++ CStr.altHex start.toNat ++ CStr.ascii sep ++ CStr.altHex stop.toNat ++
    CStr.ascii "]"

/-- The path of a mapping, as it is printed. -/
def pathText (vi : AcVmaInfo) : CStr :=
  if vi.path.isEmpty then CStr.ascii "(anonymous)" else vi.path

/-- The text of a line; the reason that `cannotWrite` ends with is left out. -/
def ScanLine.text : ScanLine → CStr
  | rwx vi => CStr.ascii "  [!] RWX " ++ rangeText vi.start vi.stop "-" ++ CStr.ascii " " ++
      pathText vi
  | anonExec vi => CStr.ascii "  [?] anon-exec " ++ rangeText vi.start vi.stop "-"
  | exec vi => CStr.ascii "  exec " ++ rangeText vi.start vi.stop "-" ++ CStr.ascii " " ++
      pathText vi
  | hashFailed path => CStr.ascii "  hash failed for " ++ path
  | hashed path start stop hex => CStr.ascii "  " ++ path ++ CStr.ascii " " ++
      rangeText start stop ".." ++ CStr.ascii " " ++ hex
  | cannotWrite blpath => CStr.ascii "cannot write baseline " ++ blpath
  | saved blpath => CStr.ascii "    baseline saved: " ++ blpath
  | noBaseline path => CStr.ascii "    no baseline for " ++ path ++
      CStr.ascii " (run with --save first)"
  | differs => CStr.ascii
      "    [ALERT] memory content differs from baseline (possible runtime patching)"
  | ok => CStr.ascii "    ok: matches baseline"

/-- The line for the kind of a mapping. -/
def kindLine (verbose : Bool) (vi : AcVmaInfo) : List ScanLine :=
  if vi.isExec && vi.isWrite then [.rwx vi]
  else if vi.isExec && !vi.isFile then [.anonExec vi]
  else if vi.isExec && verbose then [.exec vi]
  else []

/-- The comparison with the text of a baseline file. -/
def baselineChanged (text : List UInt8) (hex : CStr) : Bool :=
  match CStr.fgets 512 text with
  | none => false
  | some line =>
      match sscanfBaseline line with
      | none => false
      | some bhex => bhex != hex

/-- The lines of `--check`. -/
def checkLines (text : Option (List UInt8)) (path hex : CStr) : List ScanLine :=
  match text with
  | none => [.noBaseline path]
  | some text => if baselineChanged text hex then [.differs] else [.ok]

/-- The body of the loop of `cmd_scan`. -/
def scanVma (var : Option CStr) (flags : ScanFlags) (r : ScanRun) (p : Process) (v : Nat)
    (vi : AcVmaInfo) (files : BaselineFiles) : List ScanLine × BaselineFiles :=
  let kind := kindLine flags.verbose vi
  if flags.hash && vi.isExec && vi.isFile then
    match if r.memOpen then r.hashVma p v vi else none with
    | none => (kind ++ [.hashFailed vi.path], files)
    | some hex =>
        let blpath := baselinePathFor var vi.path
        let hashed := ScanLine.hashed vi.path vi.start (vi.start + hashSize vi) hex
        -- A baseline that cannot be written also skips the check.
        if flags.save && !r.writable v then
          (kind ++ [hashed, .cannotWrite blpath], files)
        else
          let files :=
            if flags.save then
              Function.update files blpath (some (baselineText vi.start (hashSize vi) hex))
            else files
          let saved := if flags.save then [ScanLine.saved blpath] else []
          let checked :=
            if flags.check then checkLines (r.openBaseline files v blpath) vi.path hex else []
          (kind ++ [hashed] ++ saved ++ checked, files)
  else (kind, files)

/-- The loop of `cmd_scan` on a freshly opened device file: the lines printed for
each mapping, if SCAN_BEGIN succeeds, and the files afterwards. -/
def cmdScan (var : Option CStr) (flags : ScanFlags) (r : ScanRun) (p : Process) (pid : Int)
    (files : BaselineFiles) : Option (List (List ScanLine)) × BaselineFiles :=
  match acIoctlSnap true (.scanBegin r.fdAlloc (r.scanEnv p) pid true) none with
  | (.ok (.scanBegun b), priv) =>
      let (lines, files) := scanGetLoop priv (scanVma var flags r p) b.nVmas 0 files
      (some lines, files)
  | _ => (none, files)

/-! ## The periodic check -/

/-- The message of the periodic check, at priority `LOG_CRIT`. -/
structure BaselineMsg where
  pid : Int
  comm : CStr
  path : CStr
deriving DecidableEq

def BaselineMsg.priority (_ : BaselineMsg) : LogPriority := .crit

/-- The text of the message, cut to the buffer of `logmsg`. -/
def BaselineMsg.text (m : BaselineMsg) : CStr :=
  CStr.bounded 512 (CStr.ascii "pid " ++ CStr.decimal m.pid ++ CStr.ascii " (" ++ m.comm ++
    CStr.ascii "): memory content of " ++ m.path ++
    CStr.ascii " differs from saved baseline (possible runtime patching)")

/-- `mem_fd` with `mem_open_failed`. -/
inductive MemFd where
  | closed
  | opened
  | failed
deriving DecidableEq, Repr

/-- The memory is opened for the first mapping that has a baseline. -/
def MemFd.ensure (memOpen : Bool) : MemFd → MemFd
  | .closed => if memOpen then .opened else .failed
  | fd => fd

/-- The body of the inner loop of `check_baselines_periodic`. -/
def checkVma (var : Option CStr) (files : BaselineFiles) (item : AcProtItem) (r : ScanRun)
    (p : Process) (v : Nat) (vi : AcVmaInfo) (fd : MemFd) : List BaselineMsg × MemFd :=
  if !vi.isExec || !vi.isFile then ([], fd)
  else
    match r.openBaseline files v (baselinePathFor var vi.path) with
    | none => ([], fd)
    | some text =>
        match CStr.fgets 512 text with
        | none => ([], fd)
        | some line =>
            match sscanfBaseline line with
            | none => ([], fd)
            | some bhex =>
                match fd.ensure r.memOpen with
                | .opened =>
                    match r.hashVma p v vi with
                    | none => ([], .opened)
                    | some hex =>
                        (if bhex != hex then [⟨item.pid, item.comm, vi.path⟩] else [],
                          .opened)
                | fd => ([], fd)

/-- The body of the loop over the protected processes: the messages for each
mapping. -/
def checkItem (var : Option CStr) (files : BaselineFiles) (item : AcProtItem) (r : ScanRun)
    (p : Process) (priv : Option AcFdState) : List (List BaselineMsg) × Option AcFdState :=
  match acIoctlSnap true (.scanBegin r.fdAlloc (r.scanEnv p) item.pid false) priv with
  | (.ok (.scanBegun b), priv) =>
      ((scanGetLoop priv (checkVma var files item r p) b.nVmas 0 .closed).1,
        (acIoctlSnap true .scanEnd priv).2)
  | (_, priv) => ([], priv)

/-- The loop over the protected processes. -/
def checkItems (var : Option CStr) (files : BaselineFiles) :
    List (AcProtItem × Process × ScanRun) → Option AcFdState →
      List (List (List BaselineMsg)) × Option AcFdState
  | [], priv => ([], priv)
  | (item, p, r) :: rest, priv =>
      let (msgs, priv) := checkItem var files item r p priv
      let (later, priv) := checkItems var files rest priv
      (msgs :: later, priv)

/-- What one pass meets: the answer of LIST_PROTECTED, and for each item the process
and the run over it. -/
structure CheckRound where
  list : Option AcProtList
  procs : Nat → Process
  runs : Nat → ScanRun

/-- The items of a listing with their processes and runs. -/
def CheckRound.items (c : CheckRound) (pl : AcProtList) :
    List (AcProtItem × Process × ScanRun) :=
  pl.reported.mapIdx fun i item => (item, c.procs i, c.runs i)

/-- `check_baselines_periodic`; it returns an error when LIST_PROTECTED fails. -/
def checkBaselinesPeriodic (var : Option CStr) (files : BaselineFiles) (c : CheckRound)
    (priv : Option AcFdState) :
    Option (List (List (List BaselineMsg))) × Option AcFdState :=
  match c.list with
  | none => (none, priv)
  | some pl =>
      let (msgs, priv) := checkItems var files (c.items pl) priv
      (some msgs, priv)

/-! ## Loops over a snapshot -/

/-- The same loop over the entries themselves. -/
def walk {σ β : Type} (body : Nat → AcVmaInfo → σ → β × σ) :
    Nat → List AcVmaInfo → σ → List β × σ
  | _, [], s => ([], s)
  | v, vi :: rest, s =>
      ((body v vi s).1 :: (walk body (v + 1) rest (body v vi s).2).1,
        (walk body (v + 1) rest (body v vi s).2).2)

/-- A loop over SCAN_GET visits the snapshot entry by entry. -/
theorem scanGetLoop_eq {σ β : Type} (body : Nat → AcVmaInfo → σ → β × σ) {st : AcFdState}
    {l : List AcVmaInfo} (hst : CellsHold st.vmas st.nVmas (some l)) (m v : Nat)
    (hm : v + m = l.length) (s : σ) :
    scanGetLoop (some st) body m v s = walk body v (l.drop v) s := by
  induction m generalizing v s with
  | zero =>
      rw [List.drop_of_length_le (by omega)]
      rfl
  | succ m ih =>
      have hv : v < l.length := by omega
      rw [scanGetLoop, hst.scanGet hv, List.drop_eq_getElem_cons hv]
      simp only [walk, ih (v + 1) (by omega)]

/-- What each iteration puts out, when that does not depend on the part of the state
that the loop changes. -/
theorem walk_outputs {σ β : Type} {body : Nat → AcVmaInfo → σ → β × σ} (I : σ → Prop)
    (f : Nat → AcVmaInfo → β) (hbody : ∀ v vi s, I s → (body v vi s).1 = f v vi ∧
      I (body v vi s).2) (v : Nat) (l : List AcVmaInfo) {s : σ} (hs : I s) :
    (walk body v l s).1 = l.mapIdx fun i vi => f (v + i) vi := by
  induction l generalizing v s with
  | nil => rfl
  | cons vi l ih =>
      have hshift : (fun i vi => f (v + (i + 1)) vi) = fun i vi => f (v + 1 + i) vi := by
        funext i vi
        rw [show v + (i + 1) = v + 1 + i by omega]
      simp only [List.mapIdx_cons, Nat.add_zero, hshift]
      rw [← ih (v + 1) (hbody v vi s hs).2, ← (hbody v vi s hs).1, walk]

/-! ## What a run can hash -/

/-- SCAN_BEGIN succeeds in the run. -/
def ScanRun.begins (r : ScanRun) (priv : Option AcFdState) : Bool :=
  (acGetFdState r.fdAlloc priv).isSome && r.task && r.alloc

/-- The entries that the run reads. -/
def ScanRun.records (r : ScanRun) (p : Process) : List AcVmaInfo :=
  recordsFrom r.bufs 0 p.areas

/-- The digest of one entry, if it is an executable mapping of a file and its memory
can be read. -/
def ScanRun.entryDigest (r : ScanRun) (p : Process) (v : Nat) (vi : AcVmaInfo) :
    Option CStr :=
  if vi.isExec && vi.isFile then if r.memOpen then r.hashVma p v vi else none
  else none

/-- The digest of the mapping at an index, if the run can hash it. -/
def ScanRun.digest (r : ScanRun) (p : Process) (priv : Option AcFdState) (v : Nat) :
    Option CStr :=
  if r.begins priv then (r.records p)[v]?.bind (r.entryDigest p v) else none

theorem ScanRun.scanBegin_ok {r : ScanRun} {priv : Option AcFdState} (h : r.begins priv = true)
    (p : Process) (pid : Int) (emitEvents : Bool) :
    ∃ b st, acIoctlSnap true (.scanBegin r.fdAlloc (r.scanEnv p) pid emitEvents) priv =
        (.ok (.scanBegun b), some st) ∧
      CellsHold st.vmas st.nVmas (some (r.records p)) ∧ b.nVmas = (r.records p).length := by
  simp only [ScanRun.begins, Bool.and_eq_true, Option.isSome_iff_exists] at h
  rcases h with ⟨⟨⟨st, hst⟩, htask⟩, halloc⟩
  have hsnap : (r.scanEnv p).snapshot = some (r.records p) := by
    simp [ScanEnv.snapshot, ScanRun.scanEnv, htask, halloc, ScanRun.records]
  rcases acIoctlScanBegin_ok hst hsnap pid emitEvents with
    ⟨areas, st', hmm, hl, hrun, hcells, -, -⟩
  exact ⟨_, st', hrun, hcells, by rw [hl]; rfl⟩

theorem ScanRun.scanBegin_fails {r : ScanRun} {priv : Option AcFdState}
    (h : r.begins priv = false) (p : Process) (pid : Int) (emitEvents : Bool) :
    ∃ e priv', acIoctlSnap true (.scanBegin r.fdAlloc (r.scanEnv p) pid emitEvents) priv =
      (.error e, priv') := by
  have hfail : acGetFdState r.fdAlloc priv = none ∨ (r.scanEnv p).snapshot = none := by
    by_contra hboth
    rw [not_or] at hboth
    rcases (r.scanEnv p).snapshot_some (Option.ne_none_iff_exists'.1 hboth.2).choose_spec with
      ⟨areas, htask, -, halloc, -⟩
    simp [ScanRun.begins, Option.isSome_iff_ne_none.2 hboth.1,
      show r.task = true from htask, show r.alloc = true from halloc] at h
  rcases acIoctlScanBegin_fails hfail pid emitEvents with ⟨e, priv', hrun, -⟩
  exact ⟨e, priv', hrun⟩

/-- The digest that a run finds is that of the hashed part of the mapping, however
the reads were split. -/
theorem ScanRun.hashVma_eq (r : ScanRun) (p : Process) (v : Nat) (vi : AcVmaInfo) :
    r.hashVma p v vi =
      if covers (hashSize vi).toNat (r.reads v) 0 then
        some (Sha256.hexDigest (p.mem.read vi.start (hashSize vi).toNat))
      else none := by
  simp only [ScanRun.hashVma, hashProcMem_eq, Option.get_some]

/-! ## Reading a baseline back -/

/-- The digest that the text of a baseline file is read as. -/
def baselineDigest (text : List UInt8) : Option CStr :=
  (CStr.fgets 512 text).bind sscanfBaseline

theorem isHexDigit_of_mem_hexDigest {m : List UInt8} {c : UInt8}
    (h : c ∈ Sha256.hexDigest m) : CStr.isHexDigit c = true := by
  rcases List.mem_flatMap.mp h with ⟨b, -, hc⟩
  have hb := b.toNat_lt
  simp only [List.mem_cons, List.not_mem_nil, or_false] at hc
  rcases hc with rfl | rfl
  · exact CStr.isHexDigit_digit (by omega)
  · exact CStr.isHexDigit_digit (by omega)

/-- The digest that was saved is the digest that is read back. -/
theorem baselineDigest_baselineText (start size : UInt64) (m : List UInt8) :
    baselineDigest (baselineText start size (Sha256.hexDigest m)) =
      some (Sha256.hexDigest m) := by
  set hex := Sha256.hexDigest m with hhex
  have hlen : hex.length = 64 := Sha256.length_hexDigest m
  have hne : hex ≠ [] := by
    rw [← List.length_pos_iff, hlen]
    decide
  have htext : baselineText start size hex =
      (CStr.hex start.toNat ++ 32 :: (CStr.hex size.toNat ++ 32 :: hex)) ++ [10] := by
    simp [baselineText, CStr.ascii]
  have hstart : (CStr.hex start.toNat).length ≤ 16 :=
    CStr.length_hex_le (by decide) start.toNat_lt
  have hsize : (CStr.hex size.toNat).length ≤ 16 :=
    CStr.length_hex_le (by decide) size.toNat_lt
  have hgets : CStr.fgets 512 (baselineText start size hex) =
      some (baselineText start size hex) := by
    rw [htext]
    apply CStr.fgets_line
    · simp only [List.length_append, List.length_cons]
      omega
    · intro c hc
      have hdigit : CStr.isHexDigit c = true ∨ c = 32 := by
        simp only [List.mem_append, List.mem_cons] at hc
        rcases hc with hc | rfl | hc | rfl | hc
        · exact .inl (CStr.isHexDigit_of_mem_hex hc)
        · exact .inr rfl
        · exact .inl (CStr.isHexDigit_of_mem_hex hc)
        · exact .inr rfl
        · exact .inl (isHexDigit_of_mem_hexDigest hc)
      refine ⟨?_, ?_⟩
      · rintro rfl
        revert hdigit
        decide
      · rintro rfl
        revert hdigit
        decide
  rw [baselineDigest, hgets, Option.bind_some, htext, sscanfBaseline]
  simp only [List.append_assoc, List.cons_append, CStr.scanHex_hex, CStr.scanHex_space,
    Option.bind_eq_bind, Option.bind_some]
  rw [CStr.scanWord_word hne
    (fun c hc => CStr.isHexDigit_not_isSpace (isHexDigit_of_mem_hexDigest hc)) hlen.le]
  rfl

theorem baselineChanged_iff {text : List UInt8} {hex : CStr} :
    baselineChanged text hex = true ↔ ∃ d, baselineDigest text = some d ∧ d ≠ hex := by
  unfold baselineChanged baselineDigest
  cases CStr.fgets 512 text with
  | none => simp
  | some line =>
      cases hscan : sscanfBaseline line with
      | none => simp [hscan]
      | some bhex => simp [hscan]

/-! ## The two checks -/

/-- A run over the mappings meets a baseline with another digest at an index. -/
def FindsDifference (var : Option CStr) (files : BaselineFiles) (r : ScanRun) (p : Process)
    (priv : Option AcFdState) (v : Nat) : Prop :=
  ∃ vi d text d', (r.records p)[v]? = some vi ∧ r.digest p priv v = some d ∧
    r.openBaseline files v (baselinePathFor var vi.path) = some text ∧
    baselineDigest text = some d' ∧ d' ≠ d

/-- The command prints, for the mapping at an index, that it differs. -/
def PrintsDifference (lines : Option (List (List ScanLine))) (v : Nat) : Prop :=
  ∃ l, (lines.bind fun ls => ls[v]?) = some l ∧ ScanLine.differs ∈ l

theorem scanVma_files {flags : ScanFlags} (hsave : flags.save = false) (var : Option CStr)
    (r : ScanRun) (p : Process) (v : Nat) (vi : AcVmaInfo) (files : BaselineFiles) :
    (scanVma var flags r p v vi files).2 = files := by
  unfold scanVma
  simp only [hsave]
  split
  · split <;> rfl
  · rfl

/-- The lines that `--check` prints. -/
def ScanLine.isVerdict : ScanLine → Bool
  | noBaseline _ | differs | ok => true
  | _ => false

theorem verdict_not_mem_kindLine {x : ScanLine} (hx : x.isVerdict = true) (verbose : Bool)
    (vi : AcVmaInfo) : x ∉ kindLine verbose vi := by
  have hne {y : ScanLine} (hy : y.isVerdict = false) : x ∉ [y] := by
    rw [List.mem_singleton]
    rintro rfl
    rw [hx] at hy
    contradiction
  unfold kindLine
  split
  · exact hne rfl
  · split
    · exact hne rfl
    · split
      · exact hne rfl
      · exact List.not_mem_nil

/-- The comparison of `--check` reports a difference exactly where a baseline with
another digest is open. -/
theorem differs_mem_checkLines_iff (text : Option (List UInt8)) (path hex : CStr) :
    ScanLine.differs ∈ checkLines text path hex ↔
      ∃ t d, text = some t ∧ baselineDigest t = some d ∧ d ≠ hex := by
  cases text with
  | none => simp [checkLines]
  | some t =>
      by_cases hchanged : baselineChanged t hex = true
      · rw [baselineChanged_iff] at hchanged
        rcases hchanged with ⟨d, hd, hne⟩
        refine iff_of_true ?_ ⟨t, d, rfl, hd, hne⟩
        simp [checkLines, baselineChanged_iff.mpr ⟨d, hd, hne⟩]
      · refine iff_of_false (by simp [checkLines, hchanged]) ?_
        rintro ⟨t', d, ht, hd⟩
        cases ht
        exact hchanged (baselineChanged_iff.mpr ⟨d, hd⟩)

theorem ScanRun.entryDigest_eq_some_iff {r : ScanRun} {p : Process} {v : Nat}
    {vi : AcVmaInfo} {d : CStr} :
    r.entryDigest p v vi = some d ↔
      (vi.isExec && vi.isFile) = true ∧ r.memOpen = true ∧ r.hashVma p v vi = some d := by
  rw [ScanRun.entryDigest, Option.ite_none_right_eq_some, Option.ite_none_right_eq_some]

/-- A mapping without a digest is not compared, and nothing is saved for it. -/
theorem scanVma_of_entryDigest_none {r : ScanRun} {p : Process} {v : Nat} {vi : AcVmaInfo}
    (h : r.entryDigest p v vi = none) (var : Option CStr) (flags : ScanFlags)
    (files : BaselineFiles) :
    (∀ x : ScanLine, x.isVerdict = true → x ∉ (scanVma var flags r p v vi files).1) ∧
      (scanVma var flags r p v vi files).2 = files := by
  by_cases hcond : (flags.hash && vi.isExec && vi.isFile) = true
  · have hmap : (vi.isExec && vi.isFile) = true := by
      rw [Bool.and_assoc, Bool.and_eq_true] at hcond
      exact hcond.2
    rw [ScanRun.entryDigest, if_pos hmap] at h
    simp only [scanVma, hcond, h, if_true, and_true]
    intro x hx
    rw [List.mem_append, not_or, List.mem_singleton]
    refine ⟨verdict_not_mem_kindLine hx flags.verbose vi, ?_⟩
    rintro rfl
    contradiction
  · simp only [scanVma, hcond, Bool.false_eq_true, if_false, and_true]
    exact fun x hx => verdict_not_mem_kindLine hx flags.verbose vi

/-- A mapping with a digest is saved and compared as the options say. -/
theorem scanVma_of_entryDigest_some {flags : ScanFlags} (hhash : flags.hash = true)
    {r : ScanRun} {p : Process} {v : Nat} {vi : AcVmaInfo} {d : CStr}
    (h : r.entryDigest p v vi = some d) (var : Option CStr) (files : BaselineFiles) :
    scanVma var flags r p v vi files =
      let blpath := baselinePathFor var vi.path
      let hashed := ScanLine.hashed vi.path vi.start (vi.start + hashSize vi) d
      if flags.save && !r.writable v then
        (kindLine flags.verbose vi ++ [hashed, .cannotWrite blpath], files)
      else
        let files :=
          if flags.save then
            Function.update files blpath (some (baselineText vi.start (hashSize vi) d))
          else files
        (kindLine flags.verbose vi ++ [hashed] ++
          (if flags.save then [ScanLine.saved blpath] else []) ++
          (if flags.check then checkLines (r.openBaseline files v blpath) vi.path d else []),
          files) := by
  rcases ScanRun.entryDigest_eq_some_iff.mp h with ⟨hmap, hmem, hd⟩
  have hcond : (flags.hash && vi.isExec && vi.isFile) = true := by
    rwa [hhash, Bool.true_and]
  simp only [scanVma, hcond, hmem, hd, if_true]

/-- The verdict on a mapping is that of the comparison with its baseline. -/
theorem scanVma_verdict_iff {flags : ScanFlags} (hhash : flags.hash = true)
    (hsave : flags.save = false) (hcheck : flags.check = true) {x : ScanLine}
    (hx : x.isVerdict = true) (var : Option CStr) (r : ScanRun) (p : Process) (v : Nat)
    (vi : AcVmaInfo) (files : BaselineFiles) :
    x ∈ (scanVma var flags r p v vi files).1 ↔
      ∃ d, r.entryDigest p v vi = some d ∧
        x ∈ checkLines (r.openBaseline files v (baselinePathFor var vi.path)) vi.path d := by
  cases hd : r.entryDigest p v vi with
  | none =>
      have hquiet := (scanVma_of_entryDigest_none hd var flags files).1 x hx
      simp [hquiet]
  | some d =>
      have hkind := verdict_not_mem_kindLine hx flags.verbose vi
      have hhashed : x ≠ .hashed vi.path vi.start (vi.start + hashSize vi) d := by
        rintro rfl
        contradiction
      rw [scanVma_of_entryDigest_some hhash hd]
      simp [hsave, hcheck, hkind, hhashed]

/-- The verdicts of `scan --hash --check`. -/
theorem cmdScan_check_verdict_iff {flags : ScanFlags} (hhash : flags.hash = true)
    (hsave : flags.save = false) (hcheck : flags.check = true) {x : ScanLine}
    (hx : x.isVerdict = true) (var : Option CStr) (r : ScanRun) (p : Process) (pid : Int)
    (files : BaselineFiles) (v : Nat) :
    (∃ l, ((cmdScan var flags r p pid files).1.bind fun ls => ls[v]?) = some l ∧ x ∈ l) ↔
      ∃ vi d, (r.records p)[v]? = some vi ∧ r.digest p none v = some d ∧
        x ∈ checkLines (r.openBaseline files v (baselinePathFor var vi.path)) vi.path d := by
  cases hbegins : r.begins none with
  | false =>
      rcases r.scanBegin_fails hbegins p pid true with ⟨e, priv', hrun⟩
      have hnone : (cmdScan var flags r p pid files).1 = none := by
        rw [cmdScan, hrun]
      have hdigest : r.digest p none v = none := by
        simp [ScanRun.digest, hbegins]
      simp [hnone, hdigest]
  | true =>
      rcases r.scanBegin_ok hbegins p pid true with ⟨b, st, hrun, hcells, hcount⟩
      have hlines : (cmdScan var flags r p pid files).1 =
          some ((r.records p).mapIdx fun i vi => (scanVma var flags r p (0 + i) vi files).1) := by
        simp only [cmdScan, hrun, hcount]
        rw [scanGetLoop_eq _ hcells _ 0 (by omega), List.drop_zero,
          walk_outputs (fun s => s = files) (fun v vi => (scanVma var flags r p v vi files).1)
            ?_ 0 _ rfl]
        rintro v vi _ rfl
        exact ⟨rfl, scanVma_files hsave var r p v vi _⟩
      unfold ScanRun.digest
      rw [hlines, if_pos hbegins, Option.bind_some, List.getElem?_mapIdx, Nat.zero_add]
      cases hvi : (r.records p)[v]? with
      | none => simp
      | some vi => simpa using scanVma_verdict_iff hhash hsave hcheck hx var r p v vi files

/-- When `scan --hash --check` reports a difference. -/
theorem cmdScan_check_differs_iff {flags : ScanFlags} (hhash : flags.hash = true)
    (hsave : flags.save = false) (hcheck : flags.check = true) (var : Option CStr)
    (r : ScanRun) (p : Process) (pid : Int) (files : BaselineFiles) (v : Nat) :
    PrintsDifference (cmdScan var flags r p pid files).1 v ↔
      FindsDifference var files r p none v := by
  rw [PrintsDifference, cmdScan_check_verdict_iff hhash hsave hcheck rfl]
  simp only [differs_mem_checkLines_iff, FindsDifference, exists_and_left]

@[simp]
theorem MemFd.ensure_closed (memOpen : Bool) :
    MemFd.closed.ensure memOpen = if memOpen then .opened else .failed :=
  rfl

@[simp]
theorem MemFd.ensure_opened (memOpen : Bool) : MemFd.opened.ensure memOpen = .opened :=
  rfl

@[simp]
theorem MemFd.ensure_failed (memOpen : Bool) : MemFd.failed.ensure memOpen = .failed :=
  rfl

/-- The messages for one mapping, given that the memory opens as the run says. -/
def checkMsgs (var : Option CStr) (files : BaselineFiles) (item : AcProtItem) (r : ScanRun)
    (p : Process) (v : Nat) (vi : AcVmaInfo) : List BaselineMsg :=
  match r.entryDigest p v vi,
    (r.openBaseline files v (baselinePathFor var vi.path)).bind baselineDigest with
  | some d, some d' => if d' != d then [⟨item.pid, item.comm, vi.path⟩] else []
  | _, _ => []

/-- What one iteration of the periodic check reports does not depend on the mappings
before it, which at most opened the memory. -/
theorem checkVma_eq (var : Option CStr) (files : BaselineFiles) (item : AcProtItem)
    (r : ScanRun) (p : Process) (v : Nat) (vi : AcVmaInfo) {fd : MemFd}
    (hfd : fd.ensure r.memOpen = MemFd.closed.ensure r.memOpen) :
    (checkVma var files item r p v vi fd).1 = checkMsgs var files item r p v vi ∧
      (checkVma var files item r p v vi fd).2.ensure r.memOpen =
        MemFd.closed.ensure r.memOpen := by
  by_cases hmap : (vi.isExec && vi.isFile) = true
  · have hskip : (!vi.isExec || !vi.isFile) = false := by
      rw [← Bool.not_and, hmap, Bool.not_true]
    have hentry : r.entryDigest p v vi = if r.memOpen then r.hashVma p v vi else none := by
      rw [ScanRun.entryDigest, if_pos hmap]
    unfold checkVma checkMsgs
    rw [hskip, hentry]
    cases hopen : r.openBaseline files v (baselinePathFor var vi.path) with
    | none => exact ⟨by simp, hfd⟩
    | some text =>
        cases hgets : CStr.fgets 512 text with
        | none => simp [baselineDigest, hgets, hfd]
        | some line =>
            cases hscan : sscanfBaseline line with
            | none => simp [baselineDigest, hgets, hscan, hfd]
            | some bhex =>
                cases hmem : r.memOpen with
                | false =>
                    rw [hmem] at hfd
                    simp [baselineDigest, hgets, hscan, hfd]
                | true =>
                    rw [hmem] at hfd
                    cases r.hashVma p v vi with
                    | none => simp [baselineDigest, hgets, hscan, hfd]
                    | some hex => simp [baselineDigest, hgets, hscan, hfd]
  · have hskip : (!vi.isExec || !vi.isFile) = true := by
      rw [← Bool.not_and, Bool.eq_false_iff.mpr hmap, Bool.not_false]
    have hentry : r.entryDigest p v vi = none := by
      rw [ScanRun.entryDigest, if_neg hmap]
    simp [checkVma, checkMsgs, hskip, hentry, hfd]

theorem checkMsgs_ne_nil_iff (var : Option CStr) (files : BaselineFiles) (item : AcProtItem)
    (r : ScanRun) (p : Process) (v : Nat) (vi : AcVmaInfo) :
    checkMsgs var files item r p v vi ≠ [] ↔
      ∃ d text d', r.entryDigest p v vi = some d ∧
        r.openBaseline files v (baselinePathFor var vi.path) = some text ∧
        baselineDigest text = some d' ∧ d' ≠ d := by
  unfold checkMsgs
  cases hentry : r.entryDigest p v vi with
  | none => simp
  | some d =>
      cases hopen : r.openBaseline files v (baselinePathFor var vi.path) with
      | none => simp
      | some text =>
          cases htext : baselineDigest text with
          | none => simp [htext]
          | some d' => simp [htext]

/-- The periodic check reports, for the mapping at an index, that it differs. -/
def ReportsDifference (msgs : List (List BaselineMsg)) (v : Nat) : Prop :=
  ∃ l, msgs[v]? = some l ∧ l ≠ []

/-- When the periodic check reports a difference. -/
theorem checkItem_reports_iff (var : Option CStr) (files : BaselineFiles) (item : AcProtItem)
    (r : ScanRun) (p : Process) (priv : Option AcFdState) (v : Nat) :
    ReportsDifference (checkItem var files item r p priv).1 v ↔
      FindsDifference var files r p priv v := by
  cases hbegins : r.begins priv with
  | false =>
      rcases r.scanBegin_fails hbegins p item.pid false with ⟨e, priv', hrun⟩
      have hnil : (checkItem var files item r p priv).1 = [] := by
        rw [checkItem, hrun]
      refine iff_of_false ?_ ?_
      · rintro ⟨l, hl, -⟩
        rw [hnil] at hl
        contradiction
      · rintro ⟨vi, d, text, d', -, hd, -⟩
        simp [ScanRun.digest, hbegins] at hd
  | true =>
      rcases r.scanBegin_ok hbegins p item.pid false with ⟨b, st, hrun, hcells, hcount⟩
      have hmsgs : (checkItem var files item r p priv).1 =
          (r.records p).mapIdx fun i vi => checkMsgs var files item r p (0 + i) vi := by
        simp only [checkItem, hrun, hcount]
        rw [scanGetLoop_eq _ hcells _ 0 (by omega), List.drop_zero]
        exact walk_outputs (fun fd => fd.ensure r.memOpen = MemFd.closed.ensure r.memOpen)
          (checkMsgs var files item r p)
          (fun v vi fd hfd => checkVma_eq var files item r p v vi hfd) 0 _ rfl
      unfold ReportsDifference FindsDifference ScanRun.digest
      rw [hmsgs, if_pos hbegins, List.getElem?_mapIdx, Nat.zero_add]
      cases hvi : (r.records p)[v]? with
      | none => simp
      | some vi => simpa using checkMsgs_ne_nil_iff var files item r p v vi

/-! ## What a save leaves -/

/-- The digest that one iteration of a save writes under a name. -/
def ScanRun.savesUnder (r : ScanRun) (var : Option CStr) (p : Process) (name : CStr)
    (v : Nat) (vi : AcVmaInfo) : Option CStr :=
  if baselinePathFor var vi.path = name ∧ r.writable v = true then r.entryDigest p v vi
  else none

/-- The digest that the last of the entries saved under a name has. -/
def ScanRun.lastSaved (r : ScanRun) (var : Option CStr) (p : Process) (name : CStr)
    (v : Nat) (l : List AcVmaInfo) : Option CStr :=
  ((l.zipIdx v).filterMap fun e => r.savesUnder var p name e.2 e.1).getLast?

/-- The digest that a save run leaves under a name, if it writes there. -/
def ScanRun.savedDigest (r : ScanRun) (var : Option CStr) (p : Process) (name : CStr) :
    Option CStr :=
  if r.begins none then r.lastSaved var p name 0 (r.records p) else none

theorem ScanRun.lastSaved_cons (r : ScanRun) (var : Option CStr) (p : Process) (name : CStr)
    (v : Nat) (vi : AcVmaInfo) (l : List AcVmaInfo) :
    r.lastSaved var p name v (vi :: l) =
      (r.lastSaved var p name (v + 1) l).or (r.savesUnder var p name v vi) := by
  unfold ScanRun.lastSaved
  rw [List.zipIdx_cons]
  cases hsaves : r.savesUnder var p name v vi with
  | none => simp only [List.filterMap_cons, hsaves, Option.or_none]
  | some d => simp only [List.filterMap_cons, hsaves, List.getLast?_cons, Option.or_some]

/-- One iteration of a save writes under at most one name. -/
theorem scanVma_save {flags : ScanFlags} (hhash : flags.hash = true)
    (hsave : flags.save = true) (var : Option CStr) (r : ScanRun) (p : Process) (v : Nat)
    (vi : AcVmaInfo) (files : BaselineFiles) (name : CStr) :
    ((scanVma var flags r p v vi files).2 name).bind baselineDigest =
      (r.savesUnder var p name v vi).or ((files name).bind baselineDigest) := by
  cases hd : r.entryDigest p v vi with
  | none =>
      have hsame := (scanVma_of_entryDigest_none hd var flags files).2
      simp [hsame, ScanRun.savesUnder, hd]
  | some d =>
      have hdigest : baselineDigest (baselineText vi.start (hashSize vi) d) = some d := by
        have hhashed := (ScanRun.entryDigest_eq_some_iff.mp hd).2.2
        rw [r.hashVma_eq, Option.ite_none_right_eq_some] at hhashed
        rw [← Option.some.inj hhashed.2]
        exact baselineDigest_baselineText _ _ _
      rw [scanVma_of_entryDigest_some hhash hd]
      cases hwrite : r.writable v with
      | false => simp [ScanRun.savesUnder, hwrite, hsave]
      | true =>
          by_cases hname : baselinePathFor var vi.path = name
          · simp [ScanRun.savesUnder, hd, hwrite, hsave, hname, hdigest]
          · simp [ScanRun.savesUnder, hwrite, hsave, hname,
              Function.update_of_ne (Ne.symm hname)]

theorem walk_save {flags : ScanFlags} (hhash : flags.hash = true) (hsave : flags.save = true)
    (var : Option CStr) (r : ScanRun) (p : Process) (name : CStr) (v : Nat)
    (l : List AcVmaInfo) (files : BaselineFiles) :
    ((walk (scanVma var flags r p) v l files).2 name).bind baselineDigest =
      (r.lastSaved var p name v l).or ((files name).bind baselineDigest) := by
  induction l generalizing v files with
  | nil => rfl
  | cons vi l ih =>
      rw [walk, ih, scanVma_save hhash hsave, r.lastSaved_cons, Option.or_assoc]

/-- After a save, a baseline file holds the digest that was last written to it, or
what it held before. -/
theorem cmdScan_save_digest {flags : ScanFlags} (hhash : flags.hash = true)
    (hsave : flags.save = true) (var : Option CStr) (r : ScanRun) (p : Process) (pid : Int)
    (files : BaselineFiles) (name : CStr) :
    ((cmdScan var flags r p pid files).2 name).bind baselineDigest =
      (r.savedDigest var p name).or ((files name).bind baselineDigest) := by
  cases hbegins : r.begins none with
  | false =>
      rcases r.scanBegin_fails hbegins p pid true with ⟨e, priv', hrun⟩
      simp [cmdScan, hrun, ScanRun.savedDigest, hbegins]
  | true =>
      rcases r.scanBegin_ok hbegins p pid true with ⟨b, st, hrun, hcells, hcount⟩
      simp only [cmdScan, hrun, hcount, ScanRun.savedDigest, hbegins, if_true]
      rw [scanGetLoop_eq _ hcells _ 0 (by omega), List.drop_zero, walk_save hhash hsave]

end Anticheat
