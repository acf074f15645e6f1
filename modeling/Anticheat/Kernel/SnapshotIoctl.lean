import Anticheat.Kernel.Snapshot

/-!
# The snapshot protocol

User space takes a snapshot with a BEGIN ioctl, reads it entry by entry with
GET and drops it with END.  The snapshot belongs to the open file; a scan of a
process and a listing of the modules are kept side by side.

Every ioctl runs under the lock of the file's state, so a history is a sequence
of calls, each on one open file.  The trace of a history keeps the replies.

Main results:

- Theorem {lit}`SnapState.Inv.step`: every call keeps the arrays in agreement with the
  trace.
- Theorem {lit}`snapshot_protocol`: what GET answers after any history, and which
  calls can change it.
-/

namespace Anticheat

open Foundation

/-- `ac_get_fd_state`: the state of the file, allocated on first use. -/
def acGetFdState (alloc : Bool) : Option AcFdState → Option AcFdState
  | some st => some st
  | none => if alloc then some {} else none

/-- The snapshot ioctls.  A BEGIN carries what it meets: the outcome of the
allocation of the file's state, and the process or module list. -/
inductive SnapCall where
  | scanBegin (fdAlloc : Bool) (env : ScanEnv) (pid : Int) (emitEvents : Bool)
  | scanGet (index : Nat)
  | scanEnd
  | modsBegin (fdAlloc alloc : Bool) (walk : List KModule)
  | modsGet (index : Nat)
  | modsEnd

/-- What a successful call copies to user space.  An entry that was read from
outside the written part of an array is `none`. -/
inductive SnapReply where
  | scanBegun (b : AcScanBegin)
  | vma (v : Option AcVmaInfo)
  | modsBegun (count : Nat)
  | mod (m : Option AcModInfo)
  | done
deriving DecidableEq

/-- Reading one cell of an array. -/
def readCell {α : Type} {n : Nat} (cells : Option (SlotTable (Option α) n)) (i : Nat) :
    Option α :=
  match cells with
  | none => none
  | some t => (t.slots[i]?).join

/-- `AC_IOCTL_SCAN_BEGIN` -/
def acIoctlScanBegin (fdAlloc : Bool) (env : ScanEnv) (pid : Int) (emitEvents : Bool)
    (priv : Option AcFdState) : Except Errno SnapReply × Option AcFdState :=
  match acGetFdState fdAlloc priv with
  | none => (.error .ENOMEM, priv)
  | some st =>
      match acBuildVmaSnapshot env pid emitEvents st with
      | (.error e, st, _) => (.error e, some st)
      | (.ok (), st, _) =>
          (.ok (.scanBegun {
            pid := pid
            emitEvents := emitEvents
            nVmas := st.nVmas
            rwxCount := st.rwxCount
            execCount := st.execCount
            anonExecCount := st.anonExecCount
            truncated := st.truncated }), some st)

/-- `AC_IOCTL_SCAN_GET` -/
def acIoctlScanGet (index : Nat) (priv : Option AcFdState) : Except Errno SnapReply :=
  match priv with
  | none => .error .EINVAL
  | some st =>
      if index ≥ st.nVmas then .error .EINVAL
      else .ok (.vma (readCell st.vmas index))

/-- `AC_IOCTL_SCAN_END` -/
def acIoctlScanEnd (priv : Option AcFdState) : Option AcFdState :=
  priv.map fun st => { st with vmas := none, nVmas := 0 }

/-- `AC_IOCTL_MODS_BEGIN` -/
def acIoctlModsBegin (fdAlloc alloc : Bool) (walk : List KModule)
    (priv : Option AcFdState) : Except Errno SnapReply × Option AcFdState :=
  match acGetFdState fdAlloc priv with
  | none => (.error .ENOMEM, priv)
  | some st =>
      match acBuildModSnapshot alloc walk st with
      | (.error e, st) => (.error e, some st)
      | (.ok (), st) => (.ok (.modsBegun st.nMods), some st)

/-- `AC_IOCTL_MODS_GET` -/
def acIoctlModsGet (index : Nat) (priv : Option AcFdState) : Except Errno SnapReply :=
  match priv with
  | none => .error .EINVAL
  | some st =>
      if index ≥ st.nMods then .error .EINVAL
      else .ok (.mod (readCell st.mods index))

/-- `AC_IOCTL_MODS_END` -/
def acIoctlModsEnd (priv : Option AcFdState) : Option AcFdState :=
  priv.map fun st => { st with mods := none, nMods := 0 }

/-- The snapshot part of `ac_ioctl`, on a file with private data `priv`. -/
def acIoctlSnap (capable : Bool) (call : SnapCall) (priv : Option AcFdState) :
    Except Errno SnapReply × Option AcFdState :=
  if !capable then
    (.error .EPERM, priv)
  else
    match call with
    | .scanBegin fdAlloc env pid emitEvents =>
        acIoctlScanBegin fdAlloc env pid emitEvents priv
    | .scanGet index => (acIoctlScanGet index priv, priv)
    | .scanEnd => (.ok .done, acIoctlScanEnd priv)
    | .modsBegin fdAlloc alloc walk => acIoctlModsBegin fdAlloc alloc walk priv
    | .modsGet index => (acIoctlModsGet index priv, priv)
    | .modsEnd => (.ok .done, acIoctlModsEnd priv)

/-! ## Histories -/

variable {File : Type} [DecidableEq File]

/-- One call of a history, with its reply. -/
structure SnapEvent (File : Type) where
  file : File
  capable : Bool
  call : SnapCall
  reply : Except Errno SnapReply

/-- The private data of every open file, and the calls so far. -/
structure SnapState (File : Type) where
  files : File → Option AcFdState
  trace : List (SnapEvent File)

/-- No file has a state before its first BEGIN. -/
def SnapState.initial (File : Type) : SnapState File where
  files := fun _ => none
  trace := []

/-- One call. -/
def SnapState.step (s : SnapState File) (c : File × Bool × SnapCall) : SnapState File where
  files := Function.update s.files c.1 (acIoctlSnap c.2.1 c.2.2 (s.files c.1)).2
  trace := s.trace ++ [{
    file := c.1
    capable := c.2.1
    call := c.2.2
    reply := (acIoctlSnap c.2.1 c.2.2 (s.files c.1)).1 }]

/-- The state after a history. -/
def snapRun (calls : List (File × Bool × SnapCall)) : SnapState File :=
  calls.foldl SnapState.step (SnapState.initial File)

/-- The call begins or ends a scan. -/
def SnapCall.isScanMark : SnapCall → Bool
  | .scanBegin _ _ _ _ => true
  | .scanEnd => true
  | _ => false

/-- The call begins or ends a module listing. -/
def SnapCall.isModsMark : SnapCall → Bool
  | .modsBegin _ _ _ => true
  | .modsEnd => true
  | _ => false

/-- What a successful SCAN_BEGIN reported, and the entries of its snapshot. -/
def SnapEvent.begunScan {File : Type} (e : SnapEvent File) :
    Option (AcScanBegin × List AcVmaInfo) :=
  match e.call, e.reply with
  | .scanBegin _ env _ _, .ok (.scanBegun b) =>
      some (b, recordsFrom env.bufs 0 (env.mm.getD []))
  | _, _ => none

/-- What a successful MODS_BEGIN reported, and the entries of its snapshot. -/
def SnapEvent.begunMods {File : Type} (e : SnapEvent File) :
    Option (Nat × List AcModInfo) :=
  match e.call, e.reply with
  | .modsBegin _ _ walk, .ok (.modsBegun count) => some (count, modRecords walk)
  | _, _ => none

/-- The last event on a file that meets a condition. -/
def lastEvent (mark : SnapCall → Bool) (f : File) (trace : List (SnapEvent File)) :
    Option (SnapEvent File) :=
  (trace.filter fun e => decide (e.file = f) && e.capable && mark e.call).getLast?

/-- The snapshot of the last SCAN_BEGIN or SCAN_END on the file, if that was a
SCAN_BEGIN that succeeded. -/
def lastScan (f : File) (trace : List (SnapEvent File)) :
    Option (AcScanBegin × List AcVmaInfo) :=
  (lastEvent SnapCall.isScanMark f trace).bind SnapEvent.begunScan

/-- The snapshot of the last MODS_BEGIN or MODS_END on the file, if that was a
MODS_BEGIN that succeeded. -/
def lastMods (f : File) (trace : List (SnapEvent File)) :
    Option (Nat × List AcModInfo) :=
  (lastEvent SnapCall.isModsMark f trace).bind SnapEvent.begunMods

/-! ## Arrays that hold a snapshot -/

/-- An array with its length holds a snapshot, or is not allocated. -/
def CellsHold {α : Type} {n : Nat} (cells : Option (SlotTable (Option α) n)) (count : Nat) :
    Option (List α) → Prop
  | none => cells = none ∧ count = 0
  | some l => ∃ t, cells = some t ∧ t.Holds l ∧ count = l.length

theorem CellsHold.allocated {α : Type} {n : Nat}
    {cells : Option (SlotTable (Option α) n)} {count : Nat} {o : Option (List α)}
    (h : CellsHold cells count o) (hpos : 0 < count) :
    ∃ t, cells = some t ∧ ∀ i, i < count → ∃ v, t.slots[i]? = some (some v) := by
  cases o with
  | none =>
      rw [h.2] at hpos
      contradiction
  | some l =>
      rcases h with ⟨t, hcells, hholds, hcount⟩
      refine ⟨t, hcells, ?_⟩
      intro i hi
      rw [hcount] at hi
      exact ⟨l[i], by rw [hholds.get hi, List.getElem?_eq_getElem hi]⟩

theorem CellsHold.read {α : Type} {n : Nat}
    {cells : Option (SlotTable (Option α) n)} {count : Nat} {l : List α}
    (h : CellsHold cells count (some l)) {i : Nat} (hi : i < count) :
    readCell cells i = l[i]? := by
  rcases h with ⟨t, rfl, hholds, rfl⟩
  unfold readCell
  simp only [hholds.get hi, Option.join_some]

/-- A SCAN_GET inside a snapshot answers with the entry. -/
theorem CellsHold.scanGet {st : AcFdState} {l : List AcVmaInfo}
    (h : CellsHold st.vmas st.nVmas (some l)) {v : Nat} (hv : v < l.length) :
    (acIoctlSnap true (.scanGet v) (some st)).1 = .ok (.vma (some l[v])) := by
  have hcount : st.nVmas = l.length := by
    rcases h with ⟨t, -, -, hcount⟩
    exact hcount
  have hread := CellsHold.read h (show v < st.nVmas by omega)
  rw [List.getElem?_eq_getElem hv] at hread
  simp [acIoctlSnap, acIoctlScanGet, hread, hcount, hv]

/-- A MODS_GET inside a listing answers with the entry. -/
theorem CellsHold.modsGet {st : AcFdState} {l : List AcModInfo}
    (h : CellsHold st.mods st.nMods (some l)) {v : Nat} (hv : v < l.length) :
    (acIoctlSnap true (.modsGet v) (some st)).1 = .ok (.mod (some l[v])) := by
  have hcount : st.nMods = l.length := by
    rcases h with ⟨t, -, -, hcount⟩
    exact hcount
  have hread := CellsHold.read h (show v < st.nMods by omega)
  rw [List.getElem?_eq_getElem hv] at hread
  simp [acIoctlSnap, acIoctlModsGet, hread, hcount, hv]

/-- A MODS_BEGIN that succeeds reports the number of records and keeps them. -/
theorem acIoctlModsBegin_ok {fdAlloc alloc : Bool} {walk : List KModule}
    {priv priv' : Option AcFdState} {reply : SnapReply}
    (h : acIoctlModsBegin fdAlloc alloc walk priv = (.ok reply, priv')) :
    reply = .modsBegun (modRecords walk).length ∧
      ∃ st, priv' = some st ∧ CellsHold st.mods st.nMods (some (modRecords walk)) := by
  unfold acIoctlModsBegin at h
  cases hst : acGetFdState fdAlloc priv with
  | none => simp [hst] at h
  | some st =>
      have hspec := acBuildModSnapshot_spec alloc walk st
      cases alloc with
      | false =>
          simp only [Bool.false_eq_true, if_false] at hspec
          simp [hst, hspec] at h
      | true =>
          rcases hspec with ⟨t, hrun, hholds⟩
          simp only [hst, hrun, Prod.mk.injEq, Except.ok.injEq] at h
          rcases h with ⟨rfl, rfl⟩
          exact ⟨rfl, _, rfl, t, rfl, hholds, rfl⟩

/-- The private data of a file agrees with the trace. -/
def FileInv (priv : Option AcFdState) (scan : Option (AcScanBegin × List AcVmaInfo))
    (mods : Option (Nat × List AcModInfo)) : Prop :=
  (∀ b l, scan = some (b, l) → b.nVmas = l.length) ∧
    (∀ count l, mods = some (count, l) → count = l.length) ∧
    match priv with
    | none => scan = none ∧ mods = none
    | some st =>
        CellsHold st.vmas st.nVmas (scan.map Prod.snd) ∧
          CellsHold st.mods st.nMods (mods.map Prod.snd)

/-! ## One call -/

theorem lastEvent_append (mark : SnapCall → Bool) (f : File) (trace : List (SnapEvent File))
    (e : SnapEvent File) :
    lastEvent mark f (trace ++ [e]) =
      if e.file = f ∧ e.capable = true ∧ mark e.call = true then some e
      else lastEvent mark f trace := by
  unfold lastEvent
  rw [List.filter_append]
  by_cases he : e.file = f ∧ e.capable = true ∧ mark e.call = true
  · simp [he]
  · rw [if_neg he, List.filter_cons_of_neg, List.filter_nil, List.append_nil]
    simpa [and_assoc] using he

theorem lastScan_append (f : File) (trace : List (SnapEvent File)) (e : SnapEvent File) :
    lastScan f (trace ++ [e]) =
      if e.file = f ∧ e.capable = true ∧ e.call.isScanMark = true then e.begunScan
      else lastScan f trace := by
  unfold lastScan
  rw [lastEvent_append]
  split <;> rfl

theorem lastMods_append (f : File) (trace : List (SnapEvent File)) (e : SnapEvent File) :
    lastMods f (trace ++ [e]) =
      if e.file = f ∧ e.capable = true ∧ e.call.isModsMark = true then e.begunMods
      else lastMods f trace := by
  unfold lastMods
  rw [lastEvent_append]
  split <;> rfl

/-- The state that a BEGIN works on agrees with the trace, also if it is new. -/
theorem FileInv.fdState {priv : Option AcFdState}
    {scan : Option (AcScanBegin × List AcVmaInfo)} {mods : Option (Nat × List AcModInfo)}
    (h : FileInv priv scan mods) {alloc : Bool} {st : AcFdState}
    (hst : acGetFdState alloc priv = some st) :
    CellsHold st.vmas st.nVmas (scan.map Prod.snd) ∧
      CellsHold st.mods st.nMods (mods.map Prod.snd) := by
  cases priv with
  | some st' =>
      cases hst
      exact h.2.2
  | none =>
      rcases h.2.2 with ⟨rfl, rfl⟩
      cases alloc with
      | false => contradiction
      | true =>
          cases hst
          exact ⟨⟨rfl, rfl⟩, ⟨rfl, rfl⟩⟩

theorem acGetFdState_none {alloc : Bool} {priv : Option AcFdState}
    (h : acGetFdState alloc priv = none) : priv = none := by
  cases priv with
  | none => rfl
  | some st => contradiction

/-- The reply of a SCAN_BEGIN that succeeds on an address space. -/
def scanReply (env : ScanEnv) (pid : Int) (emitEvents : Bool) (areas : List VmArea) :
    AcScanBegin where
  pid := pid
  emitEvents := emitEvents
  nVmas := (recordsFrom env.bufs 0 areas).length
  rwxCount := (areas.take acMaxVmas).countP VmArea.isRwx
  execCount := (areas.take acMaxVmas).countP VmArea.isExec
  anonExecCount := (areas.take acMaxVmas).countP VmArea.isAnonExec
  truncated := decide (acMaxVmas < areas.length)

/-- A SCAN_BEGIN that meets a process with memory and gets its allocations
fills the array and leaves the module listing alone. -/
theorem acIoctlScanBegin_ok {priv : Option AcFdState} {fdAlloc : Bool} {st : AcFdState}
    (hst : acGetFdState fdAlloc priv = some st) {env : ScanEnv} {l : List AcVmaInfo}
    (henv : env.snapshot = some l) (pid : Int) (emitEvents : Bool) :
    ∃ areas st', env.mm = some areas ∧ l = recordsFrom env.bufs 0 areas ∧
      acIoctlScanBegin fdAlloc env pid emitEvents priv =
        (.ok (.scanBegun (scanReply env pid emitEvents areas)), some st') ∧
      CellsHold st'.vmas st'.nVmas (some l) ∧ st'.mods = st.mods ∧ st'.nMods = st.nMods := by
  rcases env.snapshot_some henv with ⟨areas, htask, hmm, halloc, rfl⟩
  rcases acBuildVmaSnapshot_ok htask hmm halloc pid emitEvents st with
    ⟨t, emitted, hrun, hholds⟩
  have heq : acIoctlScanBegin fdAlloc env pid emitEvents priv =
      (.ok (.scanBegun (scanReply env pid emitEvents areas)),
        some (acBuildVmaSnapshot env pid emitEvents st).2.1) := by
    unfold acIoctlScanBegin
    simp only [hst, hrun]
    rfl
  rw [hrun] at heq
  exact ⟨areas, _, hmm, rfl, heq, ⟨t, rfl, hholds, rfl⟩, rfl, rfl⟩

/-- Any other SCAN_BEGIN fails and leaves no scan. -/
theorem acIoctlScanBegin_fails {priv : Option AcFdState} {fdAlloc : Bool} {env : ScanEnv}
    (h : acGetFdState fdAlloc priv = none ∨ env.snapshot = none) (pid : Int)
    (emitEvents : Bool) :
    ∃ e priv', acIoctlScanBegin fdAlloc env pid emitEvents priv = (.error e, priv') ∧
      ((priv = none ∧ priv' = none) ∨
        ∃ st st', acGetFdState fdAlloc priv = some st ∧ priv' = some st' ∧
          CellsHold st'.vmas st'.nVmas none ∧ st'.mods = st.mods ∧ st'.nMods = st.nMods) := by
  cases hst : acGetFdState fdAlloc priv with
  | none =>
      have hpriv := acGetFdState_none hst
      refine ⟨.ENOMEM, priv, ?_, .inl ⟨hpriv, hpriv⟩⟩
      unfold acIoctlScanBegin
      rw [hst]
  | some st =>
      have henv : env.snapshot = none := by
        rcases h with h | h
        · rw [hst] at h
          contradiction
        · exact h
      rcases acBuildVmaSnapshot_fails henv pid emitEvents st with ⟨e, hrun⟩
      have heq : acIoctlScanBegin fdAlloc env pid emitEvents priv =
          (.error e, some (acBuildVmaSnapshot env pid emitEvents st).2.1) := by
        unfold acIoctlScanBegin
        simp only [hst, hrun]
      rw [hrun] at heq
      exact ⟨e, _, heq, .inr ⟨st, _, rfl, rfl, ⟨rfl, rfl⟩, rfl, rfl⟩⟩

omit [DecidableEq File] in
/-- SCAN_BEGIN replaces the scan, by nothing if it fails. -/
theorem FileInv.scanBegin {priv : Option AcFdState}
    {scan : Option (AcScanBegin × List AcVmaInfo)} {mods : Option (Nat × List AcModInfo)}
    (h : FileInv priv scan mods) (f : File) (fdAlloc : Bool) (env : ScanEnv) (pid : Int)
    (emitEvents : Bool) :
    FileInv (acIoctlScanBegin fdAlloc env pid emitEvents priv).2
      (SnapEvent.begunScan {
        file := f
        capable := true
        call := .scanBegin fdAlloc env pid emitEvents
        reply := (acIoctlScanBegin fdAlloc env pid emitEvents priv).1 }) mods := by
  by_cases hfail : acGetFdState fdAlloc priv = none ∨ env.snapshot = none
  · rcases acIoctlScanBegin_fails hfail pid emitEvents with ⟨e, priv', hrun, hpriv⟩
    rw [hrun]
    refine ⟨by simp [SnapEvent.begunScan], h.2.1, ?_⟩
    rcases hpriv with ⟨rfl, rfl⟩ | ⟨st, st', hst, rfl, hcells, hmods, hcount⟩
    · exact ⟨rfl, h.2.2.2⟩
    · refine ⟨hcells, ?_⟩
      rw [hmods, hcount]
      exact (h.fdState hst).2
  · rw [not_or] at hfail
    rcases Option.ne_none_iff_exists'.1 hfail.1 with ⟨st, hst⟩
    rcases Option.ne_none_iff_exists'.1 hfail.2 with ⟨l, henv⟩
    rcases acIoctlScanBegin_ok hst henv pid emitEvents with
      ⟨areas, st', hmm, rfl, hrun, hcells, hmods, hcount⟩
    rw [hrun]
    simp only [SnapEvent.begunScan, hmm, Option.getD_some]
    refine ⟨?_, h.2.1, hcells, ?_⟩
    · intro b l hbl
      cases hbl
      rfl
    · rw [hmods, hcount]
      exact (h.fdState hst).2

omit [DecidableEq File] in
/-- MODS_BEGIN replaces the listing, by nothing if it fails. -/
theorem FileInv.modsBegin {priv : Option AcFdState}
    {scan : Option (AcScanBegin × List AcVmaInfo)} {mods : Option (Nat × List AcModInfo)}
    (h : FileInv priv scan mods) (f : File) (fdAlloc alloc : Bool) (walk : List KModule) :
    FileInv (acIoctlModsBegin fdAlloc alloc walk priv).2 scan
      (SnapEvent.begunMods {
        file := f
        capable := true
        call := .modsBegin fdAlloc alloc walk
        reply := (acIoctlModsBegin fdAlloc alloc walk priv).1 }) := by
  unfold acIoctlModsBegin
  cases hst : acGetFdState fdAlloc priv with
  | none =>
      have hpriv := acGetFdState_none hst
      subst priv
      exact ⟨h.1, by simp [SnapEvent.begunMods], h.2.2.1, rfl⟩
  | some st =>
      have hscan := (h.fdState hst).1
      have hspec := acBuildModSnapshot_spec alloc walk st
      cases alloc with
      | false =>
          simp only [Bool.false_eq_true, if_false] at hspec
          simp only [hspec]
          exact ⟨h.1, by simp [SnapEvent.begunMods], hscan, ⟨rfl, rfl⟩⟩
      | true =>
          rcases hspec with ⟨t, hrun, hholds⟩
          simp only [hrun, SnapEvent.begunMods]
          refine ⟨h.1, ?_, hscan, ⟨t, rfl, hholds, rfl⟩⟩
          intro count l hcl
          cases hcl
          rfl

theorem FileInv.scanEnd {priv : Option AcFdState}
    {scan : Option (AcScanBegin × List AcVmaInfo)} {mods : Option (Nat × List AcModInfo)}
    (h : FileInv priv scan mods) : FileInv (acIoctlScanEnd priv) none mods := by
  refine ⟨by simp, h.2.1, ?_⟩
  cases priv with
  | none => exact ⟨rfl, h.2.2.2⟩
  | some st => exact ⟨⟨rfl, rfl⟩, h.2.2.2⟩

theorem FileInv.modsEnd {priv : Option AcFdState}
    {scan : Option (AcScanBegin × List AcVmaInfo)} {mods : Option (Nat × List AcModInfo)}
    (h : FileInv priv scan mods) : FileInv (acIoctlModsEnd priv) scan none := by
  refine ⟨h.1, by simp, ?_⟩
  cases priv with
  | none => exact ⟨h.2.2.1, rfl⟩
  | some st => exact ⟨h.2.2.1, ⟨rfl, rfl⟩⟩

/-- The private data of every file agrees with the trace. -/
def SnapState.Inv (s : SnapState File) : Prop :=
  ∀ f, FileInv (s.files f) (lastScan f s.trace) (lastMods f s.trace)

/-- A call on one file leaves the record of the others alone. -/
theorem SnapState.step_other (s : SnapState File) (c : File × Bool × SnapCall) {f : File}
    (hf : f ≠ c.1) :
    (s.step c).files f = s.files f ∧ lastScan f (s.step c).trace = lastScan f s.trace ∧
      lastMods f (s.step c).trace = lastMods f s.trace := by
  have hne : ¬c.1 = f := fun h => hf h.symm
  refine ⟨Function.update_of_ne hf _ _, ?_, ?_⟩
  · simp [SnapState.step, lastScan_append, hne]
  · simp [SnapState.step, lastMods_append, hne]

/-- Every call keeps the agreement. -/
theorem SnapState.Inv.step {s : SnapState File} (h : s.Inv) (c : File × Bool × SnapCall) :
    (s.step c).Inv := by
  intro f
  by_cases hf : f = c.1
  · rcases c with ⟨g, capable, call⟩
    subst f
    have hg := h g
    have hfile : (s.step (g, capable, call)).files g =
        (acIoctlSnap capable call (s.files g)).2 := Function.update_self _ _ _
    rw [hfile]
    simp only [SnapState.step, lastScan_append, lastMods_append]
    cases capable with
    | false => simpa [acIoctlSnap] using hg
    | true =>
        cases call with
        | scanBegin fdAlloc env pid emitEvents =>
            simpa [acIoctlSnap, SnapCall.isScanMark, SnapCall.isModsMark] using
              hg.scanBegin g fdAlloc env pid emitEvents
        | scanGet index =>
            simpa [acIoctlSnap, SnapCall.isScanMark, SnapCall.isModsMark] using hg
        | scanEnd =>
            simpa [acIoctlSnap, SnapCall.isScanMark, SnapCall.isModsMark,
              SnapEvent.begunScan] using hg.scanEnd
        | modsBegin fdAlloc alloc walk =>
            simpa [acIoctlSnap, SnapCall.isScanMark, SnapCall.isModsMark] using
              hg.modsBegin g fdAlloc alloc walk
        | modsGet index =>
            simpa [acIoctlSnap, SnapCall.isScanMark, SnapCall.isModsMark] using hg
        | modsEnd =>
            simpa [acIoctlSnap, SnapCall.isScanMark, SnapCall.isModsMark,
              SnapEvent.begunMods] using hg.modsEnd
  · rcases s.step_other c hf with ⟨hfile, hscan, hmods⟩
    rw [hfile, hscan, hmods]
    exact h f

/-- Every history keeps the agreement. -/
theorem snapRun_inv (calls : List (File × Bool × SnapCall)) : (snapRun calls).Inv := by
  have hfold : ∀ (s : SnapState File), s.Inv → (calls.foldl SnapState.step s).Inv := by
    induction calls with
    | nil => exact fun s hs => hs
    | cons c calls ih => exact fun s hs => ih (s.step c) (hs.step c)
  apply hfold
  intro f
  exact ⟨by simp [lastScan, lastEvent, SnapState.initial],
    by simp [lastMods, lastEvent, SnapState.initial], rfl, rfl⟩

/-! ## The protocol -/

/-- The replies to GET are determined by the last mark on the same file. -/
structure SnapProtocol (s : SnapState File) : Prop where
  vmas_allocated : ∀ f st, s.files f = some st → 0 < st.nVmas →
    ∃ t, st.vmas = some t ∧ ∀ i, i < st.nVmas → ∃ v, t.slots[i]? = some (some v)
  mods_allocated : ∀ f st, s.files f = some st → 0 < st.nMods →
    ∃ t, st.mods = some t ∧ ∀ i, i < st.nMods → ∃ m, t.slots[i]? = some (some m)
  scan_get_iff : ∀ f index v, acIoctlScanGet index (s.files f) = .ok (.vma v) ↔
    ∃ b l, lastScan f s.trace = some (b, l) ∧ index < b.nVmas ∧ v = l[index]?
  scan_get_entry : ∀ f index reply, acIoctlScanGet index (s.files f) = .ok reply →
    ∃ v, reply = .vma (some v)
  scan_empty : ∀ f, lastScan f s.trace = none → ∀ st, s.files f = some st →
    st.vmas = none ∧ st.nVmas = 0
  mods_get_iff : ∀ f index m, acIoctlModsGet index (s.files f) = .ok (.mod m) ↔
    ∃ count l, lastMods f s.trace = some (count, l) ∧ index < count ∧ m = l[index]?
  mods_get_entry : ∀ f index reply, acIoctlModsGet index (s.files f) = .ok reply →
    ∃ m, reply = .mod (some m)
  mods_empty : ∀ f, lastMods f s.trace = none → ∀ st, s.files f = some st →
    st.mods = none ∧ st.nMods = 0

/-- The answer of SCAN_GET, given the last scan. -/
def scanAnswer (index : Nat) :
    Option (AcScanBegin × List AcVmaInfo) → Except Errno SnapReply
  | none => .error .EINVAL
  | some (b, l) => if index < b.nVmas then .ok (.vma l[index]?) else .error .EINVAL

/-- The answer of MODS_GET, given the last listing. -/
def modsAnswer (index : Nat) : Option (Nat × List AcModInfo) → Except Errno SnapReply
  | none => .error .EINVAL
  | some (count, l) => if index < count then .ok (.mod l[index]?) else .error .EINVAL

theorem scanAnswer_ok_iff {index : Nat} {scan : Option (AcScanBegin × List AcVmaInfo)}
    {reply : SnapReply} :
    scanAnswer index scan = .ok reply ↔
      ∃ b l, scan = some (b, l) ∧ index < b.nVmas ∧ reply = .vma l[index]? := by
  cases scan with
  | none => simp [scanAnswer]
  | some bl =>
      by_cases hi : index < bl.1.nVmas
      · simp [scanAnswer, hi, Prod.ext_iff, eq_comm]
      · simp [scanAnswer, hi, Prod.ext_iff]

theorem modsAnswer_ok_iff {index : Nat} {mods : Option (Nat × List AcModInfo)}
    {reply : SnapReply} :
    modsAnswer index mods = .ok reply ↔
      ∃ count l, mods = some (count, l) ∧ index < count ∧ reply = .mod l[index]? := by
  cases mods with
  | none => simp [modsAnswer]
  | some cl =>
      by_cases hi : index < cl.1
      · simp [modsAnswer, hi, Prod.ext_iff, eq_comm]
      · simp [modsAnswer, hi, Prod.ext_iff]

/-- What SCAN_GET answers, from the agreement with the trace. -/
theorem FileInv.scanGet {priv : Option AcFdState}
    {scan : Option (AcScanBegin × List AcVmaInfo)} {mods : Option (Nat × List AcModInfo)}
    (h : FileInv priv scan mods) (index : Nat) :
    acIoctlScanGet index priv = scanAnswer index scan := by
  cases priv with
  | none =>
      rw [h.2.2.1]
      rfl
  | some st =>
      have hcells := h.2.2.1
      unfold acIoctlScanGet scanAnswer
      cases scan with
      | none =>
          have hzero : st.nVmas = 0 := hcells.2
          simp [hzero]
      | some bl =>
          have hlen : bl.1.nVmas = bl.2.length := h.1 bl.1 bl.2 rfl
          have hcount : st.nVmas = bl.2.length := by
            rcases hcells with ⟨t, -, -, hcount⟩
            exact hcount
          by_cases hi : index < st.nVmas
          · have hb : index < bl.1.nVmas := by omega
            simp only [if_neg (not_le.2 hi), if_pos hb, CellsHold.read hcells hi]
          · have hb : ¬index < bl.1.nVmas := by omega
            simp only [if_pos (not_lt.1 hi), if_neg hb]

/-- What MODS_GET answers, from the agreement with the trace. -/
theorem FileInv.modsGet {priv : Option AcFdState}
    {scan : Option (AcScanBegin × List AcVmaInfo)} {mods : Option (Nat × List AcModInfo)}
    (h : FileInv priv scan mods) (index : Nat) :
    acIoctlModsGet index priv = modsAnswer index mods := by
  cases priv with
  | none =>
      rw [h.2.2.2]
      rfl
  | some st =>
      have hcells := h.2.2.2
      unfold acIoctlModsGet modsAnswer
      cases mods with
      | none =>
          have hzero : st.nMods = 0 := hcells.2
          simp [hzero]
      | some cl =>
          have hlen : cl.1 = cl.2.length := h.2.1 cl.1 cl.2 rfl
          have hcount : st.nMods = cl.2.length := by
            rcases hcells with ⟨t, -, -, hcount⟩
            exact hcount
          by_cases hi : index < st.nMods
          · have hb : index < cl.1 := by omega
            simp only [if_neg (not_le.2 hi), if_pos hb, CellsHold.read hcells hi]
          · have hb : ¬index < cl.1 := by omega
            simp only [if_pos (not_lt.1 hi), if_neg hb]

theorem SnapState.Inv.protocol {s : SnapState File} (h : s.Inv) : SnapProtocol s where
  vmas_allocated f st hst hpos := by
    have hf := (h f).2.2
    rw [hst] at hf
    exact hf.1.allocated hpos
  mods_allocated f st hst hpos := by
    have hf := (h f).2.2
    rw [hst] at hf
    exact hf.2.allocated hpos
  scan_get_iff f index v := by
    rw [(h f).scanGet index, scanAnswer_ok_iff]
    simp only [SnapReply.vma.injEq]
  scan_get_entry f index reply hok := by
    rw [(h f).scanGet index, scanAnswer_ok_iff] at hok
    rcases hok with ⟨b, l, hlast, hi, rfl⟩
    rw [(h f).1 b l hlast] at hi
    exact ⟨l[index], by rw [List.getElem?_eq_getElem hi]⟩
  scan_empty f hnone st hst := by
    have hf := (h f).2.2
    rw [hst, hnone] at hf
    exact hf.1
  mods_get_iff f index m := by
    rw [(h f).modsGet index, modsAnswer_ok_iff]
    simp only [SnapReply.mod.injEq]
  mods_get_entry f index reply hok := by
    rw [(h f).modsGet index, modsAnswer_ok_iff] at hok
    rcases hok with ⟨count, l, hlast, hi, rfl⟩
    rw [(h f).2.1 count l hlast] at hi
    exact ⟨l[index], by rw [List.getElem?_eq_getElem hi]⟩
  mods_empty f hnone st hst := by
    have hf := (h f).2.2
    rw [hst, hnone] at hf
    exact hf.2

/-- A call for a scan. -/
def SnapCall.isScan : SnapCall → Bool
  | .scanBegin _ _ _ _ => true
  | .scanGet _ => true
  | .scanEnd => true
  | _ => false

/-- A state that has just been allocated answers as none at all. -/
theorem acGetFdState_get {alloc : Bool} {priv : Option AcFdState} {st : AcFdState}
    (h : acGetFdState alloc priv = some st) (index : Nat) :
    acIoctlScanGet index (some st) = acIoctlScanGet index priv ∧
      acIoctlModsGet index (some st) = acIoctlModsGet index priv := by
  cases priv with
  | some st' =>
      cases h
      exact ⟨rfl, rfl⟩
  | none =>
      cases alloc with
      | false => contradiction
      | true =>
          cases h
          exact ⟨rfl, rfl⟩

theorem acIoctlModsGet_congr {st st' : AcFdState} (hmods : st'.mods = st.mods)
    (hcount : st'.nMods = st.nMods) (index : Nat) :
    acIoctlModsGet index (some st') = acIoctlModsGet index (some st) := by
  simp only [acIoctlModsGet, hmods, hcount]

theorem acIoctlScanBegin_modsGet (fdAlloc : Bool) (env : ScanEnv) (pid : Int)
    (emitEvents : Bool) (priv : Option AcFdState) (index : Nat) :
    acIoctlModsGet index (acIoctlScanBegin fdAlloc env pid emitEvents priv).2 =
      acIoctlModsGet index priv := by
  by_cases hfail : acGetFdState fdAlloc priv = none ∨ env.snapshot = none
  · rcases acIoctlScanBegin_fails hfail pid emitEvents with ⟨e, priv', hrun, hpriv⟩
    rw [hrun]
    rcases hpriv with ⟨rfl, rfl⟩ | ⟨st, st', hst, rfl, -, hmods, hcount⟩
    · rfl
    · rw [← (acGetFdState_get hst index).2]
      exact acIoctlModsGet_congr hmods hcount index
  · rw [not_or] at hfail
    rcases Option.ne_none_iff_exists'.1 hfail.1 with ⟨st, hst⟩
    rcases Option.ne_none_iff_exists'.1 hfail.2 with ⟨l, henv⟩
    rcases acIoctlScanBegin_ok hst henv pid emitEvents with
      ⟨areas, st', -, -, hrun, -, hmods, hcount⟩
    rw [hrun, ← (acGetFdState_get hst index).2]
    exact acIoctlModsGet_congr hmods hcount index

theorem acIoctlModsBegin_scanGet (fdAlloc alloc : Bool) (walk : List KModule)
    (priv : Option AcFdState) (index : Nat) :
    acIoctlScanGet index (acIoctlModsBegin fdAlloc alloc walk priv).2 =
      acIoctlScanGet index priv := by
  unfold acIoctlModsBegin
  cases hst : acGetFdState fdAlloc priv with
  | none => rfl
  | some st =>
      rw [← (acGetFdState_get hst index).1]
      have hspec := acBuildModSnapshot_spec alloc walk st
      cases alloc with
      | false =>
          simp only [Bool.false_eq_true, if_false] at hspec
          simp only [hspec]
          rfl
      | true =>
          rcases hspec with ⟨t, hrun, -⟩
          simp only [hrun]
          rfl

/-- Scans leave the module listing of the file alone, and listings the scan. -/
theorem acIoctlSnap_frame (capable : Bool) (call : SnapCall) (priv : Option AcFdState)
    (index : Nat) :
    if call.isScan then
      acIoctlModsGet index (acIoctlSnap capable call priv).2 = acIoctlModsGet index priv
    else
      acIoctlScanGet index (acIoctlSnap capable call priv).2 = acIoctlScanGet index priv := by
  cases capable with
  | false =>
      unfold acIoctlSnap
      split <;> rfl
  | true =>
      cases call with
      | scanBegin fdAlloc env pid emitEvents =>
          exact acIoctlScanBegin_modsGet fdAlloc env pid emitEvents priv index
      | scanGet i => rfl
      | scanEnd =>
          cases priv with
          | none => rfl
          | some st => rfl
      | modsBegin fdAlloc alloc walk =>
          exact acIoctlModsBegin_scanGet fdAlloc alloc walk priv index
      | modsGet i => rfl
      | modsEnd =>
          cases priv with
          | none => rfl
          | some st => rfl

/-- For every history of snapshot ioctls on any files, the replies to GET follow
the protocol; a call on one file changes no other file, and scans and module
listings do not affect each other. -/
theorem snapshot_protocol (calls : List (File × Bool × SnapCall)) :
    SnapProtocol (snapRun calls) ∧
      (∀ c f, f ≠ c.1 → ((snapRun calls).step c).files f = (snapRun calls).files f) ∧
      ∀ c index,
        if c.2.2.isScan then
          acIoctlModsGet index (((snapRun calls).step c).files c.1) =
            acIoctlModsGet index ((snapRun calls).files c.1)
        else
          acIoctlScanGet index (((snapRun calls).step c).files c.1) =
            acIoctlScanGet index ((snapRun calls).files c.1) := by
  refine ⟨(snapRun_inv calls).protocol, ?_, ?_⟩
  · intro c f hf
    exact ((snapRun calls).step_other c hf).1
  · intro c index
    rw [show ((snapRun calls).step c).files c.1 =
      (acIoctlSnap c.2.1 c.2.2 ((snapRun calls).files c.1)).2 from Function.update_self _ _ _]
    exact acIoctlSnap_frame _ _ _ _

end Anticheat
