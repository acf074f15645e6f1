import Anticheat.Foundation.HiddenInput
import Anticheat.Kernel.RawDevice

/-!
# No memory contents are disclosed

Whatever the memory that the module is given contains, user space sees the same.  The
proof follows the device with the models of its parts in which a cell that was not
written is unknown and a string is all that there is of a character array: every state of
the device is represented by one of those, and every record that is handed out is the
image of a value that they know.

Main results:

- Theorems {lit}`acEmit_image` and {lit}`acDrainEvents_image`: the ring holds the images
  of the events in the ring of strings.
- Theorem {lit}`acListProtected_image`: the listing is the image of the listing of strings.
- Theorems {lit}`acBuildVmaSnapshot_agrees` and {lit}`acBuildModSnapshot_agrees`: the arrays
  hold the images of the cells that are known.
- Theorem {lit}`acIoctl_determined`: what an ioctl hands out does not depend on the memory
  it is given.
- Theorem {lit}`no_uninitialised_disclosure`: the same for whole runs.
-/

namespace Anticheat
namespace Raw

open Foundation HiddenInput

/-! ## Events -/

/-- The bytes of an event. -/
def eventImage (e : Anticheat.AcEvent) : AcEvent where
  ts := e.ts
  pid := e.pid
  comm := CharArray.ofStr e.comm
  type := e.type
  data := CharArray.ofStr e.data

theorem eventImage_default : eventImage default = default := by
  change (⟨0, 0, CharArray.ofStr [], 0, CharArray.ofStr []⟩ : AcEvent) = _
  rw [CharArray.ofStr_nil (by decide), CharArray.ofStr_nil (by decide)]
  rfl

/-- The ring that holds the images of the events. -/
def ringImage (r : Anticheat.EventRing) : EventRing where
  ring := r.ring.map eventImage
  dropped := r.dropped

/-- The bytes of a list of events. -/
def eventListImage (l : Anticheat.AcEventList) : AcEventList where
  count := l.count
  dropped := l.dropped
  events := l.events.image eventImage

theorem eventListImage_zero : eventListImage AcEventList.zero = Clear.zero := by
  change (⟨0, 0, SlotTable.image eventImage (SlotTable.replicate acMaxEvents default)⟩ :
    AcEventList) = _
  rw [SlotTable.image_replicate, eventImage_default]
  rfl

/-- Every cell of the ring is cleared before it is filled. -/
theorem acEmit_image (r : Anticheat.EventRing) (now : UInt64) (c : EmitCall) :
    acEmit (ringImage r) now c = ringImage (Anticheat.acEmit r now c) := by
  have hevent : eventImage (c.event now) = ⟨now, c.pid,
      CharArray.ofStr (c.comm.getD (CStr.ascii "?")), c.type.code, CharArray.ofStr c.data⟩ := by
    simp only [eventImage, EmitCall.event, CharArray.ofStr]
    rw [CharArray.strscpy_bounded, CharArray.strscpy_bounded]
  by_cases hfull : r.ring.count ≥ acRingSize
  · have hfull' : (ringImage r).ring.count ≥ acRingSize := hfull
    simp only [acEmit, Anticheat.acEmit, if_pos hfull, if_pos hfull']
    simp only [ringImage, Ring.map_put, hevent]
    rfl
  · have hfull' : ¬(ringImage r).ring.count ≥ acRingSize := hfull
    simp only [acEmit, Anticheat.acEmit, if_neg hfull, if_neg hfull']
    simp only [ringImage, Ring.map_put, hevent]
    rfl

/-- The events of one call, on the ring of strings. -/
def emitStrings (clock : Nat → UInt64) (r : Anticheat.EventRing) (calls : List EmitCall) :
    Anticheat.EventRing :=
  calls.zipIdx.foldl (fun r c => Anticheat.acEmit r (clock c.2) c.1) r

theorem emitAll_image (clock : Nat → UInt64) (r : Anticheat.EventRing) (calls : List EmitCall) :
    emitAll clock (ringImage r) calls = ringImage (emitStrings clock r calls) := by
  unfold emitAll emitStrings
  induction calls.zipIdx generalizing r with
  | nil => rfl
  | cons c rest ih =>
      rw [List.foldl_cons, List.foldl_cons, acEmit_image]
      exact ih _

theorem drainLoop_image (fuel : Nat) (out : Option Anticheat.AcEventList)
    (r : Anticheat.EventRing) :
    drainLoop fuel (out.map eventListImage) (ringImage r) =
      ((Anticheat.drainLoop fuel out r).1.map eventListImage,
        ringImage (Anticheat.drainLoop fuel out r).2) := by
  induction fuel generalizing out r with
  | zero => rfl
  | succ fuel ih =>
      have hmore : drainMore (out.map eventListImage) (ringImage r) =
          Anticheat.drainMore out r := by
        cases out with
        | none => rfl
        | some o => rfl
      rw [drainLoop, Anticheat.drainLoop, hmore]
      by_cases h : Anticheat.drainMore out r = true
      · rw [if_pos h, if_pos h, ← ih]
        congr 1
        rw [Option.map_map, Option.map_map]
        congr 1
        funext o
        simp only [Function.comp_apply, eventListImage, SlotTable.image_set]
        rw [← Ring.map_oldest eventImage_default]
        rfl
      · rw [if_neg h, if_neg h]

theorem acDrainEvents_image (out : Option Anticheat.AcEventList) (r : Anticheat.EventRing) :
    acDrainEvents (out.map eventListImage) (ringImage r) =
      ((Anticheat.acDrainEvents out r).1.map eventListImage,
        ringImage (Anticheat.acDrainEvents out r).2) := by
  rw [acDrainEvents, Anticheat.acDrainEvents, ← drainLoop_image]
  congr 1
  rw [Option.map_map, Option.map_map]
  rfl

/-! ## The listing of the registry -/

/-- The bytes of an item. -/
def itemImage (item : Anticheat.AcProtItem) : AcProtItem where
  pid := item.pid
  jitAllowed := item.jitAllowed.toInt
  comm := CharArray.ofStr item.comm

theorem itemImage_default : itemImage {} = Clear.zero := by
  change (⟨0, 0, CharArray.ofStr []⟩ : AcProtItem) = _
  rw [CharArray.ofStr_nil (by decide)]
  rfl

/-- The bytes of a listing. -/
def protListImage (l : Anticheat.AcProtList) : AcProtList where
  count := l.count
  items := l.items.image itemImage

theorem protListImage_zero : protListImage AcProtList.zero = Clear.zero := by
  change (⟨0, SlotTable.image itemImage (SlotTable.replicate acMaxProts {})⟩ : AcProtList) = _
  rw [SlotTable.image_replicate, itemImage_default]
  rfl

/-- The loop fills a listing whose items from the `n`-th on are still clear. -/
theorem listLoop_image {Task : Type} (entries : List (AcProtEntry Task)) (n : Nat)
    (items : SlotTable Anticheat.AcProtItem acMaxProts)
    (hclear : ∀ i, n ≤ i → i < acMaxProts → items.slots[i]? = some {}) :
    listLoop entries n (items.image itemImage) =
      ((Anticheat.listLoop entries n items).1,
        (Anticheat.listLoop entries n items).2.image itemImage) := by
  induction entries generalizing n items with
  | nil => rfl
  | cons e rest ih =>
      rw [listLoop, Anticheat.listLoop]
      by_cases hn : n < acMaxProts
      · rw [if_pos hn, if_pos hn]
        by_cases hfree : e.task.isNone = true
        · rw [if_pos hfree, if_pos hfree]
          exact ih n items hclear
        · rw [if_neg hfree, if_neg hfree]
          have hcell : (items.image itemImage).slots[n]? = some Clear.zero := by
            rw [SlotTable.image, List.getElem?_map, hclear n le_rfl hn, Option.map_some,
              itemImage_default]
          have hitem : itemImage e.item = ⟨e.pid, e.jitAllowed.toInt, CharArray.ofStr e.comm⟩ := by
            simp only [itemImage, AcProtEntry.item, CharArray.ofStr]
            rw [CharArray.strscpy_bounded]
          rw [SlotTable.modify_eq_set hcell]
          have hset := SlotTable.image_set itemImage items n e.item
          rw [hitem] at hset
          refine Eq.trans (congrArg (listLoop rest (n + 1)) hset.symm) (ih (n + 1) _ ?_)
          intro i hi hlt
          rw [SlotTable.set_slots, List.getElem?_set_ne (by omega)]
          exact hclear i (by omega) hlt
      · rw [if_neg hn, if_neg hn]

theorem acListProtected_image {Task : Type} (r : Registry Task) :
    acListProtected r Clear.zero =
      protListImage (Anticheat.acListProtected r AcProtList.zero) := by
  have hclear : ∀ i, 0 ≤ i → i < acMaxProts → AcProtList.zero.items.slots[i]? = some {} := by
    intro i _ hlt
    exact List.getElem?_replicate_of_lt hlt
  have hloop := listLoop_image r.prots.slots 0 AcProtList.zero.items hclear
  rw [← protListImage_zero]
  simp only [acListProtected, Anticheat.acListProtected, protListImage, hloop]

/-! ## Scans -/

/-- The bytes of the record of an area. -/
def vmaImage (v : Anticheat.AcVmaInfo) : AcVmaInfo where
  start := v.start
  stop := v.stop
  offset := v.offset
  inode := v.inode
  flags := v.flags
  isFile := v.isFile.toNat
  path := CharArray.ofStr v.path
  pad := Clear.zero

/-- The area with a path that ends at its first NUL, which is where it is read to. -/
def cutArea (a : VmArea) : VmArea :=
  { a with vmFile := a.vmFile.map fun f => { f with path := f.path.takeWhile (· != 0) } }

/-- The path that is read from the buffer does not depend on what the buffer held. -/
theorem stringAt_dPath (buf : List UInt8) (path : CStr) :
    stringAt (dPath buf path).1 (dPath buf path).2 = path.takeWhile (· != 0) := by
  have hlen : (buf.take (buf.length - (path.length + 1))).length =
      buf.length - (path.length + 1) := by
    rw [List.length_take]
    omega
  simp only [stringAt, dPath, List.append_assoc]
  rw [List.drop_left' hlen, CharArray.takeWhile_nul]

/-- The cell of an area is cleared before it is filled. -/
theorem fillVma_image (vi : AcVmaInfo) (buf : Option (List UInt8)) (a : VmArea) :
    fillVma vi buf a = vmaImage (vmaInfo buf.isSome (cutArea a)) := by
  have hempty : CharArray.ofStr [] = (Clear.zero : CharArray acVmaPath) :=
    CharArray.ofStr_nil (by decide)
  rcases a with ⟨start, stop, pgoff, flags, file⟩
  cases file with
  | none =>
      simp only [fillVma, vmaImage, vmaInfo, cutArea, Option.map_none, memset, hempty]
      rfl
  | some f =>
      rcases f with ⟨ino, path, dPathOk⟩
      cases buf with
      | none =>
          cases ino <;>
            simp only [fillVma, vmaImage, vmaInfo, cutArea, Option.map_some, memset, vmaPath,
              Option.isSome_none, Bool.false_eq_true, if_false, hempty] <;>
            rfl
      | some buf =>
          cases dPathOk with
          | false =>
              cases ino <;>
                simp only [fillVma, vmaImage, vmaInfo, cutArea, Option.map_some, memset, vmaPath,
                  Option.isSome_some, Bool.false_eq_true, if_false, if_true, hempty] <;>
                rfl
          | true =>
              have hpath : CharArray.ofStr (CStr.bounded acVmaPath (path.takeWhile (· != 0))) =
                  (Clear.zero : CharArray acVmaPath).strscpy
                    (stringAt (dPath buf path).1 (dPath buf path).2) := by
                rw [stringAt_dPath, CharArray.ofStr, CharArray.strscpy_bounded]
              cases ino <;>
                simp only [fillVma, vmaImage, vmaInfo, cutArea, Option.map_some, memset, vmaPath,
                  Option.isSome_some, if_true, hpath] <;>
                rfl

/-- The path of a record is read back from its bytes. -/
theorem str_vmaImage_path (buf : Bool) (a : VmArea) :
    (vmaImage (vmaInfo buf (cutArea a))).path.str = (vmaInfo buf (cutArea a)).path := by
  have hpath : ∃ s : CStr, (∀ b ∈ s, b ≠ 0) ∧
      (vmaInfo buf (cutArea a)).path = CStr.bounded acVmaPath s := by
    cases hfile : a.vmFile with
    | none => exact ⟨[], by simp, by simp [vmaInfo, cutArea, hfile, CStr.bounded]⟩
    | some f =>
        by_cases hwritten : buf = true ∧ f.dPathOk = true
        · refine ⟨f.path.takeWhile (· != 0), ?_, by simp [vmaInfo, cutArea, hfile, vmaPath, hwritten]⟩
          intro b hb
          simpa using List.mem_takeWhile_imp hb
        · refine ⟨[], by simp, ?_⟩
          simp only [vmaInfo, cutArea, hfile, vmaPath, Option.map_some, CStr.bounded, List.take_nil]
          simp only [not_and, Bool.not_eq_true] at hwritten
          cases buf with
          | false => rfl
          | true => simp [hwritten rfl]
  rcases hpath with ⟨s, hs, hpath⟩
  change (CharArray.ofStr (vmaInfo buf (cutArea a)).path : CharArray acVmaPath).str = _
  rw [hpath, CharArray.ofStr, CharArray.strscpy_bounded, ← CharArray.ofStr,
    CharArray.str_ofStr (by decide) hs]

/-- The area has no file in the record exactly if it has none. -/
theorem isFile_vmaImage (buf : Bool) (a : VmArea) :
    ((vmaImage (vmaInfo buf (cutArea a))).isFile == 0 && a.isExec) = (cutArea a).isAnonExec := by
  cases hfile : a.vmFile with
  | none => simp [vmaImage, vmaInfo, cutArea, VmArea.isAnonExec, VmArea.isExec, hfile]
  | some f => simp [vmaImage, vmaInfo, cutArea, VmArea.isAnonExec, VmArea.isExec, hfile]

theorem areaEvents_image (pid : Int) (emitEvents buf : Bool) (a : VmArea) :
    areaEvents pid emitEvents a (vmaImage (vmaInfo buf (cutArea a))) =
      Anticheat.areaEvents pid emitEvents (cutArea a) (vmaInfo buf (cutArea a)) := by
  simp only [areaEvents, Anticheat.areaEvents, rwxEvent, anonExecEvent, isFile_vmaImage,
    str_vmaImage_path]
  rfl

/-- The bytes of the record of a module. -/
def modImage (m : Anticheat.AcModInfo) : AcModInfo where
  name := CharArray.ofStr m.name
  size := m.size
  state := m.state
  pad := Clear.zero

/-- The cell of a module is cleared before it is filled. -/
theorem fillMod_image (mi : AcModInfo) (m : KModule) : fillMod mi m = modImage (modInfo m) := by
  simp only [modImage, modInfo, CharArray.ofStr, CharArray.strscpy_bounded]
  rfl

/-- The state of a file agrees with what is known of it: the counters are the same, and
the cells that are known hold the images of their values. -/
structure FdAgrees (k : Anticheat.AcFdState) (st : AcFdState) : Prop where
  vmas : PointsTo vmaImage k.vmas st.vmas
  nVmas : st.nVmas = k.nVmas
  rwxCount : st.rwxCount = k.rwxCount
  execCount : st.execCount = k.execCount
  anonExecCount : st.anonExecCount = k.anonExecCount
  truncated : st.truncated = k.truncated.toNat
  mods : PointsTo modImage k.mods st.mods
  nMods : st.nMods = k.nMods

theorem vmaLoop_agrees (fresh : Fresh) (pid : Int) (emitEvents : Bool) (bufs : Nat → Bool)
    (areas : List VmArea) (n : Nat) {k : Anticheat.AcFdState} {st : AcFdState}
    (h : FdAgrees k st) :
    let known := Anticheat.vmaLoop pid emitEvents bufs (areas.map cutArea) n k
    let raw := vmaLoop fresh pid emitEvents bufs areas n st
    raw.1 = known.1 ∧ FdAgrees known.2.1 raw.2.1 ∧ raw.2.2 = known.2.2 := by
  induction areas generalizing n k st with
  | nil => exact ⟨rfl, h, rfl⟩
  | cons a rest ih =>
      simp only [List.map_cons, vmaLoop, Anticheat.vmaLoop]
      by_cases hn : n ≥ acMaxVmas
      · rw [if_pos hn, if_pos hn]
        exact ⟨rfl, { h with truncated := rfl }, rfl⟩
      · rw [if_neg hn, if_neg hn]
        have hbuf : (if bufs n = true then some (fresh.pathBuf n) else none).isSome = bufs n := by
          cases bufs n with
          | true => rfl
          | false => rfl
        rw [fillVma_image, hbuf, isFile_vmaImage, areaEvents_image]
        -- the cell and what is known of it are written together
        have hrecord : FdAgrees (recordArea (bufs n) n (cutArea a) k) { st with
            vmas := st.vmas.map fun t => t.set n (vmaImage (vmaInfo (bufs n) (cutArea a)))
            rwxCount := st.rwxCount + if a.isRwx then 1 else 0
            anonExecCount := st.anonExecCount + if (cutArea a).isAnonExec then 1 else 0
            execCount := st.execCount + if a.isExec then 1 else 0 } :=
          { h with
            vmas := h.vmas.set n _
            rwxCount := congrArg (· + _) h.rwxCount
            anonExecCount := congrArg (· + _) h.anonExecCount
            execCount := congrArg (· + _) h.execCount }
        rcases ih (n + 1) hrecord with ⟨hcount, hagrees, hevents⟩
        exact ⟨hcount, hagrees, congrArg (_ ++ ·) hevents⟩

/-- The scan with paths that end at their first NUL. -/
def cutEnv (env : ScanEnv) : ScanEnv :=
  { env with mm := env.mm.map (List.map cutArea) }

theorem acBuildVmaSnapshot_agrees (fresh : Fresh) (env : ScanEnv) (pid : Int)
    (emitEvents : Bool) {k : Anticheat.AcFdState} {st : AcFdState} (h : FdAgrees k st) :
    let known := Anticheat.acBuildVmaSnapshot (cutEnv env) pid emitEvents k
    let raw := acBuildVmaSnapshot fresh env pid emitEvents st
    raw.1 = known.1 ∧ FdAgrees known.2.1 raw.2.1 ∧ raw.2.2 = known.2.2 := by
  rcases env with ⟨task, mm, alloc, bufs⟩
  simp only [acBuildVmaSnapshot, Anticheat.acBuildVmaSnapshot, cutEnv]
  have hreset : FdAgrees { k with
      vmas := none, nVmas := 0, rwxCount := 0, execCount := 0, anonExecCount := 0,
      truncated := false } { st with
      vmas := none, nVmas := 0, rwxCount := 0, execCount := 0, anonExecCount := 0,
      truncated := 0 } :=
    ⟨trivial, rfl, rfl, rfl, rfl, rfl, h.mods, h.nMods⟩
  cases task with
  | false => exact ⟨rfl, hreset, rfl⟩
  | true =>
      cases mm with
      | none => exact ⟨rfl, hreset, rfl⟩
      | some areas =>
          cases alloc with
          | false => exact ⟨rfl, hreset, rfl⟩
          | true =>
              have hnew : FdAgrees { k with
                  vmas := some (SlotTable.replicate acMaxVmas none), nVmas := 0, rwxCount := 0,
                  execCount := 0, anonExecCount := 0, truncated := false } { st with
                  vmas := some fresh.vmas, nVmas := 0, rwxCount := 0, execCount := 0,
                  anonExecCount := 0, truncated := 0 } :=
                { hreset with vmas := Agrees.unwritten vmaImage fresh.vmas }
              rcases vmaLoop_agrees fresh pid emitEvents bufs areas 0 hnew with
                ⟨hcount, hagrees, hevents⟩
              exact ⟨rfl, { hagrees with nVmas := hcount }, hevents⟩

theorem modLoop_agrees (walk : List KModule) (n : Nat)
    {known : SlotTable (Option Anticheat.AcModInfo) acMaxMods}
    {t : SlotTable AcModInfo acMaxMods} (h : Agrees modImage known t) :
    (modLoop walk n t).1 = (Anticheat.modLoop walk n known).1 ∧
      Agrees modImage (Anticheat.modLoop walk n known).2 (modLoop walk n t).2 := by
  induction walk generalizing n known t with
  | nil => exact ⟨rfl, h⟩
  | cons m rest ih =>
      rw [modLoop, Anticheat.modLoop]
      by_cases hsane : (!acModuleSane m) = true
      · rw [if_pos hsane, if_pos hsane]
        exact ih n h
      · rw [if_neg hsane, if_neg hsane]
        by_cases hn : n ≥ acMaxMods
        · rw [if_pos hn, if_pos hn]
          exact ⟨rfl, h⟩
        · rw [if_neg hn, if_neg hn]
          have hlt : n < t.slots.length := by
            rw [t.length_slots]
            omega
          rw [SlotTable.modify_eq_set (List.getElem?_eq_getElem hlt), fillMod_image]
          exact ih (n + 1) (h.set n (modInfo m))

theorem acBuildModSnapshot_agrees (fresh : Fresh) (alloc : Bool) (walk : List KModule)
    {k : Anticheat.AcFdState} {st : AcFdState} (h : FdAgrees k st) :
    let known := Anticheat.acBuildModSnapshot alloc walk k
    let raw := acBuildModSnapshot fresh alloc walk st
    raw.1 = known.1 ∧ FdAgrees known.2 raw.2 := by
  cases alloc with
  | false => exact ⟨rfl, { h with mods := trivial, nMods := rfl }⟩
  | true =>
      rcases modLoop_agrees walk 0 (Agrees.unwritten modImage fresh.mods) with ⟨hcount, hagrees⟩
      exact ⟨rfl, { h with mods := hagrees, nMods := hcount }⟩

/-! ## Reading a snapshot -/

/-- All cells below the counts are known. -/
structure FdFilled (k : Anticheat.AcFdState) : Prop where
  vmas : ∃ l, CellsHold k.vmas k.nVmas l
  mods : ∃ l, CellsHold k.mods k.nMods l

theorem FdFilled.fresh : FdFilled {} :=
  ⟨⟨none, rfl, rfl⟩, ⟨none, rfl, rfl⟩⟩

theorem FdFilled.vmaSnapshot {k : Anticheat.AcFdState} (h : FdFilled k) (env : ScanEnv)
    (pid : Int) (emitEvents : Bool) :
    FdFilled (Anticheat.acBuildVmaSnapshot env pid emitEvents k).2.1 := by
  cases hsnap : env.snapshot with
  | none =>
      rcases acBuildVmaSnapshot_fails hsnap pid emitEvents k with ⟨e, hfails⟩
      rw [hfails]
      exact ⟨⟨none, rfl, rfl⟩, h.mods⟩
  | some l =>
      rcases env.snapshot_some hsnap with ⟨areas, htask, hmm, halloc, -⟩
      rcases acBuildVmaSnapshot_ok htask hmm halloc pid emitEvents k with ⟨t, emitted, hok, hholds⟩
      rw [hok]
      exact ⟨⟨some _, t, rfl, hholds, rfl⟩, h.mods⟩

theorem FdFilled.modSnapshot {k : Anticheat.AcFdState} (h : FdFilled k) (alloc : Bool)
    (walk : List KModule) : FdFilled (Anticheat.acBuildModSnapshot alloc walk k).2 := by
  have hspec := acBuildModSnapshot_spec alloc walk k
  cases alloc with
  | false => exact ⟨h.vmas, ⟨none, rfl, rfl⟩⟩
  | true =>
      rcases hspec with ⟨t, hok, hholds⟩
      rw [hok]
      exact ⟨h.vmas, ⟨some _, t, rfl, hholds, rfl⟩⟩

/-- A cell below the count holds the image of a value that is known. -/
theorem readCell_known {α : Type} {n : Nat} {known : Option (SlotTable (Option α) n)}
    {count : Nat} {l : Option (List α)} (hfilled : CellsHold known count l) {i : Nat}
    (hi : i < count) :
    ∃ v, ∀ {β : Type} {image : α → β} {cells : Option (SlotTable β n)} {dst : β},
      PointsTo image known cells → readCell dst cells i = image v := by
  rcases hfilled.allocated (by omega) with ⟨t, rfl, hcells⟩
  rcases hcells i hi with ⟨v, hv⟩
  refine ⟨v, ?_⟩
  intro β image cells dst h
  cases cells with
  | none => exact h.elim
  | some raw => simp [readCell, h i v hv]

/-! ## The device -/

/-- What is known of the device. -/
structure Known (Task File : Type) where
  ring : Anticheat.EventRing
  reg : Registry Task
  files : File → Option Anticheat.AcFdState
  lockCount : BitVec 32
  lastHookCount : Nat

/-- The private data of a file agrees with what is known of it. -/
inductive FileAgrees : Option Anticheat.AcFdState → Option AcFdState → Prop
  | null : FileAgrees none none
  | state {k : Anticheat.AcFdState} {st : AcFdState} (hfilled : FdFilled k)
      (hagrees : FdAgrees k st) : FileAgrees (some k) (some st)

/-- The device agrees with what is known of it. -/
structure Represents {Task File : Type} (k : Known Task File) (d : Device Task File) : Prop where
  ring : d.ring = ringImage k.ring
  reg : d.reg = k.reg
  files : ∀ f, FileAgrees (k.files f) (d.files f)
  lockCount : d.lockCount = k.lockCount
  lastHookCount : d.lastHookCount = k.lastHookCount

variable {Task File : Type} [DecidableEq Task] [DecidableEq File]

omit [DecidableEq Task] in
theorem Represents.setFile {k : Known Task File} {d : Device Task File} (h : Represents k d)
    (file : File) {known : Option Anticheat.AcFdState} {priv : Option AcFdState}
    (hfile : FileAgrees known priv) :
    Represents { k with files := Function.update k.files file known }
      { d with files := Function.update d.files file priv } := by
  refine { h with files := ?_ }
  intro f
  by_cases hf : f = file
  · subst hf
    simpa using hfile
  · simpa [hf] using h.files f

/-- The state that a BEGIN works on agrees with what is known, also if it is new. -/
theorem FileAgrees.getFdState {known : Option Anticheat.AcFdState} {priv : Option AcFdState}
    (h : FileAgrees known priv) (alloc : Bool) :
    FileAgrees (Anticheat.acGetFdState alloc known) (acGetFdState alloc priv) := by
  cases h with
  | state hfilled hagrees => exact .state hfilled hagrees
  | null =>
      cases alloc with
      | false => exact .null
      | true => exact .state FdFilled.fresh ⟨trivial, rfl, rfl, rfl, rfl, rfl, trivial, rfl⟩

theorem acGetFdState_false (priv : Option AcFdState) : acGetFdState false priv = priv := by
  cases priv with
  | none => rfl
  | some st => rfl

omit [DecidableEq Task] [DecidableEq File] in
/-- Whether a file has a state is known, and so is what the state holds. -/
theorem Represents.fdState_cases (k : Known Task File) (file : File) (alloc : Bool) :
    (∀ d, Represents k d → acGetFdState alloc (d.files file) = none) ∨
      ∃ kst, FdFilled kst ∧ ∀ d, Represents k d →
        ∃ st, acGetFdState alloc (d.files file) = some st ∧ FdAgrees kst st := by
  cases hknown : Anticheat.acGetFdState alloc (k.files file) with
  | none =>
      refine Or.inl fun d h => ?_
      have hfile := (h.files file).getFdState alloc
      rw [hknown] at hfile
      generalize acGetFdState alloc (d.files file) = priv at hfile
      cases hfile
      rfl
  | some kst =>
      have hstate : ∀ d, Represents k d →
          FdFilled kst ∧ ∃ st, acGetFdState alloc (d.files file) = some st ∧ FdAgrees kst st := by
        intro d h
        have hfile := (h.files file).getFdState alloc
        rw [hknown] at hfile
        generalize acGetFdState alloc (d.files file) = priv at hfile
        cases hfile with
        | state hfilled hagrees => exact ⟨hfilled, _, rfl, hagrees⟩
      by_cases hfilled : FdFilled kst
      · exact Or.inr ⟨kst, hfilled, fun d h => (hstate d h).2⟩
      · exact Or.inl fun d h => absurd (hstate d h).1 hfilled

/-! ## One call -/

/-- The outcome of a SCAN_BEGIN whose scan is known. -/
def scanOutcome (copy : Bool) (b : AcScanBegin) (k : Anticheat.AcFdState) :
    Except Errno Unit → Outcome
  | .error e => (.error e, none)
  | .ok () =>
      copyOut copy (.scanBegin { b with
        nVmas := k.nVmas
        rwxCount := k.rwxCount
        execCount := k.execCount
        anonExecCount := k.anonExecCount
        truncated := k.truncated.toNat })

omit [DecidableEq Task] in
theorem acIoctlScanBegin_determined (file : File) (copy : Bool) (user : Option AcScanBegin)
    (fdAlloc : Bool) (env : ScanEnv) (clock : Nat → UInt64) (k : Known Task File) :
    Determines Represents
      (fun d fresh => acIoctlScanBegin fresh file copy user fdAlloc env clock d) k := by
  cases user with
  | none => exact ⟨k, (.error .EFAULT, none), fun d fresh h => ⟨rfl, h⟩⟩
  | some b =>
      rcases Represents.fdState_cases k file fdAlloc with hnone | ⟨kst, hfilled, hsome⟩
      · refine ⟨k, (.error .ENOMEM, none), ?_⟩
        intro d fresh h
        simp [acIoctlScanBegin, copyFromUser, hnone d h, h]
      · let scan := Anticheat.acBuildVmaSnapshot (cutEnv env) b.pid (b.emitEvents != 0) kst
        refine ⟨{ k with
          files := Function.update k.files file (some scan.2.1)
          ring := emitStrings clock k.ring scan.2.2 }, scanOutcome copy b scan.2.1 scan.1, ?_⟩
        intro d fresh h
        rcases hsome d h with ⟨st, hst, hagrees⟩
        have hscan := acBuildVmaSnapshot_agrees fresh env b.pid (b.emitEvents != 0) hagrees
        have hfilled' := hfilled.vmaSnapshot (cutEnv env) b.pid (b.emitEvents != 0)
        change FdFilled scan.2.1 at hfilled'
        rcases hraw : acBuildVmaSnapshot fresh env b.pid (b.emitEvents != 0) st with
          ⟨ret, st', emitted⟩
        simp only [hraw] at hscan
        rcases hscan with ⟨hret, hst', hemitted⟩
        have hcall : acIoctlScanBegin fresh file copy (some b) fdAlloc env clock d =
            (scanOutcome copy b scan.2.1 ret, { d with
              files := Function.update d.files file (some st')
              ring := emitAll clock d.ring scan.2.2 }) := by
          change FdAgrees scan.2.1 st' at hst'
          simp only [acIoctlScanBegin, copyFromUser, hst, hraw, hemitted]
          cases ret with
          | error e => rfl
          | ok u =>
              simp only [scanOutcome, hst'.nVmas, hst'.rwxCount, hst'.execCount,
                hst'.anonExecCount, hst'.truncated]
              rfl
        simp only [hcall]
        refine ⟨by rw [hret], ?_⟩
        exact { h.setFile file (.state hfilled' hst') with
          ring := by rw [h.ring, emitAll_image] }

omit [DecidableEq Task] [DecidableEq File] in
/-- An entry below the count is known, so what a GET hands out is. -/
theorem getEntry_determined {G : Type} (file : File) (copy : Bool) (user : Option G)
    {index : G → Nat} {count : AcFdState → Nat} {knownCount : Anticheat.AcFdState → Nat}
    {record : AcFdState → G → UserCopy}
    (hcount : ∀ kst st, FdAgrees kst st → count st = knownCount kst)
    (hrecord : ∀ kst g, FdFilled kst → index g < knownCount kst →
      ∃ copied, ∀ st, FdAgrees kst st → record st g = copied) (k : Known Task File) :
    Determines Represents
      (fun d (_ : Fresh) => (getEntry file copy user index count record d, d)) k := by
  cases user with
  | none => exact ⟨k, (.error .EFAULT, none), fun d fresh h => ⟨rfl, h⟩⟩
  | some g =>
      rcases Represents.fdState_cases k file false with hnone | ⟨kst, hfilled, hsome⟩
      · refine ⟨k, (.error .EINVAL, none), ?_⟩
        intro d fresh h
        have hpriv := hnone d h
        rw [acGetFdState_false] at hpriv
        exact ⟨by simp only [getEntry, hpriv], h⟩
      · by_cases hindex : index g ≥ knownCount kst
        · refine ⟨k, (.error .EINVAL, none), ?_⟩
          intro d fresh h
          rcases hsome d h with ⟨st, hst, hagrees⟩
          rw [acGetFdState_false] at hst
          rw [← hcount kst st hagrees] at hindex
          exact ⟨by simp only [getEntry, hst, if_pos hindex], h⟩
        · rcases hrecord kst g hfilled (not_le.1 hindex) with ⟨copied, hcopied⟩
          refine ⟨k, copyOut copy copied, ?_⟩
          intro d fresh h
          rcases hsome d h with ⟨st, hst, hagrees⟩
          rw [acGetFdState_false] at hst
          rw [← hcount kst st hagrees] at hindex
          exact ⟨by simp only [getEntry, hst, if_neg hindex, hcopied st hagrees], h⟩

omit [DecidableEq Task] [DecidableEq File] in
theorem acIoctlScanGet_determined (file : File) (copy : Bool) (user : Option AcScanGet)
    (k : Known Task File) :
    Determines Represents (fun d fresh => (acIoctlScanGet fresh file copy user d, d)) k := by
  refine getEntry_determined file copy user (fun _ _ h => h.nVmas) ?_ k
  intro kst g hfilled hindex
  rcases hfilled.vmas with ⟨l, hl⟩
  rcases readCell_known hl hindex with ⟨v, hread⟩
  refine ⟨.scanGet { g with vma := vmaImage v }, ?_⟩
  intro st hagrees
  simp only [hread hagrees.vmas]

omit [DecidableEq Task] [DecidableEq File] in
theorem acIoctlModsGet_determined (file : File) (copy : Bool) (user : Option AcModGet)
    (k : Known Task File) :
    Determines Represents (fun d fresh => (acIoctlModsGet fresh file copy user d, d)) k := by
  refine getEntry_determined file copy user (fun _ _ h => h.nMods) ?_ k
  intro kst g hfilled hindex
  rcases hfilled.mods with ⟨l, hl⟩
  rcases readCell_known hl hindex with ⟨v, hread⟩
  refine ⟨.modsGet { g with mod := modImage v }, ?_⟩
  intro st hagrees
  simp only [hread hagrees.mods]

omit [DecidableEq Task] in
theorem acIoctlModsBegin_determined (file : File) (copy fdAlloc alloc : Bool)
    (walk : List KModule) (k : Known Task File) :
    Determines Represents
      (fun d fresh => acIoctlModsBegin fresh file copy fdAlloc alloc walk d) k := by
  rcases Represents.fdState_cases k file fdAlloc with hnone | ⟨kst, hfilled, hsome⟩
  · refine ⟨k, (.error .ENOMEM, none), ?_⟩
    intro d fresh h
    simp [acIoctlModsBegin, hnone d h, h]
  · let listing := Anticheat.acBuildModSnapshot alloc walk kst
    refine ⟨{ k with files := Function.update k.files file (some listing.2) },
      match listing.1 with
      | .error e => (.error e, none)
      | .ok () => copyOut copy (.modsBegin listing.2.nMods), ?_⟩
    intro d fresh h
    rcases hsome d h with ⟨st, hst, hagrees⟩
    have hlisting := acBuildModSnapshot_agrees fresh alloc walk hagrees
    have hfilled' := hfilled.modSnapshot alloc walk
    change FdFilled listing.2 at hfilled'
    rcases hraw : acBuildModSnapshot fresh alloc walk st with ⟨ret, st'⟩
    simp only [hraw] at hlisting
    rcases hlisting with ⟨hret, hst'⟩
    change ret = listing.1 at hret
    change FdAgrees listing.2 st' at hst'
    have hfiles := h.setFile file (.state hfilled' hst')
    simp only [acIoctlModsBegin, hst, hraw, ← hret]
    cases ret with
    | error e => exact ⟨rfl, hfiles⟩
    | ok u => exact ⟨by simp only [hst'.nMods], hfiles⟩

omit [DecidableEq Task] in
theorem endSnapshot_determined (file : File) {drop : AcFdState → AcFdState}
    (knownDrop : Anticheat.AcFdState → Anticheat.AcFdState)
    (hdrop : ∀ kst st, FdFilled kst → FdAgrees kst st →
      FdFilled (knownDrop kst) ∧ FdAgrees (knownDrop kst) (drop st))
    (out : Outcome) (k : Known Task File) :
    Determines Represents (fun d (_ : Fresh) => (out, endSnapshot file drop d)) k := by
  refine ⟨{ k with
    files := Function.update k.files file ((k.files file).map knownDrop) }, out, ?_⟩
  intro d fresh h
  refine ⟨rfl, h.setFile file ?_⟩
  have hfile := h.files file
  generalize k.files file = known at hfile
  generalize d.files file = priv at hfile
  cases hfile with
  | null => exact .null
  | state hfilled hagrees =>
      rcases hdrop _ _ hfilled hagrees with ⟨hfilled', hagrees'⟩
      exact .state hfilled' hagrees'

omit [DecidableEq Task] in
theorem acIoctlScanEnd_determined (file : File) (out : Outcome) (k : Known Task File) :
    Determines Represents (fun d (_ : Fresh) => (out, acIoctlScanEnd file d)) k := by
  refine endSnapshot_determined file (fun kst => { kst with vmas := none, nVmas := 0 }) ?_ out k
  intro kst st hfilled hagrees
  exact ⟨⟨⟨none, rfl, rfl⟩, hfilled.mods⟩, { hagrees with vmas := trivial, nVmas := rfl }⟩

omit [DecidableEq Task] in
theorem acIoctlModsEnd_determined (file : File) (out : Outcome) (k : Known Task File) :
    Determines Represents (fun d (_ : Fresh) => (out, acIoctlModsEnd file d)) k := by
  refine endSnapshot_determined file (fun kst => { kst with mods := none, nMods := 0 }) ?_ out k
  intro kst st hfilled hagrees
  exact ⟨⟨hfilled.vmas, ⟨none, rfl, rfl⟩⟩, { hagrees with mods := trivial, nMods := rfl }⟩

omit [DecidableEq Task] [DecidableEq File] in
/-- A step that leaves the files alone and computes everything else from what is
known. -/
theorem determined_of_eq {act : Device Task File → Fresh → Outcome × Device Task File}
    {k : Known Task File} (k' : Known Task File) (out : Outcome) (hfiles : k'.files = k.files)
    (hact : ∀ files fresh,
      act ⟨ringImage k.ring, k.reg, files, k.lockCount, k.lastHookCount⟩ fresh =
        (out, ⟨ringImage k'.ring, k'.reg, files, k'.lockCount, k'.lastHookCount⟩)) :
    Determines Represents act k := by
  refine ⟨k', out, ?_⟩
  rintro ⟨ring, reg, files, lockCount, lastHookCount⟩ fresh ⟨rfl, rfl, hrep, rfl, rfl⟩
  rw [hact]
  refine ⟨rfl, rfl, rfl, ?_, rfl, rfl⟩
  rw [hfiles]
  exact hrep

omit [DecidableEq Task] [DecidableEq File] in
theorem acIoctlCheckSyscalls_determined (sys : SyscallStatics) (copy : Bool) (env : SyscallEnv)
    (clock : Nat → UInt64) (k : Known Task File) :
    Determines Represents
      (fun d fresh => acIoctlCheckSyscalls sys fresh copy env clock d) k := by
  rcases hcheck : Anticheat.acCheckSyscalls sys env with ⟨ret, check, emitted⟩
  cases ret with
  | error e =>
      refine determined_of_eq { k with ring := emitStrings clock k.ring emitted }
        (.error e, none) rfl ?_
      intro files fresh
      simp only [acIoctlCheckSyscalls, acCheckSyscalls, hcheck, emitAll_image]
  | ok u =>
      refine determined_of_eq { k with
          ring := emitStrings clock k.ring emitted, lastHookCount := check.hooked }
        (copyOut copy (.syscallCheck ⟨check, Clear.zero⟩)) rfl ?_
      intro files fresh
      simp only [acIoctlCheckSyscalls, acCheckSyscalls, hcheck, emitAll_image]
      rfl

omit [DecidableEq Task] [DecidableEq File] in
theorem acIoctlGetEvents_determined (copy alloc : Bool) (k : Known Task File) :
    Determines Represents (fun d (_ : Fresh) => acIoctlGetEvents copy alloc d) k := by
  cases alloc with
  | false => exact ⟨k, (.error .ENOMEM, none), fun d fresh h => ⟨rfl, h⟩⟩
  | true =>
      let drained := Anticheat.acDrainEvents (some AcEventList.zero) k.ring
      refine determined_of_eq { k with ring := drained.2 }
        (if copy then .ok () else .error .EFAULT,
          (drained.1.map eventListImage).map .getEvents) rfl ?_
      intro files fresh
      have hdrain := acDrainEvents_image (some AcEventList.zero) k.ring
      rw [Option.map_some, eventListImage_zero] at hdrain
      simp only [acIoctlGetEvents, hdrain]
      rfl

/-- What an ioctl returns and hands out does not depend on the contents of the memory that
it is given. -/
theorem acIoctl_determined (sys : SyscallStatics) (file : File) (capable copy : Bool)
    (cmd : Ioctl Task) (k : Known Task File) :
    Determines Represents (fun d fresh => acIoctl sys fresh file capable copy cmd d) k := by
  cases capable with
  | false => exact ⟨k, (.error .EPERM, none), fun d fresh h => ⟨rfl, h⟩⟩
  | true =>
      cases cmd with
      | status =>
          exact determined_of_eq k (copyOut copy (.status {
              version := acIoctlVersion
              syscallTableAddr := sys.acSyscallTable
              activeProcs := acProtectedCount k.reg
              eventsDropped := k.ring.dropped
              locked := if k.lockCount.toInt > 0 then 1 else 0
              syscallHookCount := k.lastHookCount })) rfl fun files fresh => rfl
      | addProc user info find findInNsOf =>
          cases user with
          | none => exact ⟨k, (.error .EFAULT, none), fun d fresh h => ⟨rfl, h⟩⟩
          | some a =>
              let added := acAddProtPid k.reg info find findInNsOf a.pid a.refPid
                (a.jitAllowed != 0)
              exact determined_of_eq { k with reg := added.2 } (added.1, none) rfl
                fun files fresh => rfl
      | delProc user find =>
          cases user with
          | none => exact ⟨k, (.error .EFAULT, none), fun d fresh h => ⟨rfl, h⟩⟩
          | some a =>
              let deleted := acIoctlDelProc k.reg find a.pid
              exact determined_of_eq { k with reg := deleted.2 } (deleted.1, none) rfl
                fun files fresh => rfl
      | scanBegin user fdAlloc env clock =>
          exact acIoctlScanBegin_determined file copy user fdAlloc env clock k
      | scanGet user => exact acIoctlScanGet_determined file copy user k
      | scanEnd => exact acIoctlScanEnd_determined file (.ok (), none) k
      | checkSyscalls env clock => exact acIoctlCheckSyscalls_determined sys copy env clock k
      | modsBegin fdAlloc alloc walk =>
          exact acIoctlModsBegin_determined file copy fdAlloc alloc walk k
      | modsGet user => exact acIoctlModsGet_determined file copy user k
      | modsEnd => exact acIoctlModsEnd_determined file (.ok (), none) k
      | getEvents alloc => exact acIoctlGetEvents_determined copy alloc k
      | flushEvents =>
          refine determined_of_eq { k with ring := (Anticheat.acDrainEvents none k.ring).2 }
            (.ok (), none) rfl ?_
          intro files fresh
          have hdrain := acDrainEvents_image none k.ring
          rw [Option.map_none] at hdrain
          simp only [acIoctl, hdrain]
          rfl
      | listProtected =>
          refine determined_of_eq k (copyOut copy (.listProtected
            (protListImage (Anticheat.acListProtected k.reg AcProtList.zero)))) rfl ?_
          intro files fresh
          rw [← acListProtected_image]
          rfl
      | lock live =>
          let locked := acIoctlLock live k.lockCount
          exact determined_of_eq { k with lockCount := locked.2 } (locked.1, none) rfl
            fun files fresh => rfl
      | unlock =>
          exact determined_of_eq { k with lockCount := acIoctlUnlock k.lockCount } (.ok (), none)
            rfl fun files fresh => rfl
      | unknown => exact ⟨k, (.error .ENOTTY, none), fun d fresh h => ⟨rfl, h⟩⟩

/-! ## The probes -/

/-- The text of the event that a fork leaves. -/
def forkText (info : Task → TaskInfo) (cur : Task) : CStr :=
  CStr.ascii "child of protected pid " ++ CStr.decimal (info cur).pid ++ CStr.ascii " (" ++
    (CStr.bounded acMaxComm (info cur).comm).takeWhile (· != 0) ++
    CStr.ascii "); protection inherited"

/-- The name that the handler reads back from its stack is the one it has copied there. -/
theorem acCloneRet_eq (fresh : Fresh) (r : Registry Task) (info : Task → TaskInfo)
    (find : Int → Option Task) (cur : Task) (ret : BitVec 64) :
    acCloneRet fresh r info find cur ret =
      ((Anticheat.acCloneRet r info find cur ret).1.map fun c =>
          { c with data := forkText info cur },
        (Anticheat.acCloneRet r info find cur ret).2) := by
  unfold acCloneRet Anticheat.acCloneRet
  by_cases hret : ret.toInt ≤ 0
  · rw [if_pos hret, if_pos hret]
    rfl
  · rw [if_neg hret, if_neg hret]
    by_cases hprot : (!acIsProtectedTask r cur) = true
    · rw [if_pos hprot, if_pos hprot]
      rfl
    · rw [if_neg hprot, if_neg hprot]
      cases find (pidOfLong ret) with
      | none => rfl
      | some child =>
          have hevent : forkEvent fresh info cur child =
              { Anticheat.forkEvent info cur child with data := forkText info cur } := by
            simp only [forkEvent, Anticheat.forkEvent, forkText,
              CharArray.str_strscpy (show 0 < acMaxComm by decide)]
          simp only [hevent, List.map_singleton]

theorem step_determined (sys : SyscallStatics) (k : Known Task File) (op : DeviceOp Task File) :
    Determines Represents (fun d fresh => Device.step sys d fresh op) k := by
  cases op with
  | openFile file capable =>
      cases capable with
      | false => exact ⟨k, (.error .EPERM, none), fun d fresh h => ⟨rfl, h⟩⟩
      | true =>
          refine ⟨{ k with files := Function.update k.files file none }, (.ok (), none), ?_⟩
          intro d fresh h
          exact ⟨rfl, h.setFile file .null⟩
  | ioctl file capable copy cmd => exact acIoctl_determined sys file capable copy cmd k
  | release file =>
      refine ⟨{ k with files := Function.update k.files file none }, (.ok (), none), ?_⟩
      intro d fresh h
      exact ⟨rfl, h.setFile file .null⟩
  | cloneRet info find cur ret clock =>
      let handled := Anticheat.acCloneRet k.reg info find cur ret
      refine determined_of_eq { k with
          reg := handled.2
          ring := emitStrings clock k.ring
            (handled.1.map fun c => { c with data := forkText info cur }) }
        (.ok (), none) rfl ?_
      intro files fresh
      simp only [Device.step, acCloneRet_eq, emitAll_image]
      rfl
  | exitPre info cur clock =>
      let handled := acExitPre k.reg info cur
      refine determined_of_eq { k with
          reg := handled.2, ring := emitStrings clock k.ring handled.1 } (.ok (), none) rfl ?_
      intro files fresh
      simp only [Device.step, emitAll_image]
      rfl
  | execPre info cur clock =>
      refine determined_of_eq { k with
          ring := emitStrings clock k.ring (acExecPre k.reg info cur) } (.ok (), none) rfl ?_
      intro files fresh
      simp only [Device.step, emitAll_image]
  | ptracePre info find acPolicy alloc cur p args clock =>
      let outcome := acPtracePre k.reg info find acPolicy alloc cur p args
      refine determined_of_eq { k with ring := emitStrings clock k.ring outcome.emits }
        (.ok (), none) rfl ?_
      intro files fresh
      simp only [Device.step, emitAll_image]
      rfl

/-! ## Runs -/

omit [DecidableEq Task] [DecidableEq File] in
/-- What is known of the device at module load. -/
theorem initial_represented :
    Represents ⟨Anticheat.EventRing.initial, Registry.empty Task, fun _ => none, 0, 0⟩
      (Device.initial Task File) where
  ring := by
    simp only [Device.initial, ringImage, Anticheat.EventRing.initial,
      Ring.map_empty eventImage_default]
  reg := rfl
  files := fun _ => .null
  lockCount := rfl
  lastHookCount := rfl

/-- No memory contents reach user space.  Two runs over the same calls and the same answers
of the kernel, which differ in what the memory contains that each call is given, return the
same and hand the same records to user space, in every byte. -/
theorem no_uninitialised_disclosure (sys : SyscallStatics) (ops : List (DeviceOp Task File))
    (fresh fresh' : Nat → Fresh) :
    outputs (Device.step sys) fresh (Device.initial Task File) ops =
      outputs (Device.step sys) fresh' (Device.initial Task File) ops :=
  outputs_eq (step_determined sys) initial_represented fresh fresh' ops

end Raw
end Anticheat
