import Anticheat.Foundation.CappedList
import Anticheat.Foundation.LinePieces
import Anticheat.Kernel.SnapshotIoctl

/-!
# Hidden kernel modules

The daemon compares the module list of the kernel with the names in `/proc/modules`: a
module that the kernel lists and the file does not is reported as hidden.  The file is
read line by line through a buffer of 256 bytes, and the first word of every string read
counts as a name.

A line that does not fit the buffer is read in several pieces, and the first word of each
piece counts as a name.  Such a word can be the name of a module that the file does not
list, and it takes one of the places for names.

Main results:

- Theorem {lit}`collectProcModules_eq`: the names that the daemon collects, in terms of the
  lines of the file.
- Theorem {lit}`crosscheckModules_eq`: the count is that of the kernel's records whose
  name was not collected.
- Theorem {lit}`crosscheckModules_of_shortLines`: the count is right if the lines fit the
  buffer.
- Theorem {lit}`crosscheck_exact_iff`: when it is that of the records whose name is not
  the first field of any line.
-/

namespace Anticheat

open Foundation

/-! ## The cross-check -/

/-- `AC_MAX_PROC_MODS` -/
def acMaxProcMods : Nat := 4096

/-- `collect_proc_modules`: the names collected, where `file` is the content of
`/proc/modules`, if it could be opened. -/
def collectProcModules (cap : Nat) (file : Option (List UInt8)) : List CStr :=
  match file with
  | none => []
  | some text => collectUpTo cap (CStr.word 63) (CStr.fgetsAll 256 text) []

/-- The loop of `crosscheck_modules` over the `left` entries from index `i` on. -/
def hiddenLoop (capable : Bool) (names : List CStr) (priv : Option AcFdState) :
    Nat → Nat → Nat → Nat
  | 0, _, hidden => hidden
  | left + 1, i, hidden =>
      match (acIoctlSnap capable (.modsGet i) priv).1 with
      | .ok (.mod (some m)) =>
          let visible := names.any fun name => name == m.name
          hiddenLoop capable names priv left (i + 1) (if visible then hidden else hidden + 1)
      | _ => hidden

/-- What a run of the cross-check meets: whether the daemon is privileged, the outcomes of
the kernel's allocations, the module list of the kernel, and `/proc/modules`. -/
structure ModuleWorld where
  capable : Bool := true
  fdAlloc : Bool := true
  alloc : Bool := true
  walk : List KModule
  procModules : Option (List UInt8)

/-- The MODS_BEGIN of a run. -/
def ModuleWorld.begin (w : ModuleWorld) (priv : Option AcFdState) :
    Except Errno SnapReply × Option AcFdState :=
  acIoctlSnap w.capable (.modsBegin w.fdAlloc w.alloc w.walk) priv

/-- `crosscheck_modules`, on a device file with private data `priv`. -/
def crosscheckModules (w : ModuleWorld) (priv : Option AcFdState) :
    Int × Option AcFdState :=
  match w.begin priv with
  | (.ok (.modsBegun count), priv) =>
      let names := collectProcModules acMaxProcMods w.procModules
      let hidden := hiddenLoop w.capable names priv count 0 0
      (hidden, (acIoctlSnap w.capable .modsEnd priv).2)
  | (_, priv) => (-1, priv)

/-- `cmd_modules`, the exit status. -/
def cmdModules (w : ModuleWorld) (priv : Option AcFdState) : Nat :=
  let hidden := (crosscheckModules w priv).1
  if hidden < 0 then 1 else if hidden = 0 then 0 else 2

/-! ## What is collected -/

/-- The first field of a line, between white space. -/
def firstField (line : List UInt8) : Option CStr :=
  let field := (CStr.skipSpaces line).takeWhile fun c => !CStr.isSpace c
  if field.isEmpty then none else some field

/-- The first fields of the lines of a text. -/
def firstFields (text : List UInt8) : List CStr :=
  (CStr.lines text).filterMap firstField

/-- The first words of the pieces of 255 bytes of each line, as far as they fit 63 bytes
and stand in front of a NUL; the first 4096 of them. -/
def pieceWords (text : List UInt8) : List CStr :=
  ((CStr.lines text).flatMap fun line =>
    (CStr.pieces 255 line).filterMap fun s => CStr.word 63 (CStr.cut s)).take acMaxProcMods

theorem collectProcModules_eq (text : List UInt8) :
    collectProcModules acMaxProcMods (some text) = pieceWords text := by
  rw [collectProcModules, collectUpTo_eq _ _ (Nat.zero_le _), List.nil_append, pieceWords,
    CStr.filterMap_fgetsAll (by decide) rfl (CStr.word_concat_newline 63) text]

/-! ## What is counted -/

theorem hiddenLoop_eq {names : List CStr} {st : AcFdState} {l : List AcModInfo}
    (h : CellsHold st.mods st.nMods (some l)) {left i : Nat} (hleft : i + left = l.length)
    (hidden : Nat) :
    hiddenLoop true names (some st) left i hidden =
      hidden + (l.drop i).countP fun m => decide (m.name ∉ names) := by
  induction left generalizing i hidden with
  | zero =>
      rw [List.drop_eq_nil_of_le (by omega)]
      rfl
  | succ left ih =>
      have hi : i < l.length := by omega
      rw [hiddenLoop, h.modsGet hi]
      simp only [List.any_beq']
      rw [ih (by omega), List.drop_eq_getElem_cons hi, List.countP_cons]
      by_cases hname : l[i].name ∈ names
      · simp [hname]
      · simp [hname]
        omega

/-- After a MODS_BEGIN that succeeded, the records whose name was not collected are
counted. -/
theorem crosscheckModules_eq {w : ModuleWorld} {priv priv' : Option AcFdState}
    {reply : SnapReply} (hbegin : w.begin priv = (.ok reply, priv')) :
    (crosscheckModules w priv).1 =
      ((modRecords w.walk).countP fun m =>
        decide (m.name ∉ collectProcModules acMaxProcMods w.procModules) : Nat) := by
  have hcapable : w.capable = true := by
    by_contra hcapable
    rw [Bool.not_eq_true] at hcapable
    simp [ModuleWorld.begin, acIoctlSnap, hcapable] at hbegin
  have hok : acIoctlModsBegin w.fdAlloc w.alloc w.walk priv = (.ok reply, priv') := by
    simpa [ModuleWorld.begin, acIoctlSnap, hcapable] using hbegin
  rcases acIoctlModsBegin_ok hok with ⟨rfl, st, rfl, hcells⟩
  simp only [crosscheckModules, hbegin, hcapable]
  rw [hiddenLoop_eq hcells (Nat.zero_add _)]
  simp

/-- The command is content exactly if the kernel listed its modules and every name of them
was collected. -/
theorem cmdModules_eq_zero_iff (w : ModuleWorld) (priv : Option AcFdState) :
    cmdModules w priv = 0 ↔
      (∃ reply priv', w.begin priv = (.ok reply, priv')) ∧
        ∀ m ∈ modRecords w.walk,
          m.name ∈ collectProcModules acMaxProcMods w.procModules := by
  rcases hbegin : w.begin priv with ⟨e | reply, priv'⟩
  · simp [cmdModules, crosscheckModules, hbegin]
  · have hcount := crosscheckModules_eq hbegin
    simp only [cmdModules, hcount, if_neg (not_lt.2 (Int.natCast_nonneg _))]
    simp [List.countP_eq_zero]

/-! ## Short lines -/

/-- The texts whose lines fit the buffer. -/
structure ShortLines (text : List UInt8) : Prop where
  no_nul : ∀ line ∈ CStr.lines text, ∀ c ∈ line, c ≠ 0
  fits : ∀ line ∈ CStr.lines text, line.length < 255
  few_fields : (firstFields text).length ≤ acMaxProcMods
  short_fields : ∀ field ∈ firstFields text, field.length ≤ 63

/-- A first field that fits is read as it is. -/
theorem word_eq_firstField {line : List UInt8}
    (hfield : ∀ field, firstField line = some field → field.length ≤ 63) :
    CStr.word 63 line = firstField line := by
  simp only [CStr.word, CStr.scanWord, firstField] at hfield ⊢
  by_cases hempty : (CStr.skipSpaces line).takeWhile (fun c => !CStr.isSpace c) = []
  · simp [hempty]
  · have hlen := hfield _ (if_neg (by simpa using hempty))
    simp [hempty, List.take_of_length_le hlen]

theorem ShortLines.pieceWords_eq {text : List UInt8} (h : ShortLines text) :
    pieceWords text = firstFields text := by
  have hline : ∀ line ∈ CStr.lines text,
      ((CStr.pieces 255 line).filterMap fun s => CStr.word 63 (CStr.cut s)) =
        (firstField line).toList := by
    intro line hmem
    have hcut : CStr.cut line = line :=
      List.takeWhile_eq_self_iff.2 fun c hc => by simpa using h.no_nul line hmem c hc
    have hword : CStr.word 63 line = firstField line := by
      apply word_eq_firstField
      intro field hfield
      exact h.short_fields field (List.mem_filterMap.2 ⟨line, hmem, hfield⟩)
    rw [CStr.pieces_of_lt (h.fits line hmem), List.filterMap_cons, hcut, hword]
    cases firstField line <;> rfl
  rw [pieceWords, List.flatMap_congr hline, ← List.filterMap_eq_flatMap_toList]
  exact List.take_of_length_le h.few_fields

/-- On a text whose lines fit the buffer the hidden modules are counted. -/
theorem crosscheckModules_of_shortLines {w : ModuleWorld} {priv priv' : Option AcFdState}
    {reply : SnapReply} {text : List UInt8} (hbegin : w.begin priv = (.ok reply, priv'))
    (htext : w.procModules = some text) (h : ShortLines text) :
    (crosscheckModules w priv).1 =
      ((modRecords w.walk).countP fun m => decide (m.name ∉ firstFields text) : Nat) := by
  rw [crosscheckModules_eq hbegin, htext, collectProcModules_eq, h.pieceWords_eq]

/-! ## When the count is right -/

/-- The name is the first word of a piece of some line, but the first field of no line. -/
def Stray (text : List UInt8) (name : CStr) : Prop :=
  name ∈ pieceWords text ∧ name ∉ firstFields text

/-- The name is the first field of some line, but the first word of no piece: it is cut where a
piece ends, stands behind a NUL, is too long, or comes after 4096 other words. -/
def Missed (text : List UInt8) (name : CStr) : Prop :=
  name ∈ firstFields text ∧ name ∉ pieceWords text

instance (text : List UInt8) (name : CStr) : Decidable (Stray text name) :=
  inferInstanceAs (Decidable (_ ∧ _))

instance (text : List UInt8) (name : CStr) : Decidable (Missed text name) :=
  inferInstanceAs (Decidable (_ ∧ _))

/-- The hidden modules are counted if the lines of the text are short, and in general exactly if
as many records have the name of a stray word as are missed. -/
theorem crosscheck_exact_iff (w : ModuleWorld) (priv priv' : Option AcFdState)
    (reply : SnapReply) (text : List UInt8) (hbegin : w.begin priv = (.ok reply, priv'))
    (htext : w.procModules = some text) :
    (ShortLines text → (crosscheckModules w priv).1 =
      ((modRecords w.walk).countP fun m => decide (m.name ∉ firstFields text) : Nat)) ∧
    ((crosscheckModules w priv).1 =
        ((modRecords w.walk).countP fun m => decide (m.name ∉ firstFields text) : Nat) ↔
      (modRecords w.walk).countP (fun m => decide (Stray text m.name)) =
        (modRecords w.walk).countP fun m => decide (Missed text m.name)) := by
  refine ⟨crosscheckModules_of_shortLines hbegin htext, ?_⟩
  rw [crosscheckModules_eq hbegin, htext, collectProcModules_eq, Nat.cast_inj]
  exact countP_not_eq_iff (fun m : AcModInfo => m.name ∈ pieceWords text)
    (fun m => m.name ∈ firstFields text) _

/-- A loaded module. -/
def loadedModule (name : String) : KModule where
  name := CStr.ascii name
  state := moduleStateLive
  textBase := 0xffffffffc0000000
  textSize := 0x1000
  coreSizes := [0x4000]

/-- Two modules, of which the file lists the first. -/
def shortWorld : ModuleWorld where
  walk := [loadedModule "ext4", loadedModule "rootkit"]
  procModules := some (CStr.ascii "ext4 16384 1 - Live 0x0\n")

theorem crosscheck_short_line :
    (∃ reply priv, shortWorld.begin none = (.ok reply, priv)) ∧
      (crosscheckModules shortWorld none).1 =
        ((modRecords shortWorld.walk).countP fun m =>
          decide (m.name ∉ firstFields (CStr.ascii "ext4 16384 1 - Live 0x0\n")) : Nat) :=
  ⟨⟨_, _, rfl⟩, (crosscheck_exact_iff shortWorld none _ _ _ rfl rfl).1
    ⟨by decide +kernel, by decide, by decide, by decide⟩⟩

/-- A line whose second piece begins with the word `Live`. -/
def longLine : List UInt8 :=
  CStr.ascii "ext4 1 1 " ++ List.replicate 244 120 ++ CStr.ascii ", Live 0x0\n"

/-- Two modules, of which the file lists the first. -/
def longWorld : ModuleWorld where
  walk := [loadedModule "ext4", loadedModule "Live"]
  procModules := some longLine

/-- One line with a short first field hides a module that the file does not list. -/
theorem long_line_hides_module :
    (CStr.lines longLine).length ≤ acMaxProcMods ∧
      (∀ field ∈ firstFields longLine, field.length ≤ 63) ∧
      (crosscheckModules longWorld none).1 = 0 ∧
      (modRecords longWorld.walk).countP (fun m => decide (m.name ∉ firstFields longLine)) =
        1 := by
  have hfields : firstFields longLine = [CStr.ascii "ext4"] := by decide +kernel
  have hwords : pieceWords longLine = [CStr.ascii "ext4", CStr.ascii "Live"] := by
    decide +kernel
  have hlines : (CStr.lines longLine).length = 2 := by decide +kernel
  have hbegin : ∃ reply priv, longWorld.begin none = (.ok reply, priv) := ⟨_, _, rfl⟩
  rcases hbegin with ⟨reply, priv, hbegin⟩
  refine ⟨?_, ?_, ?_, ?_⟩
  · rw [hlines]
    decide
  · rw [hfields]
    exact List.forall_mem_singleton.mpr (by decide)
  · have hcount := crosscheckModules_eq hbegin
    rw [show longWorld.procModules = some longLine from rfl, collectProcModules_eq,
      hwords] at hcount
    rw [hcount]
    decide
  · rw [hfields]
    decide

end Anticheat
