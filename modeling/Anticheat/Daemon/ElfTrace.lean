import Anticheat.Daemon.ElfSymbol
import Anticheat.Foundation.Traced

/-!
# What a symbol lookup touches

The lookup of `elf_find_symbol_offset`, once more with a log of the sizes that it
passes to `malloc` and `pread`, the table entries that it uses, and the bytes of the
two string tables that `strcmp` inspects.  Forgetting the log gives the lookup back.

The file is written by whoever is being watched.  The offset of a name is checked
against the size of its table, but nothing makes the table end in a NUL, so a
comparison can leave the buffer.  The number of symbols is checked after it was cut to
32 bits, while the buffer for them has the size that the file declares.

Main results:

- Theorem {lit}`val_elfFindSymbolTraced`: the log does not change the lookup.
- Theorem {lit}`elf_lookup_in_bounds_iff`: every inspected byte lies in its table
  exactly when no name that is compared runs off the end of its table while it agrees
  with the name looked for.
- Theorem {lit}`elf_lookup_sizes_iff`: the sizes stay within the caps exactly when the
  symbol table that is allocated is smaller than `24 * 2 ^ 32` bytes.
- Theorems {lit}`open_names_overrun` and {lit}`huge_symbols_allocated`: files for which
  they do not.
-/

namespace Anticheat

open Foundation

/-! ## The log -/

/-- What the lookup reads into: the header on the stack and four buffers. -/
inductive ElfBuffer where
  | header
  | sections
  | sectionNames
  | symbols
  | symbolNames
deriving DecidableEq

/-- What the lookup does.  An entry of a table comes with the number of entries that
were read, a byte of a string table with the size of the table. -/
inductive ElfEvent where
  | malloc (buf : ElfBuffer) (size : Nat)
  | pread (buf : ElfBuffer) (size : Nat)
  | sectionAt (i count : Nat)
  | symbolAt (i count : Nat)
  | inspect (table : ElfBuffer) (i size : Nat)
  | output (offset size : UInt64)
deriving DecidableEq

/-- The indices that `strcmp(mem + i, s)` inspects: it stops behind the first
difference. -/
def strcmpInspected (mem : Nat → UInt8) : Nat → CStr → List Nat
  | i, [] => [i]
  | i, c :: s => i :: if mem i == c then strcmpInspected mem (i + 1) s else []

/-- The name that the loop over the sections compares with, by the type of a section. -/
def wantedName (type : UInt32) : Option CStr :=
  if type == shtDynsym then some (CStr.ascii ".dynsym")
  else if type == shtStrtab then some (CStr.ascii ".dynstr")
  else none

/-- What the loop over the sections does with one of them. -/
def sectionEvents (names : Nat → UInt8) (namesSize : UInt64) (count : Nat)
    (e : Elf64Shdr × Nat) : List ElfEvent :=
  .sectionAt e.2 count ::
    if e.1.name.toUInt64 ≥ namesSize then []
    else
      match wantedName e.1.type with
      | none => []
      | some want =>
          (strcmpInspected names e.1.name.toNat want).map fun j =>
            .inspect .sectionNames j namesSize.toNat

/-- What the loop over the symbols does with one of them. -/
def symbolEvents (names : Nat → UInt8) (namesSize : UInt64) (symbol : CStr) (count : Nat)
    (e : Elf64Sym × Nat) : List ElfEvent :=
  .symbolAt e.2 count ::
    if e.1.name == 0 || e.1.name.toUInt64 ≥ namesSize || e.1.value == 0 then []
    else (strcmpInspected names e.1.name.toNat symbol).map fun j =>
      .inspect .symbolNames j namesSize.toNat

/-! ## The lookup with its log -/

/-- The section headers that the loop goes over, the number of them that were read, the
header of the section names, and the section names. -/
structure ElfSections where
  shdrs : List Elf64Shdr
  count : Nat
  shstr : Elf64Shdr
  shstrtab : List UInt8

/-- The symbols that the loop goes over, the number of symbols that were read, and their
names. -/
structure ElfDynamic where
  syms : List Elf64Sym
  count : Nat
  dynstrtab : List UInt8

/-- A read into a buffer. -/
def readTraced (buf : ElfBuffer) (ok : Bool) (file : List UInt8) (n : Nat) (off : UInt64) :
    Traced ElfEvent (List UInt8) := do
  Traced.tell [.pread buf n]
  Traced.ofOption (Bytes.readFull ok file n off)

/-- The lookup up to the section names. -/
def readSections (io : ElfIo) (file : List UInt8) : Traced ElfEvent ElfSections := do
  let eh := Elf64Ehdr.parse (← readTraced .header (io.reads 0) file Elf64Ehdr.size 0)
  Traced.require eh.accepted
  let tableSize := eh.shnum.toNat * Elf64Shdr.bytes
  Traced.tell [.malloc .sections tableSize]
  Traced.require (malloc (io.allocs 0) tableSize)
  let table ← readTraced .sections (io.reads 1) file tableSize eh.shoff
  let shdrs := (Bytes.records Elf64Shdr.bytes eh.shnum.toNat table).map Elf64Shdr.parse
  Traced.tell [.sectionAt eh.shstrndx.toNat (table.length / Elf64Shdr.bytes)]
  let shstr ← Traced.ofOption shdrs[eh.shstrndx.toNat]?
  Traced.require !(shstr.size == 0 || shstr.size > acElfMaxStrtab)
  Traced.tell [.malloc .sectionNames shstr.size.toNat]
  Traced.require (malloc (io.allocs 1) shstr.size.toNat)
  let shstrtab ← readTraced .sectionNames (io.reads 2) file shstr.size.toNat shstr.offset
  return ⟨shdrs, table.length / Elf64Shdr.bytes, shstr, shstrtab⟩

/-- `nsyms`, a 32-bit number. -/
def symbolCount (dynsym : Elf64Shdr) : UInt32 :=
  (dynsym.size / UInt64.ofNat Elf64Sym.bytes).toUInt32

/-- The tests of the two sections. -/
def dynamicAccepted (dynsym dynstr : Elf64Shdr) : Bool :=
  !(dynsym.entsize.toNat != Elf64Sym.bytes || dynstr.size == 0 ||
      dynstr.size > acElfMaxStrtab) &&
    !(symbolCount dynsym == 0 || symbolCount dynsym > acElfMaxSyms)

/-- The lookup from the two sections to the symbols and their names. -/
def readDynamic (io : ElfIo) (file : List UInt8) (dynsym dynstr : Elf64Shdr) :
    Traced ElfEvent ElfDynamic := do
  Traced.require (dynamicAccepted dynsym dynstr)
  Traced.tell [.malloc .symbols dynsym.size.toNat, .malloc .symbolNames dynstr.size.toNat]
  Traced.require
    (malloc (io.allocs 2) dynsym.size.toNat && malloc (io.allocs 3) dynstr.size.toNat)
  let syms ← readTraced .symbols (io.reads 3) file dynsym.size.toNat dynsym.offset
  let dynstrtab ← readTraced .symbolNames (io.reads 4) file dynstr.size.toNat dynstr.offset
  return ⟨(Bytes.records Elf64Sym.bytes (symbolCount dynsym).toNat syms).map Elf64Sym.parse,
    syms.length / Elf64Sym.bytes, dynstrtab⟩

/-- The body of the loop over the sections. -/
def sectionStep (names : Nat → UInt8) (namesSize : UInt64)
    (found : Option Elf64Shdr × Option Elf64Shdr) (sh : Elf64Shdr) :
    Option Elf64Shdr × Option Elf64Shdr :=
  if sh.name.toUInt64 ≥ namesSize then found
  else if sh.type == shtDynsym && strcmpEq names sh.name.toNat (CStr.ascii ".dynsym") then
    (some sh, found.2)
  else if sh.type == shtStrtab && strcmpEq names sh.name.toNat (CStr.ascii ".dynstr") then
    (found.1, some sh)
  else found

/-- The section names with what follows their buffer. -/
def ElfSections.names (io : ElfIo) (s : ElfSections) : Nat → UInt8 :=
  heapAt s.shstrtab (io.beyond 1)

/-- The symbol names with what follows their buffer. -/
def ElfDynamic.names (io : ElfIo) (d : ElfDynamic) : Nat → UInt8 :=
  heapAt d.dynstrtab (io.beyond 3)

/-- The two sections that the loop over the sections ends with. -/
def ElfSections.picked (io : ElfIo) (s : ElfSections) : Option Elf64Shdr × Option Elf64Shdr :=
  findSections (s.names io) s.shstr.size s.shdrs

/-- `elf_find_symbol_offset` with its log. -/
def elfFindSymbolTraced (io : ElfIo) (file : List UInt8) (symbol : CStr) :
    Traced ElfEvent (UInt64 × UInt64) := do
  let s ← readSections io file
  let found ← Traced.loop (sectionEvents (s.names io) s.shstr.size s.count)
    (fun found e => sectionStep (s.names io) s.shstr.size found e.1) (none, none) s.shdrs.zipIdx
  let dynsym ← Traced.ofOption found.1
  let dynstr ← Traced.ofOption found.2
  let d ← readDynamic io file dynsym dynstr
  let e ← Traced.search (symbolEvents (d.names io) dynstr.size symbol d.count)
    (fun e => e.1.isNamed (d.names io) dynstr.size symbol) d.syms.zipIdx
  Traced.tell [.output e.1.value e.1.size]
  return (e.1.value, e.1.size)

/-! ## Forgetting the log -/

@[simp]
theorem val_readTraced (buf : ElfBuffer) (ok : Bool) (file : List UInt8) (n : Nat)
    (off : UInt64) : (readTraced buf ok file n off).val = Bytes.readFull ok file n off :=
  rfl

/-- The second half of the lookup, in its stages. -/
theorem findInDynsym_eq (io : ElfIo) (file : List UInt8) (symbol : CStr)
    (dynsym dynstr : Elf64Shdr) :
    findInDynsym io file symbol dynsym dynstr =
      (readDynamic io file dynsym dynstr).val.bind fun d =>
        (d.syms.find? (Elf64Sym.isNamed (d.names io) dynstr.size symbol)).map fun sym =>
          (sym.value, sym.size) := by
  have hguard (a b : Bool) {β : Type} (f : Unit → Option β) :
      (guard (a && b) : Option Unit).bind f = (guard a : Option Unit).bind fun _ =>
        (guard b : Option Unit).bind f := by
    cases a <;> rfl
  simp only [findInDynsym, readDynamic, dynamicAccepted, Traced.val_bind, Traced.val_require,
    Traced.val_tell, val_readTraced, Traced.val_pure, Option.bind_eq_bind, Option.bind_assoc,
    Option.bind_some, Option.map_eq_bind, hguard]
  rfl

/-- The lookup, in its stages. -/
theorem elfFindSymbolOffset_eq (io : ElfIo) (file : List UInt8) (symbol : CStr) :
    elfFindSymbolOffset io file symbol =
      (readSections io file).val.bind fun s =>
        (s.picked io).1.bind fun dynsym =>
          (s.picked io).2.bind fun dynstr =>
            findInDynsym io file symbol dynsym dynstr := by
  simp only [elfFindSymbolOffset, readSections, Traced.val_bind, Traced.val_require,
    Traced.val_tell, val_readTraced, Traced.val_ofOption, Traced.val_pure, Option.bind_eq_bind,
    Option.bind_assoc, Option.bind_some]
  rfl

/-- The loop over the sections, without its log. -/
theorem picked_eq (io : ElfIo) (s : ElfSections) :
    s.shdrs.zipIdx.foldl (fun found e => sectionStep (s.names io) s.shstr.size found e.1)
      (none, none) = s.picked io := by
  rw [← List.foldl_map, List.zipIdx_map_fst]
  rfl

/-- Forgetting the log gives `elf_find_symbol_offset`. -/
theorem val_elfFindSymbolTraced (io : ElfIo) (file : List UInt8) (symbol : CStr) :
    (elfFindSymbolTraced io file symbol).val = elfFindSymbolOffset io file symbol := by
  have hfind (p : Elf64Sym → Bool) (syms : List Elf64Sym) :
      (syms.zipIdx.find? fun e => p e.1).map Prod.fst = syms.find? p := by
    conv_rhs => rw [← List.zipIdx_map_fst 0 syms, List.find?_map]
    rfl
  simp only [elfFindSymbolTraced, elfFindSymbolOffset_eq, findInDynsym_eq, Traced.val_bind,
    Traced.val_loop, Traced.val_ofOption, Traced.val_search, Traced.val_tell, Traced.val_pure,
    picked_eq, ← hfind, Option.bind_eq_bind, Option.bind_some, Option.map_eq_bind,
    Option.bind_assoc]
  rfl

/-! ## What the log can hold -/

theorem logs_readTraced {P : ElfEvent → Prop} {buf : ElfBuffer} {ok : Bool} {file : List UInt8}
    {n : Nat} {off : UInt64} :
    Traced.Logs P (readTraced buf ok file n off) ↔ P (.pread buf n) := by
  simp [readTraced, Traced.logs_bind]

/-- What the lookup logs, by its stages; the outputs are written only with the result. -/
theorem logs_elfFindSymbolTraced {P : ElfEvent → Prop} {io : ElfIo} {file : List UInt8}
    {symbol : CStr} (hout : ∀ offset size,
      elfFindSymbolOffset io file symbol = some (offset, size) → P (.output offset size)) :
    Traced.Logs P (elfFindSymbolTraced io file symbol) ↔
      Traced.Logs P (readSections io file) ∧ ∀ s, (readSections io file).val = some s →
        (∀ e ∈ s.shdrs.zipIdx, ∀ ev ∈ sectionEvents (s.names io) s.shstr.size s.count e, P ev) ∧
        ∀ dynsym, (s.picked io).1 = some dynsym → ∀ dynstr, (s.picked io).2 = some dynstr →
          Traced.Logs P (readDynamic io file dynsym dynstr) ∧
          ∀ d, (readDynamic io file dynsym dynstr).val = some d →
            Traced.Logs P (Traced.search (symbolEvents (d.names io) dynstr.size symbol d.count)
              (fun e => e.1.isNamed (d.names io) dynstr.size symbol) d.syms.zipIdx) := by
  simp only [elfFindSymbolTraced, Traced.logs_bind, Traced.logs_loop, Traced.val_loop, picked_eq,
    Traced.logs_ofOption, Traced.val_ofOption, Traced.logs_tell, Traced.logs_pure,
    List.mem_singleton, forall_eq, Option.some.injEq, forall_eq', true_and, and_true,
    implies_true]
  refine and_congr_right fun _ => forall_congr' fun s => imp_congr_right fun hs =>
    and_congr_right fun _ => forall_congr' fun dynsym => imp_congr_right fun hdynsym =>
    forall_congr' fun dynstr => imp_congr_right fun hdynstr => and_congr_right fun _ =>
    forall_congr' fun d => imp_congr_right fun hd => and_iff_left fun e he => ?_
  apply hout
  rw [← val_elfFindSymbolTraced]
  simp only [elfFindSymbolTraced, Traced.val_bind, Traced.val_loop, picked_eq,
    Traced.val_ofOption, Traced.val_tell, Traced.val_pure, Option.bind_eq_bind, hs, hdynsym,
    hdynstr, hd, he, Option.bind_some]

/-- A symbol that the loop over the symbols compares by name. -/
def Elf64Sym.candidate (namesSize : UInt64) (sym : Elf64Sym) : Bool :=
  !(sym.name == 0 || sym.name.toUInt64 ≥ namesSize || sym.value == 0)

/-- What the loop over the sections logs for one of them. -/
theorem forall_sectionEvents_iff {P : ElfEvent → Prop} {names : Nat → UInt8} {n : UInt64}
    {count : Nat} {e : Elf64Shdr × Nat} :
    (∀ ev ∈ sectionEvents names n count e, P ev) ↔
      P (.sectionAt e.2 count) ∧ (e.1.name.toUInt64 < n → ∀ want ∈ wantedName e.1.type,
        ∀ j ∈ strcmpInspected names e.1.name.toNat want, P (.inspect .sectionNames j n.toNat)) := by
  rw [sectionEvents, List.forall_mem_cons]
  refine and_congr_right fun _ => ?_
  by_cases hname : e.1.name.toUInt64 < n
  · rw [if_neg (UInt64.not_le.mpr hname), imp_iff_right hname]
    cases wantedName e.1.type with
    | none => simp
    | some want => simp
  · rw [if_pos (UInt64.not_lt.mp hname)]
    simp [hname]

/-- What the loop over the symbols logs for one of them. -/
theorem forall_symbolEvents_iff {P : ElfEvent → Prop} {names : Nat → UInt8} {n : UInt64}
    {symbol : CStr} {count : Nat} {e : Elf64Sym × Nat} :
    (∀ ev ∈ symbolEvents names n symbol count e, P ev) ↔
      P (.symbolAt e.2 count) ∧ (e.1.candidate n = true →
        ∀ j ∈ strcmpInspected names e.1.name.toNat symbol, P (.inspect .symbolNames j n.toNat)) := by
  rw [symbolEvents, List.forall_mem_cons, Elf64Sym.candidate]
  refine and_congr_right fun _ => ?_
  cases e.1.name == 0 || e.1.name.toUInt64 ≥ n || e.1.value == 0 with
  | true => simp
  | false => simp

/-- What the header tests leave of the two numbers that are used. -/
theorem Elf64Ehdr.accepted_bounds {eh : Elf64Ehdr} (h : eh.accepted = true) :
    eh.shnum ≤ acElfMaxShnum ∧ eh.shstrndx < eh.shnum := by
  simp only [Elf64Ehdr.accepted, Bool.and_eq_true, Bool.not_eq_true', Bool.or_eq_false_iff,
    decide_eq_false_iff_not] at h
  exact ⟨UInt16.not_lt.mp h.2.1.2, UInt16.not_le.mp h.2.2⟩

/-- The section headers of a header and a table. -/
def Elf64Ehdr.shdrs (eh : Elf64Ehdr) (table : List UInt8) : List Elf64Shdr :=
  (Bytes.records Elf64Shdr.bytes eh.shnum.toNat table).map Elf64Shdr.parse

/-- The reads up to the section names log the sizes of the two tables, as the header and
the header of the section names declare them, and one section header. -/
theorem logs_readSections {P : ElfEvent → Prop} (hheader : P (.pread .header Elf64Ehdr.size))
    (hsections : ∀ eh : Elf64Ehdr, eh.accepted = true →
      P (.malloc .sections (eh.shnum.toNat * Elf64Shdr.bytes)) ∧
        P (.pread .sections (eh.shnum.toNat * Elf64Shdr.bytes)))
    (hindex : ∀ (eh : Elf64Ehdr) (table : List UInt8), eh.accepted = true →
      table.length = eh.shnum.toNat * Elf64Shdr.bytes →
      P (.sectionAt eh.shstrndx.toNat (table.length / Elf64Shdr.bytes)))
    (hnames : ∀ n : UInt64, (!(n == 0 || n > acElfMaxStrtab)) = true →
      P (.malloc .sectionNames n.toNat) ∧ P (.pread .sectionNames n.toNat))
    (io : ElfIo) (file : List UInt8) : Traced.Logs P (readSections io file) := by
  simp only [readSections, Traced.logs_bind, logs_readTraced, Traced.logs_require,
    Traced.val_require, Traced.logs_tell, Traced.logs_ofOption, Traced.logs_pure,
    val_readTraced, List.mem_singleton, forall_eq, Option.guard_eq_some', true_and, and_true,
    implies_true]
  refine ⟨hheader, fun hdr _ _ hacc => ⟨(hsections _ hacc).1, fun _ _ _ _ => ?_⟩⟩
  refine ⟨(hsections _ hacc).2, fun table htable => ?_⟩
  refine ⟨hindex _ table hacc (Bytes.readFull_eq_some htable).1, ?_⟩
  intro _ _ shstr _ _ hsize
  exact ⟨(hnames _ hsize).1, fun _ _ _ _ => (hnames _ hsize).2⟩

/-- The lookup gets to the section names with this header and this table. -/
structure ReadsSections (io : ElfIo) (file hdr table : List UInt8) (s : ElfSections) : Prop where
  header : Bytes.readFull (io.reads 0) file Elf64Ehdr.size 0 = some hdr
  accepted : (Elf64Ehdr.parse hdr).accepted = true
  allocSections :
    malloc (io.allocs 0) ((Elf64Ehdr.parse hdr).shnum.toNat * Elf64Shdr.bytes) = true
  sections :
    Bytes.readFull (io.reads 1) file ((Elf64Ehdr.parse hdr).shnum.toNat * Elf64Shdr.bytes)
      (Elf64Ehdr.parse hdr).shoff = some table
  shdrs : s.shdrs = (Elf64Ehdr.parse hdr).shdrs table
  count : s.count = table.length / Elf64Shdr.bytes
  shstr : s.shdrs[(Elf64Ehdr.parse hdr).shstrndx.toNat]? = some s.shstr
  sizeOk : (!(s.shstr.size == 0 || s.shstr.size > acElfMaxStrtab)) = true
  allocNames : malloc (io.allocs 1) s.shstr.size.toNat = true
  names : Bytes.readFull (io.reads 2) file s.shstr.size.toNat s.shstr.offset = some s.shstrtab

theorem readSections_eq_some_iff {io : ElfIo} {file : List UInt8} {s : ElfSections} :
    (readSections io file).val = some s ↔ ∃ hdr table, ReadsSections io file hdr table s := by
  simp only [readSections, Traced.val_bind, Traced.val_require, Traced.val_tell,
    val_readTraced, Traced.val_ofOption, Traced.val_pure, Option.bind_eq_bind,
    Option.bind_eq_some_iff, Option.guard_eq_some', exists_const, Option.some.injEq, true_and]
  constructor
  · rintro ⟨hdr, hhdr, hacc, hmalloc, table, htable, shstr, hshstr, hsize, hmalloc', tab, htab,
      rfl⟩
    exact ⟨hdr, table, hhdr, hacc, hmalloc, htable, rfl, rfl, hshstr, hsize, hmalloc', htab⟩
  · rintro ⟨hdr, table, hhdr, hacc, hmalloc, htable, hshdrs, hcount, hshstr, hsize, hmalloc', htab⟩
    cases s
    cases hshdrs
    cases hcount
    exact ⟨hdr, hhdr, hacc, hmalloc, table, htable, _, hshstr, hsize, hmalloc', _, htab, rfl⟩

section

variable {io : ElfIo} {file hdr table : List UInt8} {s : ElfSections}

theorem ReadsSections.length_table (h : ReadsSections io file hdr table s) :
    table.length = (Elf64Ehdr.parse hdr).shnum.toNat * Elf64Shdr.bytes :=
  (Bytes.readFull_eq_some h.sections).1

/-- As many section headers are used as were read. -/
theorem ReadsSections.count_eq (h : ReadsSections io file hdr table s) :
    s.count = s.shdrs.length := by
  rw [h.count, h.length_table, h.shdrs, Elf64Ehdr.shdrs, List.length_map, Bytes.length_records]
  exact Nat.mul_div_cancel _ (by decide)

theorem ReadsSections.length_names (h : ReadsSections io file hdr table s) :
    s.shstrtab.length = s.shstr.size.toNat :=
  (Bytes.readFull_eq_some h.names).1

end

/-- The lookup gets from the two sections to their tables; the symbols are in `bytes`. -/
structure ReadsDynamic (io : ElfIo) (file bytes : List UInt8) (dynsym dynstr : Elf64Shdr)
    (d : ElfDynamic) : Prop where
  accepted : dynamicAccepted dynsym dynstr = true
  allocs :
    (malloc (io.allocs 2) dynsym.size.toNat && malloc (io.allocs 3) dynstr.size.toNat) = true
  symbols : Bytes.readFull (io.reads 3) file dynsym.size.toNat dynsym.offset = some bytes
  names : Bytes.readFull (io.reads 4) file dynstr.size.toNat dynstr.offset = some d.dynstrtab
  syms :
    d.syms = (Bytes.records Elf64Sym.bytes (symbolCount dynsym).toNat bytes).map Elf64Sym.parse
  count : d.count = bytes.length / Elf64Sym.bytes

theorem readDynamic_eq_some_iff {io : ElfIo} {file : List UInt8} {dynsym dynstr : Elf64Shdr}
    {d : ElfDynamic} :
    (readDynamic io file dynsym dynstr).val = some d ↔
      ∃ bytes, ReadsDynamic io file bytes dynsym dynstr d := by
  simp only [readDynamic, Traced.val_bind, Traced.val_require, Traced.val_tell,
    val_readTraced, Traced.val_pure, Option.bind_eq_bind, Option.bind_eq_some_iff,
    Option.guard_eq_some', exists_const, Option.some.injEq, true_and]
  constructor
  · rintro ⟨hacc, hmalloc, bytes, hbytes, tab, htab, rfl⟩
    exact ⟨bytes, hacc, hmalloc, hbytes, htab, rfl, rfl⟩
  · rintro ⟨bytes, hacc, hmalloc, hbytes, htab, hsyms, hcount⟩
    cases d
    cases hsyms
    cases hcount
    exact ⟨hacc, hmalloc, bytes, hbytes, _, htab, rfl⟩

/-- The tests of the two sections, one by one. -/
theorem dynamicAccepted_iff {dynsym dynstr : Elf64Shdr} :
    dynamicAccepted dynsym dynstr = true ↔
      dynsym.entsize.toNat = Elf64Sym.bytes ∧ dynstr.size ≠ 0 ∧ dynstr.size ≤ acElfMaxStrtab ∧
        symbolCount dynsym ≠ 0 ∧ symbolCount dynsym ≤ acElfMaxSyms := by
  simp only [dynamicAccepted, Bool.and_eq_true, Bool.not_eq_true', Bool.or_eq_false_iff,
    decide_eq_false_iff_not, bne_eq_false_iff_eq, beq_eq_false_iff_ne, and_assoc, gt_iff_lt,
    UInt64.not_lt, UInt32.not_lt]

theorem symbolCount_toNat (dynsym : Elf64Shdr) :
    (symbolCount dynsym).toNat = dynsym.size.toNat / Elf64Sym.bytes % 2 ^ 32 := by
  rw [symbolCount, UInt64.toNat_toUInt32, UInt64.toNat_div]
  rfl

/-! ## The sizes -/

/-- The bound on the size of each buffer. -/
def ElfBuffer.cap : ElfBuffer → Nat
  | header => 64
  | sections => 2048 * 64
  | sectionNames | symbolNames => 4 * 1024 * 1024
  | symbols => 500001 * 24 - 1

/-- The sizes that are passed to `malloc` and `pread` respect the bounds. -/
def ElfEvent.WithinCap : ElfEvent → Prop
  | malloc buf size | pread buf size => size ≤ buf.cap
  | _ => True

theorem logs_withinCap_readSections (io : ElfIo) (file : List UInt8) :
    Traced.Logs ElfEvent.WithinCap (readSections io file) := by
  apply logs_readSections
  · exact le_rfl
  · intro eh hacc
    have hsize : eh.shnum.toNat * Elf64Shdr.bytes ≤ ElfBuffer.cap .sections :=
      Nat.mul_le_mul_right _ (UInt16.le_iff_toNat_le.mp (Elf64Ehdr.accepted_bounds hacc).1)
    exact ⟨hsize, hsize⟩
  · intro eh table _ _
    trivial
  · intro n hn
    have hsize : n.toNat ≤ ElfBuffer.cap .sectionNames := by
      simp only [Bool.not_eq_true', Bool.or_eq_false_iff, decide_eq_false_iff_not] at hn
      exact UInt64.le_iff_toNat_le.mp (UInt64.not_lt.mp hn.2)
    exact ⟨hsize, hsize⟩

/-- The sizes for the two tables of symbols respect the bounds exactly if the symbol
table is not so large that its number of symbols was cut. -/
theorem logs_withinCap_readDynamic_iff (io : ElfIo) (file : List UInt8)
    (dynsym dynstr : Elf64Shdr) :
    Traced.Logs ElfEvent.WithinCap (readDynamic io file dynsym dynstr) ↔
      (dynamicAccepted dynsym dynstr = true → dynsym.size.toNat < 24 * 2 ^ 32) := by
  simp only [readDynamic, Traced.logs_bind, logs_readTraced, Traced.logs_require,
    Traced.val_require, Traced.logs_tell, Traced.logs_pure, List.forall_mem_cons,
    List.not_mem_nil, false_implies, implies_true, Option.guard_eq_some', true_and, and_true]
  have hbounds (hacc : dynamicAccepted dynsym dynstr = true) :
      dynstr.size.toNat ≤ ElfBuffer.cap .symbolNames ∧
        (dynsym.size.toNat ≤ ElfBuffer.cap .symbols ↔ dynsym.size.toNat < 24 * 2 ^ 32) := by
    obtain ⟨-, -, hstr, -, hcount⟩ := dynamicAccepted_iff.mp hacc
    refine ⟨UInt64.le_iff_toNat_le.mp hstr, ?_⟩
    have hcount : dynsym.size.toNat / 24 % 2 ^ 32 ≤ 500000 := by
      have := UInt32.le_iff_toNat_le.mp hcount
      rwa [symbolCount_toNat] at this
    simp only [ElfBuffer.cap]
    omega
  constructor
  · intro h hacc
    exact (hbounds hacc).2.mp (h () hacc).1.1
  · intro h _ hacc
    obtain ⟨hstr, hsym⟩ := hbounds hacc
    have hsym := hsym.mpr (h hacc)
    exact ⟨⟨hsym, hstr⟩, fun _ _ _ _ => ⟨hsym, fun _ _ => hstr⟩⟩

/-- Every size that the lookup passes to `malloc` and `pread` respects the bound of its
buffer exactly when, for the sections that are picked and accepted, the symbol table is
smaller than `24 * 2 ^ 32` bytes. -/
theorem elf_lookup_sizes_iff (io : ElfIo) (file : List UInt8) (symbol : CStr) :
    Traced.Logs ElfEvent.WithinCap (elfFindSymbolTraced io file symbol) ↔
      ∀ s, (readSections io file).val = some s →
        ∀ dynsym, (s.picked io).1 = some dynsym → ∀ dynstr, (s.picked io).2 = some dynstr →
          dynamicAccepted dynsym dynstr = true → dynsym.size.toNat < 24 * 2 ^ 32 := by
  rw [logs_elfFindSymbolTraced (fun _ _ _ => trivial),
    and_iff_right (logs_withinCap_readSections io file)]
  refine forall_congr' fun s => imp_congr_right fun _ => ?_
  rw [and_iff_right fun e _ => forall_sectionEvents_iff.mpr
    ⟨trivial, fun _ _ _ _ _ => trivial⟩]
  refine forall_congr' fun dynsym => imp_congr_right fun _ =>
    forall_congr' fun dynstr => imp_congr_right fun _ => ?_
  rw [and_iff_left fun d _ => Traced.logs_search.mpr <| upTo_of_forall fun e _ =>
    forall_symbolEvents_iff.mpr ⟨trivial, fun _ _ _ => trivial⟩]
  exact logs_withinCap_readDynamic_iff io file dynsym dynstr

/-- A file whose symbol table declares one symbol more than `2 ^ 32`: the count is cut to
one, and a buffer of about 96 GiB is asked for. -/
def hugeSymbols : List UInt8 :=
  elfFile sectionNameTable (symbolEntry 1 4096 16) (0 :: CStr.ascii "f" ++ [0])
    (24 * 2 ^ 32 + 24)

theorem huge_symbols_allocated :
    ¬Traced.Logs ElfEvent.WithinCap
      (elfFindSymbolTraced (calmIo fun _ => 0) hugeSymbols (CStr.ascii "f")) := by
  intro h
  have halloc : ElfEvent.malloc .symbols (24 * 2 ^ 32 + 24) ∈
      (elfFindSymbolTraced (calmIo fun _ => 0) hugeSymbols (CStr.ascii "f")).log := by
    decide +kernel
  exact absurd (h _ halloc) (by decide : ¬24 * 2 ^ 32 + 24 ≤ ElfBuffer.cap .symbols)

/-! ## The bounds -/

/-- The entries and the bytes that are used lie in their tables. -/
def ElfEvent.InBounds : ElfEvent → Prop
  | sectionAt i n | symbolAt i n | inspect _ i n => i < n
  | _ => True

theorem heapAt_of_lt {buf : List UInt8} {i : Nat} (h : i < buf.length) (beyond : Nat → UInt8) :
    heapAt buf beyond i = buf[i] := by
  simp [heapAt, h]

/-- A comparison stays in its table unless the table ends with a part of the string. -/
theorem strcmpInspected_lt_iff (buf : List UInt8) (beyond : Nat → UInt8) (i : Nat) (s : CStr) :
    (∀ j ∈ strcmpInspected (heapAt buf beyond) i s, j < buf.length) ↔ ¬buf.drop i <+: s := by
  induction s generalizing i with
  | nil => simp [strcmpInspected]
  | cons c s ih =>
      rw [strcmpInspected, List.forall_mem_cons]
      by_cases hi : i < buf.length
      · rw [List.drop_eq_getElem_cons hi, List.cons_prefix_cons, heapAt_of_lt hi, and_iff_right hi]
        by_cases hc : buf[i] = c
        · simpa [hc] using ih (i + 1)
        · simp [hc]
      · simp [hi, List.drop_eq_nil_of_le (not_lt.mp hi)]

/-- A table holds a string with its NUL at an offset. -/
def holdsName (tab : List UInt8) (i : Nat) (s : CStr) : Bool :=
  (s ++ [0]).isPrefixOf (tab.drop i)

/-- A comparison that stays in its table succeeds where the table holds the string with
its NUL. -/
theorem strcmpEq_inside_iff (buf : List UInt8) (beyond : Nat → UInt8) (i : Nat) (s : CStr) :
    strcmpEq (heapAt buf beyond) i s = true ∧ ¬buf.drop i <+: s ↔ holdsName buf i s = true := by
  rw [holdsName, List.isPrefixOf_iff_prefix]
  induction s generalizing i with
  | nil =>
      by_cases hi : i < buf.length
      · rw [strcmpEq, heapAt_of_lt hi, List.drop_eq_getElem_cons hi, List.nil_append,
          List.cons_prefix_cons, beq_iff_eq, eq_comm]
        simp only [List.prefix_nil, reduceCtorEq, not_false_eq_true, and_true, List.nil_prefix]
      · simp [List.drop_eq_nil_of_le (not_lt.mp hi)]
  | cons c s ih =>
      by_cases hi : i < buf.length
      · rw [strcmpEq, heapAt_of_lt hi, List.drop_eq_getElem_cons hi, List.cons_append,
          List.cons_prefix_cons, List.cons_prefix_cons, ← ih (i + 1)]
        by_cases hc : buf[i] = c
        · simp [hc]
        · simp [hc, Ne.symm hc]
      · simp [List.drop_eq_nil_of_le (not_lt.mp hi)]

/-- Every section name that is compared ends in its table or differs from the name it is
compared with. -/
def ElfSections.NamesEnd (s : ElfSections) : Prop :=
  ∀ sh ∈ s.shdrs, sh.name.toUInt64 < s.shstr.size → ∀ want ∈ wantedName sh.type,
    ¬s.shstrtab.drop sh.name.toNat <+: want

/-- The table holds the name of a symbol that is compared, with its NUL. -/
def Elf64Sym.namedInside (tab : List UInt8) (n : UInt64) (symbol : CStr) (sym : Elf64Sym) : Bool :=
  sym.candidate n && holdsName tab sym.name.toNat symbol

/-- Every symbol name that is compared, up to the first that is found in the table, ends
in the table or differs from the name looked for. -/
def ElfDynamic.NamesEnd (d : ElfDynamic) (n : UInt64) (symbol : CStr) : Prop :=
  UpTo (Elf64Sym.namedInside d.dynstrtab n symbol)
    (fun sym => sym.candidate n = true → ¬d.dynstrtab.drop sym.name.toNat <+: symbol) d.syms

theorem logs_inBounds_readSections (io : ElfIo) (file : List UInt8) :
    Traced.Logs ElfEvent.InBounds (readSections io file) := by
  apply logs_readSections
  · trivial
  · exact fun _ _ => ⟨trivial, trivial⟩
  · intro eh table hacc hlen
    change eh.shstrndx.toNat < table.length / Elf64Shdr.bytes
    rw [hlen, Nat.mul_div_cancel _ (by decide)]
    exact UInt16.lt_iff_toNat_lt.mp (Elf64Ehdr.accepted_bounds hacc).2
  · exact fun _ _ => ⟨trivial, trivial⟩

/-- The comparisons of section names stay in their table. -/
theorem inBounds_sections_iff {io : ElfIo} {file : List UInt8} {s : ElfSections}
    (h : (readSections io file).val = some s) :
    (∀ e ∈ s.shdrs.zipIdx, ∀ ev ∈ sectionEvents (s.names io) s.shstr.size s.count e,
        ev.InBounds) ↔ s.NamesEnd := by
  obtain ⟨hdr, table, hs⟩ := readSections_eq_some_iff.mp h
  have hindex {e : Elf64Shdr × Nat} (he : e ∈ s.shdrs.zipIdx) : e.2 < s.count := by
    rw [hs.count_eq]
    simpa using List.snd_lt_of_mem_zipIdx he
  have hname (sh : Elf64Shdr) (want : CStr) :
      (∀ j ∈ strcmpInspected (s.names io) sh.name.toNat want,
          (ElfEvent.inspect .sectionNames j s.shstr.size.toNat).InBounds) ↔
        ¬s.shstrtab.drop sh.name.toNat <+: want := by
    rw [← strcmpInspected_lt_iff _ (io.beyond 1), hs.length_names]
    rfl
  simp only [forall_sectionEvents_iff, hname]
  constructor
  · intro hall sh hsh
    obtain ⟨i, hi⟩ := List.mem_iff_getElem?.mp hsh
    exact (hall (sh, i) (List.mem_zipIdx_iff_getElem?.mpr hi)).2
  · intro hends e he
    exact ⟨hindex he, hends e.1 (List.fst_mem_of_mem_zipIdx he)⟩

/-- The comparisons of symbol names stay in their table. -/
theorem inBounds_symbols_iff {io : ElfIo} {file : List UInt8} {dynsym dynstr : Elf64Shdr}
    {d : ElfDynamic} (h : (readDynamic io file dynsym dynstr).val = some d) (symbol : CStr) :
    Traced.Logs ElfEvent.InBounds
        (Traced.search (symbolEvents (d.names io) dynstr.size symbol d.count)
          (fun e => e.1.isNamed (d.names io) dynstr.size symbol) d.syms.zipIdx) ↔
      d.NamesEnd dynstr.size symbol := by
  obtain ⟨bytes, hd⟩ := readDynamic_eq_some_iff.mp h
  have hindex {e : Elf64Sym × Nat} (he : e ∈ d.syms.zipIdx) : e.2 < d.count := by
    have hlt : e.2 < (symbolCount dynsym).toNat := by
      simpa [hd.syms] using List.snd_lt_of_mem_zipIdx he
    rw [symbolCount_toNat] at hlt
    rw [hd.count, (Bytes.readFull_eq_some hd.symbols).1]
    exact hlt.trans_le (Nat.mod_le _ _)
  have hname (sym : Elf64Sym) :
      (∀ j ∈ strcmpInspected (d.names io) sym.name.toNat symbol,
          (ElfEvent.inspect .symbolNames j dynstr.size.toNat).InBounds) ↔
        ¬d.dynstrtab.drop sym.name.toNat <+: symbol := by
    rw [← strcmpInspected_lt_iff _ (io.beyond 3), (Bytes.readFull_eq_some hd.names).1]
    rfl
  have hsame (sym : Elf64Sym)
      (hends : sym.candidate dynstr.size = true → ¬d.dynstrtab.drop sym.name.toNat <+: symbol) :
      sym.isNamed (d.names io) dynstr.size symbol =
        sym.namedInside d.dynstrtab dynstr.size symbol := by
    change (sym.candidate dynstr.size && _) = (sym.candidate dynstr.size && _)
    cases hcand : sym.candidate dynstr.size with
    | false => rfl
    | true =>
        rw [Bool.true_and, Bool.true_and, Bool.eq_iff_iff, ← strcmpEq_inside_iff _ (io.beyond 3),
          and_iff_left (hends hcand)]
        rfl
  rw [Traced.logs_search, ElfDynamic.NamesEnd]
  conv_rhs => rw [← List.zipIdx_map_fst 0 d.syms, upTo_map]
  apply upTo_congr
  · intro e he
    rw [forall_symbolEvents_iff, hname]
    exact and_iff_right (hindex he)
  · intro e he hends
    exact hsame e.1 hends

/-- Every entry and every byte that the lookup uses lies in the table it was read into,
exactly when every name that is compared ends in its table or differs from the name it is
compared with. -/
theorem elf_lookup_in_bounds_iff (io : ElfIo) (file : List UInt8) (symbol : CStr) :
    Traced.Logs ElfEvent.InBounds (elfFindSymbolTraced io file symbol) ↔
      ∀ s, (readSections io file).val = some s → s.NamesEnd ∧
        ∀ dynsym, (s.picked io).1 = some dynsym → ∀ dynstr, (s.picked io).2 = some dynstr →
          ∀ d, (readDynamic io file dynsym dynstr).val = some d →
            d.NamesEnd dynstr.size symbol := by
  have hdynamic (dynsym dynstr : Elf64Shdr) :
      Traced.Logs ElfEvent.InBounds (readDynamic io file dynsym dynstr) := by
    simp [readDynamic, Traced.logs_bind, logs_readTraced, ElfEvent.InBounds]
  rw [logs_elfFindSymbolTraced (fun _ _ _ => trivial),
    and_iff_right (logs_inBounds_readSections io file)]
  refine forall_congr' fun s => imp_congr_right fun hs => ?_
  refine and_congr (inBounds_sections_iff hs) ?_
  refine forall_congr' fun dynsym => imp_congr_right fun _ =>
    forall_congr' fun dynstr => imp_congr_right fun _ => ?_
  rw [and_iff_right (hdynamic dynsym dynstr)]
  exact forall_congr' fun d => imp_congr_right fun hd => inBounds_symbols_iff hd symbol

/-- A file whose symbol names end, without a NUL, in the first part of a name. -/
def openNames : List UInt8 :=
  elfFile sectionNameTable (symbolEntry 1 4096 16) (0 :: CStr.ascii "vkQueue") 24

/-- Looking the whole name up compares on behind the end of the table. -/
theorem open_names_overrun :
    ¬Traced.Logs ElfEvent.InBounds
      (elfFindSymbolTraced (calmIo fun _ => 0) openNames (CStr.ascii "vkQueuePresentKHR")) := by
  intro h
  have hinspect : ElfEvent.inspect .symbolNames 8 8 ∈
      (elfFindSymbolTraced (calmIo fun _ => 0) openNames
        (CStr.ascii "vkQueuePresentKHR")).log := by
    decide +kernel
  exact absurd (h _ hinspect) (lt_irrefl 8)

end Anticheat
