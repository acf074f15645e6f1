import Anticheat.Foundation.Bytes
import Anticheat.Foundation.CText

/-!
# Looking a symbol up in an ELF file

`elf_find_symbol_offset` reads the section headers of a file with plain reads,
finds the dynamic symbol table and its string table by name, and returns the
value and the size of a symbol.  The file is not trusted: every count and size it
declares is checked against a cap.

The buffers come from `malloc`.  The names are compared with `strcmp`, which goes
on until it meets a difference or a NUL, so what follows a buffer in memory is part
of the model.
-/

namespace Anticheat

open Foundation

/-! ## Layout -/

/-- The fields of `Elf64_Ehdr` that are read. -/
structure Elf64Ehdr where
  ident : List UInt8
  shoff : UInt64
  shentsize : UInt16
  shnum : UInt16
  shstrndx : UInt16

def Elf64Ehdr.size : Nat := 64

def Elf64Ehdr.parse (b : List UInt8) : Elf64Ehdr where
  ident := b.take 16
  shoff := Bytes.le64 b 40
  shentsize := Bytes.le16 b 58
  shnum := Bytes.le16 b 60
  shstrndx := Bytes.le16 b 62

/-- The fields of `Elf64_Shdr` that are read. -/
structure Elf64Shdr where
  name : UInt32
  type : UInt32
  offset : UInt64
  size : UInt64
  entsize : UInt64
deriving DecidableEq

def Elf64Shdr.bytes : Nat := 64

def Elf64Shdr.parse (b : List UInt8) : Elf64Shdr where
  name := Bytes.le32 b 0
  type := Bytes.le32 b 4
  offset := Bytes.le64 b 24
  size := Bytes.le64 b 32
  entsize := Bytes.le64 b 56

/-- The fields of `Elf64_Sym` that are read. -/
structure Elf64Sym where
  name : UInt32
  value : UInt64
  size : UInt64

def Elf64Sym.bytes : Nat := 24

def Elf64Sym.parse (b : List UInt8) : Elf64Sym where
  name := Bytes.le32 b 0
  value := Bytes.le64 b 8
  size := Bytes.le64 b 16

/-- `SHT_STRTAB` -/
def shtStrtab : UInt32 := 3

/-- `SHT_DYNSYM` -/
def shtDynsym : UInt32 := 11

/-- `AC_ELF_MAX_SHNUM` -/
def acElfMaxShnum : UInt16 := 2048

/-- `AC_ELF_MAX_STRTAB` -/
def acElfMaxStrtab : UInt64 := 4 * 1024 * 1024

/-- `AC_ELF_MAX_SYMS` -/
def acElfMaxSyms : UInt32 := 500000

/-! ## The environment of one lookup -/

/-- What one lookup meets: which reads are complete, which allocations succeed, and
what follows each buffer in memory. -/
structure ElfIo where
  reads : Nat → Bool
  allocs : Nat → Bool
  beyond : Nat → Nat → UInt8

/-- `malloc`, which refuses sizes that are negative as signed numbers. -/
def malloc (ok : Bool) (n : Nat) : Bool :=
  ok && decide (n < 2 ^ 63)

/-- A buffer with what follows it. -/
def heapAt (buf : List UInt8) (beyond : Nat → UInt8) (i : Nat) : UInt8 :=
  buf.getD i (beyond i)

/-- The comparison `strcmp(mem + i, s) == 0`. -/
def strcmpEq (mem : Nat → UInt8) : Nat → CStr → Bool
  | i, [] => mem i == 0
  | i, c :: s => mem i == c && strcmpEq mem (i + 1) s

/-! ## The lookup -/

/-- The tests of the header. -/
def Elf64Ehdr.accepted (eh : Elf64Ehdr) : Bool :=
  eh.ident.take 4 == [0x7f, 0x45, 0x4c, 0x46] && eh.ident[4]? == some 2 &&
    eh.ident[5]? == some 1 &&
    !(eh.shentsize.toNat != Elf64Shdr.bytes || eh.shnum == 0 || eh.shnum > acElfMaxShnum ||
      eh.shstrndx ≥ eh.shnum)

/-- The loop over the section headers: the last section with the type and the name of
each of the two tables. -/
def findSections (names : Nat → UInt8) (namesSize : UInt64) (shdrs : List Elf64Shdr) :
    Option Elf64Shdr × Option Elf64Shdr :=
  shdrs.foldl (fun found sh =>
    if sh.name.toUInt64 ≥ namesSize then found
    else if sh.type == shtDynsym &&
        strcmpEq names sh.name.toNat (CStr.ascii ".dynsym") then
      (some sh, found.2)
    else if sh.type == shtStrtab &&
        strcmpEq names sh.name.toNat (CStr.ascii ".dynstr") then
      (found.1, some sh)
    else found) (none, none)

/-- The test of the loop over the symbols. -/
def Elf64Sym.isNamed (names : Nat → UInt8) (namesSize : UInt64) (symbol : CStr)
    (sym : Elf64Sym) : Bool :=
  !(sym.name == 0 || sym.name.toUInt64 ≥ namesSize || sym.value == 0) &&
    strcmpEq names sym.name.toNat symbol

/-- The second half of the lookup: the symbol in the two tables. -/
def findInDynsym (io : ElfIo) (file : List UInt8) (symbol : CStr)
    (dynsym dynstr : Elf64Shdr) : Option (UInt64 × UInt64) := do
  guard !(dynsym.entsize.toNat != Elf64Sym.bytes || dynstr.size == 0 ||
    dynstr.size > acElfMaxStrtab)
  let nsyms := (dynsym.size / UInt64.ofNat Elf64Sym.bytes).toUInt32
  guard !(nsyms == 0 || nsyms > acElfMaxSyms)
  guard (malloc (io.allocs 2) dynsym.size.toNat && malloc (io.allocs 3) dynstr.size.toNat)
  let syms ← Bytes.readFull (io.reads 3) file dynsym.size.toNat dynsym.offset
  let dynstrtab ← Bytes.readFull (io.reads 4) file dynstr.size.toNat dynstr.offset
  let sym ← ((Bytes.records Elf64Sym.bytes nsyms.toNat syms).map Elf64Sym.parse).find?
    (Elf64Sym.isNamed (heapAt dynstrtab (io.beyond 3)) dynstr.size symbol)
  return (sym.value, sym.size)

/-- `elf_find_symbol_offset`: the value and the size of the symbol, or `none` for
-1. -/
def elfFindSymbolOffset (io : ElfIo) (file : List UInt8) (symbol : CStr) :
    Option (UInt64 × UInt64) := do
  let eh := Elf64Ehdr.parse (← Bytes.readFull (io.reads 0) file Elf64Ehdr.size 0)
  guard eh.accepted
  let tableSize := eh.shnum.toNat * Elf64Shdr.bytes
  guard (malloc (io.allocs 0) tableSize)
  let table ← Bytes.readFull (io.reads 1) file tableSize eh.shoff
  let shdrs := (Bytes.records Elf64Shdr.bytes eh.shnum.toNat table).map Elf64Shdr.parse
  let shstr ← shdrs[eh.shstrndx.toNat]?
  guard !(shstr.size == 0 || shstr.size > acElfMaxStrtab)
  guard (malloc (io.allocs 1) shstr.size.toNat)
  let shstrtab ← Bytes.readFull (io.reads 2) file shstr.size.toNat shstr.offset
  let (dynsym, dynstr) := findSections (heapAt shstrtab (io.beyond 1)) shstr.size shdrs
  findInDynsym io file symbol (← dynsym) (← dynstr)

/-! ## Files for the lookup -/

/-- The little-endian bytes of a number. -/
def leBytes (n v : Nat) : List UInt8 :=
  (List.range n).map fun i => UInt8.ofNat (v / 256 ^ i)

/-- A section header with the given name, type, offset, size and entry size. -/
def sectionHeader (name type offset size entsize : Nat) : List UInt8 :=
  leBytes 4 name ++ leBytes 4 type ++ leBytes 8 0 ++ leBytes 8 0 ++ leBytes 8 offset ++
    leBytes 8 size ++ leBytes 4 0 ++ leBytes 4 0 ++ leBytes 8 0 ++ leBytes 8 entsize

/-- A file with a section of symbols, one of their names and one of the section names
behind the four section headers.  The first is declared with `symsSize` bytes. -/
def elfFile (names syms strs : List UInt8) (symsSize : Nat) : List UInt8 :=
  [0x7f, 0x45, 0x4c, 0x46, 2, 1, 1, 0, 0, 0, 0, 0, 0, 0, 0, 0] ++ leBytes 2 3 ++
    leBytes 2 62 ++ leBytes 4 1 ++ leBytes 8 0 ++ leBytes 8 0 ++ leBytes 8 64 ++
    leBytes 4 0 ++ leBytes 2 64 ++ leBytes 2 56 ++ leBytes 2 0 ++ leBytes 2 64 ++
    leBytes 2 4 ++ leBytes 2 3 ++
  sectionHeader 0 0 0 0 0 ++ sectionHeader 1 11 (320 + names.length) symsSize 24 ++
    sectionHeader 9 3 (320 + names.length + syms.length) strs.length 0 ++
    sectionHeader 0 3 320 names.length 0 ++
  names ++ syms ++ strs

/-- The section names that the headers of the file refer to. -/
def sectionNameTable : List UInt8 :=
  0 :: CStr.ascii ".dynsym" ++ 0 :: CStr.ascii ".dynstr" ++ [0]

/-- A symbol with the name at an offset, a value and a size. -/
def symbolEntry (name value size : Nat) : List UInt8 :=
  leBytes 4 name ++ leBytes 4 18 ++ leBytes 8 value ++ leBytes 8 size

/-- A lookup in which every read and every allocation succeeds; `beyond` follows each
buffer. -/
def calmIo (beyond : Nat → UInt8) : ElfIo where
  reads := fun _ => true
  allocs := fun _ => true
  beyond := fun _ => beyond

end Anticheat
