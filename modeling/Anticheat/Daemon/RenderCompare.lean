import Anticheat.Daemon.ElfSymbol
import Anticheat.Daemon.RenderHooks

/-!
# Comparing a rendering function with its file

`compare_render_symbol` takes the value of a symbol from the dynamic symbol table
of a library, reads as many bytes as the symbol is long at that *offset of the
file*, and compares them with the bytes of the process at that distance from the
*load base*.  A loader puts the byte at `p_offset + k` of the file to the address
`base + p_vaddr + k`, so the two readings mean the same byte only where a segment
has the same offset and address.

Main results:

- Theorem {lit}`compareRenderSymbol_hooked_iff`: when the comparison answers that
  the function is hooked.
- Theorem {lit}`no_false_render_verdict_iff`: on a process whose memory is what the
  loader made of the file, when the comparison does not answer so.
-/

namespace Anticheat

open Foundation

/-! ## The code -/

/-- `AC_HOOK_CHECK_DEFAULT_BYTES` -/
def acHookCheckDefaultBytes : Nat := 32

/-- `AC_HOOK_CHECK_MIN_BYTES` -/
def acHookCheckMinBytes : Nat := 8

/-- `AC_HOOK_CHECK_MAX_BYTES` -/
def acHookCheckMaxBytes : Nat := 512

/-- How many bytes are compared for a symbol of the given size. -/
def hookCheckLen (size : UInt64) : Nat :=
  if size.toNat = 0 then acHookCheckDefaultBytes
  else if size.toNat < acHookCheckMinBytes then acHookCheckMinBytes
  else if size.toNat > acHookCheckMaxBytes then acHookCheckMaxBytes
  else size.toNat

/-- The readable memory of a process. -/
abbrev ProcImage := UInt64 → Option UInt8

/-- The bytes of a range, if all of it can be read. -/
def ProcImage.read (mem : ProcImage) : Nat → UInt64 → Option (List UInt8)
  | 0, _ => some []
  | n + 1, addr => do
      let b ← mem addr
      let rest ← ProcImage.read mem n (addr + 1)
      return b :: rest

/-- What one comparison meets: the files that the process sees, the lookup of the
symbol, and its memory. -/
structure HookIo where
  files : CStr → Option (List UInt8)
  elf : ElfIo
  readExpected : Bool
  memOpen : Bool
  readActual : Bool
  mem : ProcImage

/-- The path of a library as the process itself sees it. -/
def nsPath (pid : Int) (libpath : CStr) : CStr :=
  CStr.bounded (acVmaPath + 32)
    (CStr.ascii "/proc/" ++ CStr.decimal pid ++ CStr.ascii "/root" ++ libpath)

/-- A `pread` of the memory that has to return `n` bytes. -/
def HookIo.readMem (io : HookIo) (n : Nat) (addr : UInt64) : Option (List UInt8) :=
  if io.memOpen && io.readActual && decide (addr.toNat < 2 ^ 63) then io.mem.read n addr
  else none

/-- `compare_render_symbol` -/
def compareRenderSymbol (io : HookIo) (pid : Int) (libpath : CStr) (libBase : UInt64)
    (symbol : CStr) : HookVerdict :=
  match io.files (nsPath pid libpath) with
  | none => .inconclusive
  | some file =>
      match elfFindSymbolOffset io.elf file symbol with
      | none => .inconclusive
      | some (offset, size) =>
          let checklen := hookCheckLen size
          match Bytes.readFull io.readExpected file checklen offset with
          | none => .inconclusive
          | some expected =>
              match io.readMem checklen (libBase + offset) with
              | none => .inconclusive
              | some actual => if expected != actual then .hooked else .clean

/-! ## What a loader makes of a file -/

/-- The fields of a program header that say how a segment is mapped. -/
structure Segment where
  type : UInt32
  offset : UInt64
  vaddr : UInt64
  filesz : UInt64
deriving DecidableEq

/-- One program header. -/
def Segment.parse (b : List UInt8) : Segment where
  type := Bytes.le32 b 0
  offset := Bytes.le64 b 8
  vaddr := Bytes.le64 b 16
  filesz := Bytes.le64 b 32

/-- The `PT_LOAD` segments that a file declares. -/
def loadSegments (file : List UInt8) : List Segment :=
  let phoff := (Bytes.le64 file 32).toNat
  let phentsize := (Bytes.le16 file 54).toNat
  let phnum := (Bytes.le16 file 56).toNat
  ((Bytes.records phentsize phnum (file.drop phoff)).map Segment.parse).filter
    fun s => s.type == 1

/-- The address, relative to the load base, lies in the part of the segment that comes
from the file. -/
def Segment.Covers (s : Segment) (a : Nat) : Prop :=
  s.vaddr.toNat ≤ a ∧ a < s.vaddr.toNat + s.filesz.toNat

instance (s : Segment) (a : Nat) : Decidable (s.Covers a) :=
  inferInstanceAs (Decidable (_ ∧ _))

/-- Where in the file the byte at a relative address comes from. -/
def Segment.source (s : Segment) (a : Nat) : Nat :=
  s.offset.toNat + (a - s.vaddr.toNat)

/-- The memory holds the segment as the file has it. -/
def Segment.MappedAt (s : Segment) (file : List UInt8) (base : UInt64) (mem : ProcImage) :
    Prop :=
  ∀ k < s.filesz.toNat, mem (base + (s.vaddr + UInt64.ofNat k)) = file[s.offset.toNat + k]?

/-- A symbol lies in a segment. -/
def Segment.HoldsSymbol (s : Segment) (value size : UInt64) : Prop :=
  s.Covers value.toNat ∧ value.toNat + size.toNat ≤ s.vaddr.toNat + s.filesz.toNat

/-- A library whose segments are mapped at a base as the loader maps them, with the
symbol that is looked up in one of them. -/
structure FaithfullyLoaded (io : HookIo) (pid : Int) (libpath : CStr) (base : UInt64)
    (symbol : CStr) (file : List UInt8) (value size : UInt64) : Prop where
  opens : io.files (nsPath pid libpath) = some file
  finds : elfFindSymbolOffset io.elf file symbol = some (value, size)
  mapped : ∀ s ∈ loadSegments file, s.MappedAt file base io.mem
  symbol_in : ∃ s ∈ loadSegments file, s.HoldsSymbol value size

/-- On a library as the loader mapped it, the comparison does not answer that the
function is hooked. -/
def NoFalseVerdict (io : HookIo) (pid : Int) (libpath : CStr) (base : UInt64)
    (symbol : CStr) : Prop :=
  ∀ file value size, FaithfullyLoaded io pid libpath base symbol file value size →
    compareRenderSymbol io pid libpath base symbol ≠ .hooked

/-- Where the compared range can be read, in the file and in the memory, every byte of
it is the same in the file at its address as at the place that its segment comes from.
A byte outside all segments is the same in the file and in the memory. -/
def WindowAgrees (io : HookIo) (pid : Int) (libpath : CStr) (base : UInt64)
    (symbol : CStr) : Prop :=
  ∀ file value size, FaithfullyLoaded io pid libpath base symbol file value size →
    (Bytes.readFull io.readExpected file (hookCheckLen size) value).isSome →
    (io.readMem (hookCheckLen size) (base + value)).isSome →
    ∀ k < hookCheckLen size,
      (∀ s ∈ loadSegments file, s.Covers (value.toNat + k) →
        file[value.toNat + k]? = file[s.source (value.toNat + k)]?) ∧
      ((∀ s ∈ loadSegments file, ¬s.Covers (value.toNat + k)) →
        file[value.toNat + k]? = io.mem (base + value + UInt64.ofNat k))

/-! ## The two readings -/

theorem ProcImage.read_eq_some {mem : ProcImage} {n : Nat} {addr : UInt64}
    {bytes : List UInt8} (h : mem.read n addr = some bytes) :
    bytes.length = n ∧ ∀ k < n, bytes[k]? = mem (addr + UInt64.ofNat k) := by
  induction n generalizing addr bytes with
  | zero =>
      cases h
      exact ⟨rfl, fun k hk => absurd hk (Nat.not_lt_zero k)⟩
  | succ n ih =>
      simp only [ProcImage.read, Option.bind_eq_bind, Option.bind_eq_some_iff,
        Option.pure_def, Option.some.injEq] at h
      rcases h with ⟨b, hb, rest, hrest, rfl⟩
      rcases ih hrest with ⟨hlen, hbytes⟩
      refine ⟨by rw [List.length_cons, hlen], ?_⟩
      intro k hk
      cases k with
      | zero => simp [hb]
      | succ k =>
          rw [List.getElem?_cons_succ, hbytes k (by omega), UInt64.add_assoc]
          congr 2
          rw [UInt64.ofNat_add, UInt64.add_comm]
          rfl

theorem HookIo.readMem_eq_some {io : HookIo} {n : Nat} {addr : UInt64} {bytes : List UInt8}
    (h : io.readMem n addr = some bytes) :
    bytes.length = n ∧ ∀ k < n, bytes[k]? = io.mem (addr + UInt64.ofNat k) := by
  unfold HookIo.readMem at h
  rw [Option.ite_none_right_eq_some] at h
  exact ProcImage.read_eq_some h.2

/-- The comparison answers that the function is hooked exactly when both ranges can be
read and differ in some byte. -/
theorem compareRenderSymbol_hooked_iff {io : HookIo} {pid : Int} {libpath : CStr}
    {base : UInt64} {symbol : CStr} {file : List UInt8} {value size : UInt64}
    (hopen : io.files (nsPath pid libpath) = some file)
    (hfind : elfFindSymbolOffset io.elf file symbol = some (value, size)) :
    compareRenderSymbol io pid libpath base symbol = .hooked ↔
      (Bytes.readFull io.readExpected file (hookCheckLen size) value).isSome ∧
      (io.readMem (hookCheckLen size) (base + value)).isSome ∧
      ∃ k < hookCheckLen size,
        file[value.toNat + k]? ≠ io.mem (base + value + UInt64.ofNat k) := by
  unfold compareRenderSymbol
  simp only [hopen, hfind]
  cases hexp : Bytes.readFull io.readExpected file (hookCheckLen size) value with
  | none => simp
  | some expected =>
      cases hact : io.readMem (hookCheckLen size) (base + value) with
      | none => simp
      | some actual =>
          rcases Bytes.readFull_eq_some hexp with ⟨hlen, hfile⟩
          rcases HookIo.readMem_eq_some hact with ⟨hlen', hmem⟩
          have hdiffer : expected ≠ actual ↔ ∃ k < hookCheckLen size,
              file[value.toNat + k]? ≠ io.mem (base + value + UInt64.ofNat k) := by
            rw [not_iff_comm]
            push Not
            constructor
            · intro hsame
              apply List.ext_getElem?
              intro k
              by_cases hk : k < hookCheckLen size
              · rw [hfile k hk, hmem k hk]
                exact hsame k hk
              · rw [List.getElem?_eq_none (by omega), List.getElem?_eq_none (by omega)]
            · rintro rfl k hk
              rw [← hfile k hk, hmem k hk]
          simp only [Option.isSome_some, true_and, ← hdiffer]
          by_cases heq : expected = actual
          · simp [heq]
          · simp [heq]

/-- A byte that a segment covers is mapped from the segment's place in the file. -/
theorem Segment.MappedAt.covered {s : Segment} {file : List UInt8} {base : UInt64}
    {mem : ProcImage} (h : s.MappedAt file base mem) {value : UInt64} {k : Nat}
    (hcov : s.Covers (value.toNat + k)) :
    mem (base + value + UInt64.ofNat k) = file[s.source (value.toNat + k)]? := by
  rcases hcov with ⟨hlo, hhi⟩
  have hbyte := h (value.toNat + k - s.vaddr.toNat) (by omega)
  rw [Segment.source, ← hbyte]
  congr 1
  rw [UInt64.add_assoc]
  congr 1
  apply UInt64.toNat_inj.mp
  simp only [UInt64.toNat_add, UInt64.toNat_ofNat']
  rw [Nat.add_mod_mod, Nat.add_mod_mod]
  congr 1
  omega

/-- For every process, library, load base and symbol: on a library as the loader mapped
it the comparison never answers that the function is hooked, exactly when the file has
the same bytes at the addresses of the compared range as at the places they are mapped
from. -/
theorem no_false_render_verdict_iff (io : HookIo) (pid : Int) (libpath : CStr)
    (base : UInt64) (symbol : CStr) :
    NoFalseVerdict io pid libpath base symbol ↔ WindowAgrees io pid libpath base symbol := by
  refine forall_congr' fun file => forall_congr' fun value => forall_congr' fun size =>
    forall_congr' fun hload => ?_
  rw [Ne, compareRenderSymbol_hooked_iff hload.opens hload.finds]
  push Not
  refine forall_congr' fun _ => forall_congr' fun _ => forall_congr' fun k =>
    forall_congr' fun _ => ?_
  constructor
  · intro hsame
    refine ⟨?_, fun _ => hsame⟩
    intro s hs hcov
    rw [hsame]
    exact (hload.mapped s hs).covered hcov
  · rintro ⟨hin, hout⟩
    by_cases hcov : ∃ s ∈ loadSegments file, s.Covers (value.toNat + k)
    · rcases hcov with ⟨s, hs, hcov⟩
      rw [hin s hs hcov]
      exact ((hload.mapped s hs).covered hcov).symm
    · push Not at hcov
      exact hout hcov

/-! ## A library whose code is mapped one page further -/

/-- The code of the library: sixteen bytes at offset 464 of the file. -/
def presentCode : List UInt8 :=
  [0x55, 0x48, 0x89, 0xe5, 0x31, 0xc0, 0x5d, 0xc3, 0x90, 0x90, 0x90, 0x90, 0x90, 0x90, 0x90, 0x90]

/-- A library with one segment, at offset 464 of the file and at address 4560, and with
the symbol `glXSwapBuffers` at the start of that segment. -/
def shiftedLib : List UInt8 :=
  -- the header: program headers at 64, section headers at 120, names in section 3
  [0x7f, 0x45, 0x4c, 0x46, 2, 1, 1, 0, 0, 0, 0, 0, 0, 0, 0, 0] ++ leBytes 2 3 ++
    leBytes 2 62 ++ leBytes 4 1 ++ leBytes 8 0 ++ leBytes 8 64 ++ leBytes 8 120 ++
    leBytes 4 0 ++ leBytes 2 64 ++ leBytes 2 56 ++ leBytes 2 1 ++ leBytes 2 64 ++
    leBytes 2 4 ++ leBytes 2 3 ++
  -- the program header
  leBytes 4 1 ++ leBytes 4 5 ++ leBytes 8 464 ++ leBytes 8 4560 ++ leBytes 8 4560 ++
    leBytes 8 16 ++ leBytes 8 16 ++ leBytes 8 4096 ++
  -- the section headers, their names, the symbols and their names
  sectionHeader 0 0 0 0 0 ++ sectionHeader 1 11 393 48 24 ++ sectionHeader 9 3 441 16 0 ++
    sectionHeader 0 3 376 17 0 ++
  0 :: CStr.ascii ".dynsym" ++ 0 :: CStr.ascii ".dynstr" ++ [0] ++
  leBytes 24 0 ++ leBytes 4 1 ++ leBytes 4 18 ++ leBytes 8 4560 ++ leBytes 8 16 ++
  0 :: CStr.ascii "glXSwapBuffers" ++ [0] ++
  List.replicate 7 0 ++ presentCode ++ List.replicate 4096 0

/-- Where the library is loaded. -/
def shiftedBase : UInt64 := 0x7f0000000000

/-- The process sees the library at its path, and its memory holds the segment and
nothing else. -/
def shiftedIo : HookIo where
  files := fun _ => some shiftedLib
  elf := { reads := fun _ => true, allocs := fun _ => true, beyond := fun _ _ => 0 }
  readExpected := true
  memOpen := true
  readActual := true
  mem := fun a => presentCode[(a - (shiftedBase + 4560)).toNat]?

theorem loadSegments_shiftedLib :
    loadSegments shiftedLib = [{ type := 1, offset := 464, vaddr := 4560, filesz := 16 }] := by
  decide +kernel

/-- The library is mapped as its file says. -/
theorem shiftedLib_faithfullyLoaded :
    FaithfullyLoaded shiftedIo 9 (CStr.ascii "/usr/lib/libGL.so.1") shiftedBase
      (CStr.ascii "glXSwapBuffers") shiftedLib 4560 16 where
  opens := rfl
  finds := by decide +kernel
  mapped := by
    have hcode : ∀ k < 16, presentCode[k]? = shiftedLib[464 + k]? := by decide +kernel
    have haddr : ∀ k < 16,
        (shiftedBase + (4560 + UInt64.ofNat k) - (shiftedBase + 4560)).toNat = k := by decide
    intro s hs k hk
    rw [loadSegments_shiftedLib, List.mem_singleton] at hs
    subst s
    simp only [shiftedIo]
    rw [haddr k hk]
    exact hcode k hk
  symbol_in := by
    rw [loadSegments_shiftedLib]
    exact ⟨_, List.mem_singleton_self _, by decide, by decide⟩

/-- The bytes at offset 4560 of the file are not the function, and an untouched process
is reported as hooked. -/
theorem shifted_segment_reported_hooked :
    ¬NoFalseVerdict shiftedIo 9 (CStr.ascii "/usr/lib/libGL.so.1") shiftedBase
      (CStr.ascii "glXSwapBuffers") := by
  intro h
  exact h _ _ _ shiftedLib_faithfullyLoaded (by decide +kernel)

end Anticheat
