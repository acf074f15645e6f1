import Anticheat.Kernel.Snapshot

/-!
# The check of the system call table

`ac_check_syscalls` reads the table entry by entry and counts the entries that do
not point into the text of the core kernel.  The bounds of that text are found when
the module is loaded; where they are not known, an entry is compared with a handler
that is.

The memory of the kernel is a function from addresses to words that may fault, and
each classification of an entry makes its own walk over the module list.

Main results:

- Theorem {lit}`acCheckSyscalls_ok`: what a check of a table that was found counts
  and reports.
-/

namespace Anticheat

open Foundation

/-- What module load leaves in the statics that the check reads: the address of the
table, the bounds of the core text and the known handler, each of them zero if it was
not found, and `__NR_syscalls`. -/
structure SyscallStatics where
  acSyscallTable : UInt64
  acStext : UInt64
  acTextEnd : UInt64
  acAnchor : UInt64
  nrSyscalls : Nat
deriving DecidableEq

/-- A module as the classification of an address reads it: the fields that the walk
reads, and the bases of its core regions. -/
structure LoadedModule extends KModule where
  coreBases : List UInt64
deriving DecidableEq

/-- `within_module_core` -/
def withinModuleCore (addr : UInt64) (m : LoadedModule) : Bool :=
  (m.coreBases.zip m.coreSizes).any fun region => addr - region.1 < region.2

/-- `ac_addr_in_module`, where `walk` is what the walk over the module list reads. -/
def acAddrInModule (walk : List LoadedModule) (addr : UInt64) : Bool :=
  walk.any fun m => acModuleSane m.toKModule && withinModuleCore addr m

/-- `ac_in_core_text` -/
def acInCoreText (sys : SyscallStatics) (walk : List LoadedModule) (addr : UInt64) : Bool :=
  if sys.acStext == 0 || sys.acTextEnd == 0 then false
  else if addr < sys.acStext || addr ≥ sys.acTextEnd then false
  else if acAddrInModule walk addr then false
  else true

/-- `ac_plausible_handler` -/
def acPlausibleHandler (walk : List LoadedModule) (e anchor : UInt64) : Bool :=
  if e == 0 then false
  else if acAddrInModule walk e then false
  else e > anchor - 0x4000000 && e < anchor + 0x4000000

/-- `ac_entry_bad` -/
def acEntryBad (sys : SyscallStatics) (walk : List LoadedModule) (e : UInt64) : Bool :=
  if sys.acStext != 0 && sys.acTextEnd != 0 then !acInCoreText sys walk e
  else !acPlausibleHandler walk e sys.acAnchor

/-- What one check meets: the readable words of the kernel's memory, and the module
list at the classification of each entry. -/
structure SyscallEnv where
  kread : UInt64 → Option UInt64
  walks : Nat → List LoadedModule

/-- The event for an entry that does not point into the core text. -/
def hookEvent (i : Nat) (e : UInt64) : EmitCall where
  type := .syscallHook
  pid := 0
  comm := some (CStr.ascii "?")
  data := CStr.ascii "syscall[" ++ CStr.digits 10 i ++ CStr.ascii "] -> 0x" ++
    CStr.hex e.toNat ++ CStr.ascii " outside core kernel text"

/-- The entry that the loop sees at an index: it can be read and is not NULL. -/
def syscallEntry (sys : SyscallStatics) (env : SyscallEnv) (i : Nat) : Option UInt64 :=
  (env.kread (sys.acSyscallTable + UInt64.ofNat (i * 8))).filter (· != 0)

/-- The loop over the entries from index `i` on, `fuel` of them. -/
def checkLoop (sys : SyscallStatics) (env : SyscallEnv) :
    Nat → Nat → AcSyscallCheck → AcSyscallCheck × List EmitCall
  | 0, _, out => (out, [])
  | fuel + 1, i, out =>
      match syscallEntry sys env i with
      | none => checkLoop sys env fuel (i + 1) out
      | some e =>
          let out := { out with total := out.total + 1 }
          if acEntryBad sys (env.walks i) e then
            let (out, later) := checkLoop sys env fuel (i + 1)
              { out with nonText := out.nonText + 1, hooked := out.hooked + 1 }
            (out, hookEvent i e :: later)
          else checkLoop sys env fuel (i + 1) out

/-- `ac_check_syscalls`, which clears the record first. -/
def acCheckSyscalls (sys : SyscallStatics) (env : SyscallEnv) :
    Except Errno Unit × AcSyscallCheck × List EmitCall :=
  let out : AcSyscallCheck := {}
  let out := { out with tableAddr := sys.acSyscallTable }
  if sys.acSyscallTable == 0 then
    (.error .ENODEV, out, [])
  else
    let (out, emitted) := checkLoop sys env sys.nrSyscalls 0
      { out with nrSyscalls := sys.nrSyscalls }
    (.ok (), { out with ok := out.hooked == 0 }, emitted)

/-! ## What a check counts -/

/-- The entry at an index is classified as bad. -/
def badEntry (sys : SyscallStatics) (env : SyscallEnv) (i : Nat) : Bool :=
  (syscallEntry sys env i).any (acEntryBad sys (env.walks i))

/-- The loop counts the entries that it sees and the bad ones among them, and emits
one event for each bad one. -/
theorem checkLoop_spec (sys : SyscallStatics) (env : SyscallEnv) (fuel i : Nat)
    (out : AcSyscallCheck) :
    ∃ emitted, checkLoop sys env fuel i out =
        ({ out with
          total := out.total +
            (List.range' i fuel).countP fun j => (syscallEntry sys env j).isSome
          nonText := out.nonText + (List.range' i fuel).countP (badEntry sys env)
          hooked := out.hooked + (List.range' i fuel).countP (badEntry sys env) }, emitted) ∧
      emitted.length = (List.range' i fuel).countP (badEntry sys env) := by
  induction fuel generalizing i out with
  | zero => exact ⟨[], rfl, rfl⟩
  | succ fuel ih =>
      rw [List.range'_succ, List.countP_cons, List.countP_cons]
      cases hentry : syscallEntry sys env i with
      | none =>
          rcases ih (i + 1) out with ⟨emitted, hrun, hlen⟩
          refine ⟨emitted, ?_, ?_⟩
          · simp [checkLoop, hentry, hrun, badEntry]
          · simp [hlen, badEntry, hentry]
      | some e =>
          cases hbad : acEntryBad sys (env.walks i) e with
          | false =>
              rcases ih (i + 1) { out with total := out.total + 1 } with ⟨emitted, hrun, hlen⟩
              refine ⟨emitted, ?_, ?_⟩
              · simp [checkLoop, hentry, hbad, hrun, badEntry]
                omega
              · simp [hlen, badEntry, hentry, hbad]
          | true =>
              rcases ih (i + 1) { out with
                total := out.total + 1, nonText := out.nonText + 1, hooked := out.hooked + 1 }
                with ⟨emitted, hrun, hlen⟩
              refine ⟨hookEvent i e :: emitted, ?_, ?_⟩
              · simp [checkLoop, hentry, hbad, hrun, badEntry]
                omega
              · simp [hlen, badEntry, hentry, hbad]

/-- A check of a table that was found succeeds; it reports the number of bad entries
twice, emits an event for each of them, and is content exactly if there is none. -/
theorem acCheckSyscalls_ok {sys : SyscallStatics} (hsys : sys.acSyscallTable ≠ 0)
    (env : SyscallEnv) :
    ∃ out emitted, acCheckSyscalls sys env = (.ok (), out, emitted) ∧
      out.nrSyscalls = sys.nrSyscalls ∧ out.nonText = out.hooked ∧
      out.hooked = (List.range sys.nrSyscalls).countP (badEntry sys env) ∧
      emitted.length = out.hooked ∧
      (out.ok = true ↔ ∀ i < sys.nrSyscalls, badEntry sys env i = false) := by
  rcases checkLoop_spec sys env sys.nrSyscalls 0
    { tableAddr := sys.acSyscallTable, nrSyscalls := sys.nrSyscalls } with ⟨emitted, hrun, hlen⟩
  rw [← List.range_eq_range'] at hrun hlen
  have hcheck : acCheckSyscalls sys env = (.ok (), {
      tableAddr := sys.acSyscallTable
      nrSyscalls := sys.nrSyscalls
      total := (List.range sys.nrSyscalls).countP fun j => (syscallEntry sys env j).isSome
      nonText := (List.range sys.nrSyscalls).countP (badEntry sys env)
      hooked := (List.range sys.nrSyscalls).countP (badEntry sys env)
      ok := (List.range sys.nrSyscalls).countP (badEntry sys env) == 0 }, emitted) := by
    simp only [Nat.zero_add] at hrun
    simp [acCheckSyscalls, hsys, hrun]
  refine ⟨_, _, hcheck, rfl, rfl, rfl, hlen, ?_⟩
  simp [List.countP_eq_zero]

end Anticheat
