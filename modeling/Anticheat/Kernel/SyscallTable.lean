import Anticheat.Foundation.GuardedScan
import Anticheat.Kernel.SyscallCheck

/-!
# Finding the system call table

When the module is loaded, it looks for the table of system calls in the kernel's memory.
It knows the addresses of two handlers, and searches two windows for a word that holds
the first one, is followed by the second one, and begins a table most of whose entries
are plausible handlers.  From the entries of the table it derives the bounds of the
kernel's text, if the symbols that mark them could not be resolved.

A word that cannot be read is skipped.  The memory and the list of modules are those at
load time and do not change during the search.

Main results:

- Theorem {lit}`tableAt_iff`: what the body of both loops looks for.
- Theorem {lit}`syscall_table_found_exactly`: the search finds the first table in the
  forward window, or else the highest one in the backward window, or else nothing.
-/

namespace Anticheat

open Foundation

/-! ## What module load reads -/

/-- The symbols that are resolved through kprobes. -/
inductive KernelSymbol where
  /-- `_stext` -/
  | stext
  /-- `_text` -/
  | text
  /-- `_etext` -/
  | etext
  /-- `_sinittext` -/
  | sinittext
  /-- `__x64_sys_read` -/
  | x64SysRead
  /-- `__x64_sys_write` -/
  | x64SysWrite
deriving DecidableEq, Repr

/-- The kernel at load time: where `ac_lookup` finds a symbol, or zero; the words that
`ac_kread` reads, of eight and of four bytes; and what a walk over the module list
reads. -/
structure KernelImage where
  acLookup : KernelSymbol → UInt64
  kread : UInt64 → Option UInt64
  kread32 : UInt64 → Option UInt32
  walk : List LoadedModule
  nrSyscalls : Nat

/-- The statics that the search reads and writes. -/
structure TextStatics where
  acStext : UInt64 := 0
  acEtext : UInt64 := 0
  acTextEnd : UInt64 := 0
  acAnchor : UInt64 := 0
deriving DecidableEq

/-- `ac_normalize_func`: steps back over an `endbr64` right before the address -/
def acNormalizeFunc (img : KernelImage) (addr : UInt64) : UInt64 :=
  if addr == 0 then 0
  else if img.kread32 (addr - 4) == some 0xfa1e0ff3 then addr - 4
  else addr

/-- `ac_resolve_text_bounds` -/
def acResolveTextBounds (img : KernelImage) (st : TextStatics) : TextStatics :=
  let acStext := img.acLookup .stext
  let acStext := if acStext == 0 then img.acLookup .text else acStext
  let acEtext := img.acLookup .etext
  let acEtext := if acEtext == 0 then img.acLookup .sinittext else acEtext
  { st with
    acStext := acStext
    acEtext := acEtext
    acTextEnd :=
      if acEtext != 0 then acEtext
      else if acStext != 0 then acStext + 0x20000000
      else st.acTextEnd }

/-! ## Tables -/

/-- The word at an index of a table. -/
def KernelImage.entry (img : KernelImage) (base : UInt64) (i : Nat) : Option UInt64 :=
  img.kread (base + UInt64.ofNat (i * 8))

/-- The number of plausible handlers that a table needs. -/
def minHandlers : Nat := 400

/-- The loop of `ac_table_plausible` from index `i` on, `fuel` entries. -/
def plausibleLoop (img : KernelImage) (base anchor : UInt64) : Nat → Nat → Nat → Bool
  | 0, _, valid => valid ≥ minHandlers
  | fuel + 1, i, valid =>
      match img.entry base i with
      | none => plausibleLoop img base anchor fuel (i + 1) valid
      | some e =>
          if e == 0 then plausibleLoop img base anchor fuel (i + 1) valid
          else if acPlausibleHandler img.walk e anchor then
            if valid + 1 ≥ minHandlers then true
            else plausibleLoop img base anchor fuel (i + 1) (valid + 1)
          else plausibleLoop img base anchor fuel (i + 1) valid

/-- `ac_table_plausible` -/
def acTablePlausible (img : KernelImage) (base anchor : UInt64) : Bool :=
  plausibleLoop img base anchor img.nrSyscalls 0 0

/-- The loop of `ac_derive_bounds` from index `i` on, `fuel` entries: the least and the
greatest plausible entry, zero if there was none yet. -/
def deriveLoop (img : KernelImage) (base anchor : UInt64) :
    Nat → Nat → UInt64 → UInt64 → UInt64 × UInt64
  | 0, _, lo, hi => (lo, hi)
  | fuel + 1, i, lo, hi =>
      match img.entry base i with
      | none => deriveLoop img base anchor fuel (i + 1) lo hi
      | some e =>
          if !acPlausibleHandler img.walk e anchor then
            deriveLoop img base anchor fuel (i + 1) lo hi
          else
            deriveLoop img base anchor fuel (i + 1) (if lo == 0 || e < lo then e else lo)
              (if e > hi then e else hi)

/-- `ac_derive_bounds` -/
def acDeriveBounds (img : KernelImage) (base anchor : UInt64) (st : TextStatics) :
    TextStatics :=
  let (lo, hi) := deriveLoop img base anchor img.nrSyscalls 0 0 0
  if lo != 0 && hi != 0 then
    { st with
      acStext := if st.acStext == 0 then lo &&& ~~~0x1FFFFF else st.acStext
      acTextEnd := if st.acTextEnd == 0 then (hi + 0x1FFFFF) &&& ~~~0x1FFFFF else st.acTextEnd }
  else st

/-! ## The search -/

/-- `__NR_read` and `__NR_write` -/
def nrRead : Nat := 0

def nrWrite : Nat := 1

/-- The size of a window. -/
def windowBytes : UInt64 := 0x2000000

/-- The most steps that a window can take. -/
def windowSteps : Nat := 0x400000

/-- The body of both loops: the word at an address is the read handler of a table. -/
def tableAt (img : KernelImage) (rh wh addr : UInt64) : Bool :=
  match img.kread addr with
  | none => false
  | some v1 =>
      if v1 != rh then false
      else
        let base := addr - UInt64.ofNat (nrRead * 8)
        match img.entry base nrWrite with
        | none => false
        | some v2 => v2 == wh && acTablePlausible img base rh

/-- The conditions of the two loops. -/
def forwardGuard (lo addr : UInt64) : Bool :=
  addr < lo + windowBytes

def backwardGuard (rh addr : UInt64) : Bool :=
  addr > rh - windowBytes

/-- The loop over the primary window, from the end of the text forward. -/
def forwardScan (img : KernelImage) (rh wh lo : UInt64) : Option UInt64 :=
  GuardedScan.scan (forwardGuard lo) (tableAt img rh wh) (· + 8) (windowSteps + 1) lo

/-- The loop backward from the read handler. -/
def backwardScan (img : KernelImage) (rh wh : UInt64) : Option UInt64 :=
  GuardedScan.scan (backwardGuard rh) (tableAt img rh wh) (· - 8) (windowSteps + 1) rh

/-- Where the primary window begins. -/
def scanStart (st : TextStatics) (rh : UInt64) : UInt64 :=
  if st.acEtext != 0 then st.acEtext else if st.acStext != 0 then st.acStext else rh

/-- What both loops do with a table that they found. -/
def foundTable (img : KernelImage) (rh addr : UInt64) (st : TextStatics) :
    UInt64 × TextStatics :=
  let base := addr - UInt64.ofNat (nrRead * 8)
  (base, acDeriveBounds img base rh { st with acAnchor := rh })

/-- `ac_find_syscall_table` -/
def acFindSyscallTable (img : KernelImage) (st : TextStatics) : UInt64 × TextStatics :=
  let rh := acNormalizeFunc img (img.acLookup .x64SysRead)
  let wh := acNormalizeFunc img (img.acLookup .x64SysWrite)
  if rh == 0 || wh == 0 then (0, st)
  else
    match forwardScan img rh wh (scanStart st rh) with
    | some addr => foundTable img rh addr st
    | none =>
        match backwardScan img rh wh with
        | some addr => foundTable img rh addr st
        | none => (0, st)

/-- What module load leaves for the checks. -/
def loadStatics (img : KernelImage) : SyscallStatics :=
  let found := acFindSyscallTable img (acResolveTextBounds img {})
  { acSyscallTable := found.1
    acStext := found.2.acStext
    acTextEnd := found.2.acTextEnd
    acAnchor := found.2.acAnchor
    nrSyscalls := img.nrSyscalls }

/-! ## What counts as a table -/

/-- The entry at an index can be read and is a plausible handler. -/
def KernelImage.plausibleAt (img : KernelImage) (base anchor : UInt64) (i : Nat) : Bool :=
  (img.entry base i).any fun e => acPlausibleHandler img.walk e anchor

/-- A table: its first two entries are the handlers of read and write, and enough of its
entries are plausible. -/
structure IsTable (img : KernelImage) (rh wh base : UInt64) : Prop where
  read : img.kread base = some rh
  write : img.kread (base + 8) = some wh
  handlers : minHandlers ≤
    (List.range img.nrSyscalls).countP (img.plausibleAt base rh)

/-- The loop counts plausible entries, and stops early once there are enough. -/
theorem plausibleLoop_eq (img : KernelImage) (base anchor : UInt64) (fuel i valid : Nat)
    (hvalid : valid < minHandlers) :
    plausibleLoop img base anchor fuel i valid =
      decide (minHandlers ≤ valid + (List.range' i fuel).countP (img.plausibleAt base anchor)) := by
  induction fuel generalizing i valid with
  | zero => simp [plausibleLoop]
  | succ fuel ih =>
      rw [plausibleLoop, List.range'_succ, List.countP_cons]
      cases hentry : img.entry base i with
      | none =>
          have hnot : img.plausibleAt base anchor i = false := by
            simp [KernelImage.plausibleAt, hentry]
          simp only [hnot, ih (i + 1) valid hvalid]
          simp
      | some e =>
          have hat : img.plausibleAt base anchor i = acPlausibleHandler img.walk e anchor := by
            simp [KernelImage.plausibleAt, hentry]
          rw [hat]
          dsimp only
          by_cases hzero : (e == 0) = true
          · have hnot : acPlausibleHandler img.walk e anchor = false := by
              simp [acPlausibleHandler, hzero]
            rw [if_pos hzero, ih (i + 1) valid hvalid, hnot]
            simp
          · rw [if_neg hzero]
            cases hhandler : acPlausibleHandler img.walk e anchor with
            | false =>
                simp only [Bool.false_eq_true, if_false, ih (i + 1) valid hvalid]
                simp
            | true =>
                rw [if_pos rfl]
                split
                · rename_i henough
                  symm
                  rw [decide_eq_true_eq, if_pos rfl]
                  omega
                · rename_i hfew
                  rw [ih (i + 1) (valid + 1) (not_le.1 hfew), if_pos rfl]
                  congr 2
                  omega

theorem acTablePlausible_iff (img : KernelImage) (base anchor : UInt64) :
    acTablePlausible img base anchor = true ↔
      minHandlers ≤ (List.range img.nrSyscalls).countP (img.plausibleAt base anchor) := by
  rw [acTablePlausible, plausibleLoop_eq img base anchor _ _ _ (by decide), Nat.zero_add,
    ← List.range_eq_range', decide_eq_true_eq]

/-- The body of the loops looks for tables. -/
theorem tableAt_iff (img : KernelImage) (rh wh addr : UInt64) :
    tableAt img rh wh addr = true ↔ IsTable img rh wh addr := by
  have hbase : addr - UInt64.ofNat (nrRead * 8) = addr := UInt64.sub_zero addr
  have hwrite : img.entry addr nrWrite = img.kread (addr + 8) := rfl
  unfold tableAt
  simp only [hbase, hwrite]
  constructor
  · intro h
    cases hv1 : img.kread addr with
    | none => simp [hv1] at h
    | some v1 =>
        cases hv2 : img.kread (addr + 8) with
        | none => simp [hv1, hv2] at h
        | some v2 =>
            simp only [hv1, hv2, bne_iff_ne, ne_eq, ite_not, Bool.if_false_right,
              Bool.and_eq_true, decide_eq_true_eq, beq_iff_eq] at h
            rcases h with ⟨rfl, rfl, hhandler⟩
            exact ⟨hv1, hv2, (acTablePlausible_iff img addr v1).1 hhandler⟩
  · rintro ⟨hread, hwrite, hhandlers⟩
    have hhandler := (acTablePlausible_iff img addr rh).2 hhandlers
    simp [hread, hwrite, hhandler]

/-! ## The windows -/

/-- The addresses of the forward window, in steps of eight bytes. -/
def InForwardWindow (lo a : UInt64) : Prop :=
  lo.toNat ≤ a.toNat ∧ a.toNat < lo.toNat + windowBytes.toNat ∧ 8 ∣ a.toNat - lo.toNat

/-- The addresses of the backward window, in steps of eight bytes. -/
def InBackwardWindow (rh a : UInt64) : Prop :=
  rh.toNat - windowBytes.toNat < a.toNat ∧ a.toNat ≤ rh.toNat ∧ 8 ∣ rh.toNat - a.toNat

theorem windowBytes_toNat : windowBytes.toNat = 8 * windowSteps := by
  rfl

section Forward

variable {lo : UInt64} (hfwd : lo.toNat + windowBytes.toNat < 2 ^ 64)
include hfwd

theorem toNat_iterate_add {k : Nat} (hk : k ≤ windowSteps) :
    ((· + 8)^[k] lo).toNat = lo.toNat + 8 * k := by
  induction k with
  | zero => rfl
  | succ k ih =>
      have hprev := ih (Nat.le_of_succ_le hk)
      rw [windowBytes_toNat] at hfwd
      have h8 : (8 : UInt64).toNat = 8 := rfl
      rw [Function.iterate_succ_apply', UInt64.toNat_add, hprev, h8, Nat.mod_eq_of_lt (by omega)]
      ring

theorem inForwardWindow_iff {a : UInt64} :
    InForwardWindow lo a ↔ GuardedScan.Visits (· + 8) windowSteps lo a := by
  unfold InForwardWindow GuardedScan.Visits
  rw [windowBytes_toNat]
  constructor
  · rintro ⟨hle, hlt, m, hm⟩
    have hk : m < windowSteps := by omega
    refine ⟨m, hk, ?_⟩
    rw [← UInt64.toNat_inj, toNat_iterate_add hfwd hk.le]
    omega
  · rintro ⟨k, hk, rfl⟩
    rw [toNat_iterate_add hfwd hk.le]
    refine ⟨by omega, by omega, k, by omega⟩

/-- The forward loop finds the first table of its window, or nothing if there is none. -/
theorem forwardScan_spec (img : KernelImage) (rh wh : UInt64) :
    (∀ a, forwardScan img rh wh lo = some a ↔
      InForwardWindow lo a ∧ IsTable img rh wh a ∧
        ∀ b, InForwardWindow lo b → IsTable img rh wh b → a.toNat ≤ b.toNat) ∧
    (forwardScan img rh wh lo = none ↔
      ∀ a, InForwardWindow lo a → ¬IsTable img rh wh a) := by
  have hend : (lo + windowBytes).toNat = lo.toNat + 8 * windowSteps := by
    rw [UInt64.toNat_add, Nat.mod_eq_of_lt hfwd, windowBytes_toNat]
  have hin : ∀ k < windowSteps, forwardGuard lo ((· + 8)^[k] lo) = true := by
    intro k hk
    rw [forwardGuard, decide_eq_true_eq, UInt64.lt_iff_toNat_lt, toNat_iterate_add hfwd hk.le,
      hend]
    omega
  have hout : forwardGuard lo ((· + 8)^[windowSteps] lo) = false := by
    rw [forwardGuard, decide_eq_false_iff_not, UInt64.lt_iff_toNat_lt,
      toNat_iterate_add hfwd le_rfl, hend]
    omega
  have hrank : ∀ j k, j < k → k < windowSteps →
      ((· + 8)^[j] lo).toNat < ((· + 8)^[k] lo).toNat := by
    intro j k hjk hk
    rw [toNat_iterate_add hfwd hk.le, toNat_iterate_add hfwd (hjk.trans hk).le]
    omega
  simp only [inForwardWindow_iff hfwd, ← tableAt_iff, Bool.not_eq_true]
  constructor
  · intro a
    exact GuardedScan.scan_eq_some_iff hin hout (Nat.lt_succ_self _) UInt64.toNat hrank
  · exact GuardedScan.scan_eq_none_iff hin hout (Nat.lt_succ_self _)

end Forward

section Backward

variable {rh : UInt64} (hbwd : windowBytes.toNat ≤ rh.toNat)
include hbwd

theorem toNat_iterate_sub {k : Nat} (hk : k ≤ windowSteps) :
    ((· - 8)^[k] rh).toNat = rh.toNat - 8 * k := by
  induction k with
  | zero => rfl
  | succ k ih =>
      have hprev := ih (Nat.le_of_succ_le hk)
      rw [windowBytes_toNat] at hbwd
      have h8 : (8 : UInt64).toNat = 8 := rfl
      have hle : (8 : UInt64) ≤ (· - 8)^[k] rh := by
        rw [UInt64.le_iff_toNat_le, hprev, h8]
        omega
      rw [Function.iterate_succ_apply', UInt64.toNat_sub_of_le _ _ hle, hprev, h8]
      omega

theorem inBackwardWindow_iff {a : UInt64} :
    InBackwardWindow rh a ↔ GuardedScan.Visits (· - 8) windowSteps rh a := by
  unfold InBackwardWindow GuardedScan.Visits
  rw [windowBytes_toNat] at hbwd ⊢
  constructor
  · rintro ⟨hlt, hle, m, hm⟩
    have hk : m < windowSteps := by omega
    refine ⟨m, hk, ?_⟩
    rw [← UInt64.toNat_inj, toNat_iterate_sub hbwd hk.le]
    omega
  · rintro ⟨k, hk, rfl⟩
    rw [toNat_iterate_sub hbwd hk.le]
    refine ⟨by omega, by omega, k, by omega⟩

/-- The backward loop finds the highest table of its window, or nothing if there is
none. -/
theorem backwardScan_spec (img : KernelImage) (wh : UInt64) :
    (∀ a, backwardScan img rh wh = some a ↔
      InBackwardWindow rh a ∧ IsTable img rh wh a ∧
        ∀ b, InBackwardWindow rh b → IsTable img rh wh b → b.toNat ≤ a.toNat) ∧
    (backwardScan img rh wh = none ↔
      ∀ a, InBackwardWindow rh a → ¬IsTable img rh wh a) := by
  have hend : (rh - windowBytes).toNat = rh.toNat - 8 * windowSteps := by
    rw [UInt64.toNat_sub_of_le _ _ (UInt64.le_iff_toNat_le.2 hbwd), windowBytes_toNat]
  have hsize := hbwd
  rw [windowBytes_toNat] at hsize
  have hin : ∀ k < windowSteps, backwardGuard rh ((· - 8)^[k] rh) = true := by
    intro k hk
    rw [backwardGuard, decide_eq_true_eq, gt_iff_lt, UInt64.lt_iff_toNat_lt,
      toNat_iterate_sub hbwd hk.le, hend]
    omega
  have hout : backwardGuard rh ((· - 8)^[windowSteps] rh) = false := by
    rw [backwardGuard, decide_eq_false_iff_not, gt_iff_lt, UInt64.lt_iff_toNat_lt,
      toNat_iterate_sub hbwd le_rfl, hend]
    omega
  have hrank : ∀ j k, j < k → k < windowSteps →
      OrderDual.toDual ((· - 8)^[j] rh).toNat < OrderDual.toDual ((· - 8)^[k] rh).toNat := by
    intro j k hjk hk
    rw [OrderDual.toDual_lt_toDual, toNat_iterate_sub hbwd hk.le,
      toNat_iterate_sub hbwd (hjk.trans hk).le]
    omega
  simp only [inBackwardWindow_iff hbwd, ← tableAt_iff, Bool.not_eq_true]
  constructor
  · intro a
    exact GuardedScan.scan_eq_some_iff hin hout (Nat.lt_succ_self _)
      (fun a => OrderDual.toDual a.toNat) hrank
  · exact GuardedScan.scan_eq_none_iff hin hout (Nat.lt_succ_self _)

end Backward

/-! ## The result of the search -/

/-- What the search returns for handlers that were resolved. -/
theorem acFindSyscallTable_eq {img : KernelImage} {st : TextStatics} {rh wh : UInt64}
    (hread : acNormalizeFunc img (img.acLookup .x64SysRead) = rh)
    (hwrite : acNormalizeFunc img (img.acLookup .x64SysWrite) = wh) (hrh : rh ≠ 0)
    (hwh : wh ≠ 0) :
    acFindSyscallTable img st =
      match (forwardScan img rh wh (scanStart st rh)).or (backwardScan img rh wh) with
      | some a => (a, acDeriveBounds img a rh { st with acAnchor := rh })
      | none => (0, st) := by
  have hzero : (rh == 0 || wh == 0) = false := by simp [hrh, hwh]
  have hfound : ∀ a, foundTable img rh a st =
      (a, acDeriveBounds img a rh { st with acAnchor := rh }) := by
    intro a
    have hbase : a - UInt64.ofNat (nrRead * 8) = a := UInt64.sub_zero a
    rw [foundTable, hbase]
  unfold acFindSyscallTable
  simp only [hread, hwrite, hzero, Bool.false_eq_true, if_false]
  -- the loops are hidden, so that they are not run
  generalize forwardScan img rh wh (scanStart st rh) = forward
  generalize backwardScan img rh wh = backward
  cases forward with
  | some a => exact hfound a
  | none =>
      cases backward with
      | some a => exact hfound a
      | none => rfl

theorem scanStart_ne_zero (st : TextStatics) {rh : UInt64} (hrh : rh ≠ 0) :
    scanStart st rh ≠ 0 := by
  unfold scanStart
  split
  · rename_i h
    simpa using h
  · split
    · rename_i h
      simpa using h
    · exact hrh

/-- For every memory, if the windows do not wrap around: the search returns an address
exactly if one of the windows has a table, and this is the first one of the forward window,
or the highest one of the backward window if the forward window has none.  If it returns
zero, it leaves the statics as they were. -/
theorem syscall_table_found_exactly {img : KernelImage} {st : TextStatics} {rh wh lo : UInt64}
    (hread : acNormalizeFunc img (img.acLookup .x64SysRead) = rh)
    (hwrite : acNormalizeFunc img (img.acLookup .x64SysWrite) = wh) (hrh : rh ≠ 0)
    (hwh : wh ≠ 0) (hlo : scanStart st rh = lo) (hfwd : lo.toNat + windowBytes.toNat < 2 ^ 64)
    (hbwd : windowBytes.toNat ≤ rh.toNat) :
    let found := acFindSyscallTable img st
    (found.1 ≠ 0 ↔ (∃ a, InForwardWindow lo a ∧ IsTable img rh wh a) ∨
      ∃ a, InBackwardWindow rh a ∧ IsTable img rh wh a) ∧
    (found.1 ≠ 0 →
      (InForwardWindow lo found.1 ∧ IsTable img rh wh found.1 ∧
        ∀ a, InForwardWindow lo a → IsTable img rh wh a → found.1.toNat ≤ a.toNat) ∨
      ((∀ a, InForwardWindow lo a → ¬IsTable img rh wh a) ∧
        InBackwardWindow rh found.1 ∧ IsTable img rh wh found.1 ∧
        ∀ a, InBackwardWindow rh a → IsTable img rh wh a → a.toNat ≤ found.1.toNat)) ∧
    (found.1 = 0 → found.2 = st) := by
  have hfound : acFindSyscallTable img st = _ := acFindSyscallTable_eq hread hwrite hrh hwh
  rw [hlo] at hfound
  generalize acFindSyscallTable img st = found at hfound ⊢
  rcases forwardScan_spec hfwd img rh wh with ⟨hforward, hforwardNone⟩
  rcases backwardScan_spec hbwd img wh with ⟨hbackward, hbackwardNone⟩
  cases hf : forwardScan img rh wh lo with
  | some a =>
      have ha := (hforward a).1 hf
      have hne : a ≠ 0 := by
        have hlo' : lo ≠ 0 := hlo ▸ scanStart_ne_zero st hrh
        have hle := ha.1.1
        rintro rfl
        exact hlo' (UInt64.toNat_inj.1 (Nat.le_zero.1 hle))
      rw [hf, Option.some_or] at hfound
      subst hfound
      exact ⟨iff_of_true hne (Or.inl ⟨a, ha.1, ha.2.1⟩), fun _ => Or.inl ha,
        fun hzero => absurd hzero hne⟩
  | none =>
      have hnone := hforwardNone.1 hf
      cases hb : backwardScan img rh wh with
      | some a =>
          have ha := (hbackward a).1 hb
          have hne : a ≠ 0 := by
            have hlt := ha.1.1
            rintro rfl
            exact Nat.not_lt_zero _ hlt
          rw [hf, hb, Option.none_or] at hfound
          subst hfound
          exact ⟨iff_of_true hne (Or.inr ⟨a, ha.1, ha.2.1⟩), fun _ => Or.inr ⟨hnone, ha⟩,
            fun hzero => absurd hzero hne⟩
      | none =>
          have hnone' := hbackwardNone.1 hb
          rw [hf, hb, Option.none_or] at hfound
          subst hfound
          refine ⟨iff_of_false (not_not_intro rfl) ?_, fun h => absurd rfl h, fun _ => rfl⟩
          rintro (⟨a, ha, htable⟩ | ⟨a, ha, htable⟩)
          · exact hnone a ha htable
          · exact hnone' a ha htable

/-- A kernel in which only the two handlers can be resolved, with a table 64 bytes behind
the first one; `top` is the entry at index 2, and the others follow the first handler. -/
def smallImage (top : UInt64) : KernelImage where
  acLookup
    | .x64SysRead => 0xffffffff81100000
    | .x64SysWrite => 0xffffffff81100010
    | _ => 0
  kread addr :=
    let offset := addr - 0xffffffff81100040
    if offset < 4096 && offset % 8 == 0 then
      some (if offset == 16 then top else 0xffffffff81100000 + 2 * offset)
    else none
  kread32 _ := none
  walk := []
  nrSyscalls := 402

theorem small_table_found :
    let img := smallImage 0xffffffff81200008
    (acFindSyscallTable img {}).1 = 0xffffffff81100040 ∧
      ((∃ a, InForwardWindow 0xffffffff81100000 a ∧
          IsTable img 0xffffffff81100000 0xffffffff81100010 a) ∨
        ∃ a, InBackwardWindow 0xffffffff81100000 a ∧
          IsTable img 0xffffffff81100000 0xffffffff81100010 a) := by
  intro img
  have hvalue : (acFindSyscallTable img {}).1 = 0xffffffff81100040 := by
    decide +kernel
  have hread : acNormalizeFunc img (img.acLookup .x64SysRead) = 0xffffffff81100000 := rfl
  have hwrite : acNormalizeFunc img (img.acLookup .x64SysWrite) = 0xffffffff81100010 := rfl
  have hlo : scanStart {} 0xffffffff81100000 = 0xffffffff81100000 := rfl
  have hexact := syscall_table_found_exactly hread hwrite (by decide) (by decide) hlo (by decide)
    (by decide)
  refine ⟨hvalue, hexact.1.1 ?_⟩
  rw [hvalue]
  decide

end Anticheat
