import Mathlib.Data.Nat.Bitwise
import Anticheat.Foundation.Lists
import Anticheat.Kernel.Snapshot

/-!
# What a scan says about a process

The daemon sees a process through the entries of a snapshot, through the three counters
that come with it, and through the events that the scan emits.  All of them are made in
one loop, which stops when the array is full.

Main results:

- Theorem {lit}`vmaLoop_events`: the events of the loop are those of its entries.
- Theorem {lit}`vma_snapshot_content`: entries, counters and events of a scan all
  describe the first areas of the process, and all of its areas unless the snapshot is
  marked as truncated.
-/

namespace Anticheat

open Foundation

/-- The entry is of a writable and executable area. -/
def AcVmaInfo.isRwx (vi : AcVmaInfo) : Bool :=
  vi.isExec && vi.isWrite

/-- The entry is of an executable area without a file. -/
def AcVmaInfo.isAnonExec (vi : AcVmaInfo) : Bool :=
  vi.isExec && !vi.isFile

/-- The events that are due for an entry. -/
def entryEvents (pid : Int) (vi : AcVmaInfo) : List EmitCall :=
  (if vi.isRwx then [rwxEvent pid vi] else []) ++
    if vi.isAnonExec then [anonExecEvent pid vi] else []

/-! ## Areas and their entries -/

/-- Two bits are both set exactly when each of them is. -/
theorem and_two_bits (f : UInt64) :
    ((f &&& (acVmExec ||| acVmWrite)) == (acVmExec ||| acVmWrite)) =
      ((f &&& acVmExec) != 0 && (f &&& acVmWrite) != 0) := by
  have hexec : (f &&& acVmExec).toNat = (f.toNat.testBit 2).toNat * 4 := by
    rw [UInt64.toNat_and]
    exact Nat.and_two_pow f.toNat 2
  have hwrite : (f &&& acVmWrite).toNat = (f.toNat.testBit 1).toNat * 2 := by
    rw [UInt64.toNat_and]
    exact Nat.and_two_pow f.toNat 1
  have hboth : (f &&& (acVmExec ||| acVmWrite)).toNat =
      (f &&& acVmExec).toNat ||| (f &&& acVmWrite).toNat := by
    simp only [UInt64.toNat_and, UInt64.toNat_or]
    exact Nat.and_or_distrib_left ..
  rw [Bool.eq_iff_iff, Bool.and_eq_true, beq_iff_eq, bne_iff_ne, bne_iff_ne, Ne, Ne,
    ← UInt64.toNat_inj, ← UInt64.toNat_inj, ← UInt64.toNat_inj, hboth, hexec, hwrite]
  cases f.toNat.testBit 2 <;> cases f.toNat.testBit 1 <;> decide

/-- The entry describes the area. -/
structure AcVmaInfo.Describes (vi : AcVmaInfo) (a : VmArea) : Prop where
  start : vi.start = a.vmStart
  stop : vi.stop = a.vmEnd
  flags : vi.flags = a.vmFlags
  isFile : vi.isFile = a.vmFile.isSome

namespace AcVmaInfo.Describes

variable {vi : AcVmaInfo} {a : VmArea} (h : vi.Describes a)

include h

theorem isExec : vi.isExec = a.isExec := by
  rw [AcVmaInfo.isExec, VmArea.isExec, h.flags]

theorem isRwx : vi.isRwx = a.isRwx := by
  rw [AcVmaInfo.isRwx, AcVmaInfo.isExec, AcVmaInfo.isWrite, h.flags]
  exact (and_two_bits a.vmFlags).symm

theorem isAnonExec : vi.isAnonExec = a.isAnonExec := by
  rw [AcVmaInfo.isAnonExec, VmArea.isAnonExec, Bool.and_comm, h.isExec, h.isFile]
  simp

/-- The kinds of the events of an entry, by its area. -/
theorem event_types (pid : Int) :
    (entryEvents pid vi).map EmitCall.type =
      (if a.isRwx then [.rwx] else []) ++ if a.isAnonExec then [.anonExec] else [] := by
  rw [entryEvents, h.isRwx, h.isAnonExec, List.map_append]
  congr 1
  · split <;> rfl
  · split <;> rfl

end AcVmaInfo.Describes

theorem vmaInfo_describes (buf : Bool) (a : VmArea) : (vmaInfo buf a).Describes a :=
  ⟨rfl, rfl, rfl, rfl⟩

theorem areaEvents_vmaInfo (pid : Int) (buf : Bool) (a : VmArea) :
    areaEvents pid true a (vmaInfo buf a) = entryEvents pid (vmaInfo buf a) := by
  have h := vmaInfo_describes buf a
  simp [areaEvents, entryEvents, h.isRwx, h.isAnonExec]

theorem areaEvents_quiet (pid : Int) (a : VmArea) (vi : AcVmaInfo) :
    areaEvents pid false a vi = [] := by
  simp [areaEvents]

/-- A property of areas that their entries show counts the same in both lists. -/
theorem countP_recordsFrom {p : AcVmaInfo → Bool} {q : VmArea → Bool}
    (h : ∀ {vi a}, vi.Describes a → p vi = q a) (bufs : Nat → Bool) (n : Nat)
    (areas : List VmArea) :
    (recordsFrom bufs n areas).countP p = (areas.take (acMaxVmas - n)).countP q := by
  rw [recordsFrom]
  induction areas.take (acMaxVmas - n) generalizing n with
  | nil => rfl
  | cons a rest ih =>
      have hshift := ih (n + 1)
      simp only [List.mapIdx_cons, List.countP_cons, Nat.add_zero, h (vmaInfo_describes _ a)]
      rw [← hshift]
      congr 3
      funext i b
      rw [show n + (i + 1) = n + 1 + i by omega]

/-! ## The events of a scan -/

/-- The loop emits the events of the entries that it makes. -/
theorem vmaLoop_events (pid : Int) (emitEvents : Bool) (bufs : Nat → Bool)
    (areas : List VmArea) (n : Nat) (st : AcFdState) :
    (vmaLoop pid emitEvents bufs areas n st).2.2 =
      if emitEvents then (recordsFrom bufs n areas).flatMap (entryEvents pid) else [] := by
  induction areas generalizing n st with
  | nil => simp [vmaLoop, recordsFrom]
  | cons a rest ih =>
      by_cases hn : n < acMaxVmas
      · rw [vmaLoop, if_neg (not_le.2 hn)]
        simp only [ih, recordsFrom_cons hn, List.flatMap_cons]
        cases emitEvents with
        | true => rw [areaEvents_vmaInfo]; rfl
        | false => rw [areaEvents_quiet]; rfl
      · have hfull : acMaxVmas - n = 0 := by omega
        rw [vmaLoop, if_pos (not_lt.1 hn)]
        simp [recordsFrom, hfull]

theorem acBuildVmaSnapshot_events {env : ScanEnv} {areas : List VmArea}
    (htask : env.task = true) (hmm : env.mm = some areas) (halloc : env.alloc = true)
    (pid : Int) (emitEvents : Bool) (st : AcFdState) :
    (acBuildVmaSnapshot env pid emitEvents st).2.2 =
      if emitEvents then (recordsFrom env.bufs 0 areas).flatMap (entryEvents pid) else [] := by
  simp only [acBuildVmaSnapshot, htask, hmm, halloc, Bool.not_true, Bool.false_eq_true,
    if_false, vmaLoop_events]

/-! ## The content of a snapshot -/

/-- What a snapshot holds and says, for a process with the given areas. -/
structure SnapshotContent (areas : List VmArea) (entries : List AcVmaInfo) (st : AcFdState) :
    Prop where
  stored : ∃ t, st.vmas = some t ∧ t.Holds entries
  count : st.nVmas = entries.length
  length : entries.length = min areas.length acMaxVmas
  describes : List.Forall₂ AcVmaInfo.Describes entries (areas.take acMaxVmas)
  rwx : st.rwxCount = entries.countP AcVmaInfo.isRwx
  exec : st.execCount = entries.countP AcVmaInfo.isExec
  anonExec : st.anonExecCount = entries.countP AcVmaInfo.isAnonExec
  truncated : st.truncated = true ↔ acMaxVmas < areas.length
  complete : st.truncated = false →
    st.rwxCount = areas.countP VmArea.isRwx ∧ st.execCount = areas.countP VmArea.isExec ∧
      st.anonExecCount = areas.countP VmArea.isAnonExec

theorem recordsFrom_describes (bufs : Nat → Bool) (areas : List VmArea) :
    List.Forall₂ AcVmaInfo.Describes (recordsFrom bufs 0 areas) (areas.take acMaxVmas) := by
  rw [List.forall₂_iff_get]
  refine ⟨by simp [recordsFrom], ?_⟩
  intro i hi hi'
  simp only [recordsFrom, List.get_eq_getElem, List.getElem_mapIdx]
  exact vmaInfo_describes ..

/-- A scan that succeeds stores the first areas of the process, one entry each and in
their order, counts what it has stored, says whether there is more, and emits the events
of the entries in their order if it is asked to. -/
theorem vma_snapshot_content {env : ScanEnv} {pid : Int} {emitEvents : Bool}
    {st st' : AcFdState} {emitted : List EmitCall}
    (h : acBuildVmaSnapshot env pid emitEvents st = (.ok (), st', emitted)) :
    ∃ areas entries, env.mm = some areas ∧ SnapshotContent areas entries st' ∧
      emitted = if emitEvents then entries.flatMap (entryEvents pid) else [] := by
  cases hsnap : env.snapshot with
  | none =>
      rcases acBuildVmaSnapshot_fails hsnap pid emitEvents st with ⟨e, hfail⟩
      rw [hfail] at h
      cases h
  | some l =>
      rcases env.snapshot_some hsnap with ⟨areas, htask, hmm, halloc, -⟩
      have hevents := acBuildVmaSnapshot_events htask hmm halloc pid emitEvents st
      rcases acBuildVmaSnapshot_ok htask hmm halloc pid emitEvents st with
        ⟨t, emitted', hrun, hholds⟩
      rw [h] at hevents
      rw [h, Prod.mk.injEq, Prod.mk.injEq] at hrun
      have hrwx := countP_recordsFrom (fun h => h.isRwx) env.bufs 0 areas
      have hexec := countP_recordsFrom (fun h => h.isExec) env.bufs 0 areas
      have hanon := countP_recordsFrom (fun h => h.isAnonExec) env.bufs 0 areas
      rw [Nat.sub_zero] at hrwx hexec hanon
      refine ⟨areas, recordsFrom env.bufs 0 areas, hmm, ?_, hevents⟩
      rw [hrun.2.1]
      refine ⟨⟨t, rfl, hholds⟩, rfl, ?_, recordsFrom_describes env.bufs areas, hrwx.symm,
        hexec.symm, hanon.symm, decide_eq_true_iff, ?_⟩
      · simp [recordsFrom, Nat.min_comm]
      · intro hall
        have hle := not_lt.1 (of_decide_eq_false hall)
        simp only [List.take_of_length_le hle, and_self]

/-- A process with the code of a library, a heap, generated code that is writable, a file that is
mapped writable and executable, and generated code that is not writable. -/
def rwxEnv : ScanEnv where
  task := true
  mm :=
    let lib : VmFile := ⟨some 21, CStr.ascii "/lib/libc.so", true⟩
    some [⟨0x1000, 0x2000, 0, 5, some lib⟩, ⟨0x2000, 0x3000, 0, 3, none⟩,
      ⟨0x3000, 0x4000, 0, 7, none⟩, ⟨0x4000, 0x5000, 1, 7, some lib⟩,
      ⟨0x5000, 0x6000, 0, 5, none⟩]
  alloc := true
  bufs := fun _ => true

theorem rwx_areas_reported :
    ∃ st' emitted, acBuildVmaSnapshot rwxEnv 9 true {} = (.ok (), st', emitted) ∧
      st'.nVmas = 5 ∧ st'.rwxCount = 2 ∧ st'.execCount = 4 ∧ st'.anonExecCount = 2 ∧
      st'.truncated = false ∧
      emitted.map EmitCall.type = [.rwx, .anonExec, .rwx, .anonExec] := by
  rcases acBuildVmaSnapshot_ok (show rwxEnv.task = true from rfl) rfl rfl 9 true {} with
    ⟨t, emitted, hrun, -⟩
  refine ⟨_, _, hrun, rfl, rfl, rfl, rfl, rfl, ?_⟩
  rcases vma_snapshot_content hrun with ⟨areas, entries, hareas, hcontent, hemitted⟩
  cases hareas
  rw [hemitted, if_pos rfl, List.map_flatMap,
    flatMap_eq_of_forall₂ hcontent.describes fun vi _ a h => h.event_types 9]
  rfl

end Anticheat
