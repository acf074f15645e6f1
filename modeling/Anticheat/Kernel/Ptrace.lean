import Anticheat.Kernel.TaskProbes

/-!
# ptrace denial

A kprobe at the two entries of the ptrace system call looks at the arguments in
the syscall frame.  When the call is aimed at a protected task, the request slot
is overwritten with an invalid value, an event is emitted and, by policy, the
caller is scheduled to be killed.

The handler tests the sign of the full 64-bit argument before it looks the task
up, while the lookup itself, like that of the system call, takes the low 32
bits.

Main results:

- Theorem {lit}`acPtracePre_denied` and {lit}`acPtracePre_allowed`: what the
  handler does in either case.
- Theorem {lit}`ptrace_denial_complete_iff`: denial is complete exactly when
  the handler's test of the argument and the system call's agree.
-/

namespace Anticheat

open Foundation

/-- The slots of the syscall frame, `struct pt_regs`. -/
inductive PtReg where
  | r15 | r14 | r13 | r12 | bp | bx | r11 | r10 | r9 | r8
  | ax | cx | dx | si | di | origAx | ip | cs | flags | sp | ss
deriving DecidableEq, Repr

/-- A syscall frame. -/
abbrev PtRegs := PtReg → BitVec 64

/-- The two probes: `__x64_sys_ptrace` and `__ia32_sys_ptrace`. -/
inductive PtraceProbe where
  | native
  | compat
deriving DecidableEq, Repr

/-- Where the wrapper finds the request. -/
def PtraceProbe.requestSlot : PtraceProbe → PtReg
  | native => .di
  | compat => .bx

/-- Where the wrapper finds the pid. -/
def PtraceProbe.targetSlot : PtraceProbe → PtReg
  | native => .si
  | compat => .cx

/-- `PTRACE_TRACEME` -/
def ptraceTraceme : BitVec 64 := 0

/-- What the handler leaves behind: the frame, the events it emitted, and the
task it scheduled to be killed. -/
structure PtraceOutcome (Task : Type) where
  args : PtRegs
  emits : List EmitCall
  kill : Option Task

variable {Task : Type} [DecidableEq Task]

/-- What the handler decides about a call. -/
structure PtraceVerdict where
  deny : Bool := false
  kill : Bool := false
  target : BitVec 64
  tcomm : CStr := CStr.ascii "?"
deriving DecidableEq

/-- The decision part of `ac_ptrace_pre`. -/
def ptraceVerdict (r : Registry Task) (info : Task → TaskInfo)
    (find : Int → Option Task) (cur : Task) (request target : BitVec 64) :
    PtraceVerdict :=
  if request = ptraceTraceme then
    -- the arguments of PTRACE_TRACEME are stale, so the caller is reported
    if acIsProtectedTask r cur then
      { deny := true
        target := BitVec.ofInt 64 (info cur).pid
        tcomm := CStr.bounded acMaxComm (info cur).comm }
    else { target := target }
  else if target.toInt > 0 then
    match acIsProtectedPid r info find (pidOfLong target) with
    | some tcomm => { deny := true, kill := true, target := target, tcomm := tcomm }
    | none => { target := target }
  else { target := target }

/-- `ac_schedule_kill`, with the outcome of `kmalloc`. -/
def acScheduleKill (alloc : Bool) (victim : Task) : Option Task :=
  if alloc then some victim else none

/-- The event that a denied call leaves. -/
def denialEvent (info : Task → TaskInfo) (cur : Task) (request : BitVec 64)
    (v : PtraceVerdict) : EmitCall where
  type := .ptrace
  pid := pidOfLong v.target
  comm := some v.tcomm
  data := CStr.ascii "ptrace req " ++ CStr.decimal request.toInt ++
    CStr.ascii " by pid " ++ CStr.decimal (info cur).pid ++
    CStr.ascii " (" ++ (info cur).comm ++ CStr.ascii ") DENIED"

/-- `ac_ptrace_pre`, called in task `cur` at probe `p` on the syscall frame
`args`. -/
def acPtracePre (r : Registry Task) (info : Task → TaskInfo)
    (find : Int → Option Task) (acPolicy : BitVec 32) (alloc : Bool)
    (cur : Task) (p : PtraceProbe) (args : PtRegs) : PtraceOutcome Task :=
  let request := args p.requestSlot
  let v := ptraceVerdict r info find cur request (args p.targetSlot)
  if !v.deny then
    { args := args, emits := [], kill := none }
  else
    { args := Function.update args p.requestSlot (-1)
      emits := [denialEvent info cur request v]
      kill :=
        if v.kill && (acPolicy &&& 0x1) != 0 then acScheduleKill alloc cur
        else none }

/-! ## The system call -/

/-- The system call acts on a protected task: the caller asks to be traced and
is protected, or the 32-bit pid names a protected task. -/
def ActsOnProtected (r : Registry Task) (find : Int → Option Task) (cur : Task)
    (p : PtraceProbe) (args : PtRegs) : Prop :=
  (args p.requestSlot = ptraceTraceme ∧ cur ∈ r.registered) ∨
    (args p.requestSlot ≠ ptraceTraceme ∧
      ∃ t, find (pidOfLong (args p.targetSlot)) = some t ∧ t ∈ r.registered)

/-- The call names a protected task by a pid argument that is zero or negative
as a 64-bit number. -/
def NonpositiveAlias (r : Registry Task) (find : Int → Option Task)
    (p : PtraceProbe) (args : PtRegs) : Prop :=
  args p.requestSlot ≠ ptraceTraceme ∧ (args p.targetSlot).toInt ≤ 0 ∧
    ∃ t, find (pidOfLong (args p.targetSlot)) = some t ∧ t ∈ r.registered

/-- The handler denies what acts on a protected task and nothing else, touches
only the request slot, and schedules a kill only for a denied call that the
policy says to punish. -/
structure DenialComplete (r : Registry Task) (info : Task → TaskInfo)
    (find : Int → Option Task) (acPolicy : BitVec 32) (alloc : Bool)
    (cur : Task) (p : PtraceProbe) (args : PtRegs) : Prop where
  denied : ActsOnProtected r find cur p args →
    (acPtracePre r info find acPolicy alloc cur p args).args p.requestSlot = -1 ∧
      ∃ e, (acPtracePre r info find acPolicy alloc cur p args).emits = [e] ∧
        e.type = .ptrace
  allowed : ¬ActsOnProtected r find cur p args →
    (acPtracePre r info find acPolicy alloc cur p args).args = args ∧
      (acPtracePre r info find acPolicy alloc cur p args).emits = []
  frame : ∀ slot, slot ≠ p.requestSlot →
    (acPtracePre r info find acPolicy alloc cur p args).args slot = args slot
  kill : (acPtracePre r info find acPolicy alloc cur p args).kill ≠ none →
    ActsOnProtected r find cur p args ∧ args p.requestSlot ≠ ptraceTraceme ∧
      acPolicy.getLsbD 0 = true

/-! ## The handler -/

theorem acIsProtectedPid_isSome_iff (r : Registry Task) (info : Task → TaskInfo)
    (find : Int → Option Task) (pid : Int) :
    (acIsProtectedPid r info find pid).isSome ↔
      ∃ t, find pid = some t ∧ t ∈ r.registered := by
  unfold acIsProtectedPid
  cases find pid with
  | none => simp
  | some t =>
      by_cases ht : acIsProtectedTask r t
      · simpa [ht] using (acIsProtectedTask_iff r t).1 ht
      · simpa [ht] using fun hmem => ht ((acIsProtectedTask_iff r t).2 hmem)

/-- The handler denies the calls that act on a protected task, except those it
does not look up. -/
theorem ptraceVerdict_deny_iff (r : Registry Task) (info : Task → TaskInfo)
    (find : Int → Option Task) (cur : Task) (p : PtraceProbe) (args : PtRegs) :
    (ptraceVerdict r info find cur (args p.requestSlot) (args p.targetSlot)).deny = true ↔
      ActsOnProtected r find cur p args ∧ ¬NonpositiveAlias r find p args := by
  unfold ptraceVerdict ActsOnProtected NonpositiveAlias
  by_cases hreq : args p.requestSlot = ptraceTraceme
  · by_cases hcur : acIsProtectedTask r cur
    · simpa [hreq, hcur] using (acIsProtectedTask_iff r cur).1 hcur
    · simpa [hreq, hcur] using fun hmem => hcur ((acIsProtectedTask_iff r cur).2 hmem)
  · have hsome := acIsProtectedPid_isSome_iff r info find (pidOfLong (args p.targetSlot))
    by_cases hpos : (args p.targetSlot).toInt > 0
    · have hnle : ¬(args p.targetSlot).toInt ≤ 0 := not_le.2 hpos
      cases hpid : acIsProtectedPid r info find (pidOfLong (args p.targetSlot)) with
      | none =>
          rw [hpid] at hsome
          have hno := mt hsome.2 (by simp)
          simp only [hreq, hpos, hno, if_false, if_true, Bool.false_eq_true, false_and,
            and_false, or_false]
      | some tcomm =>
          rw [hpid] at hsome
          have hyes := hsome.1 rfl
          simp only [hreq, hpos, hyes, hnle, if_false, if_true, false_and, and_false,
            ne_eq, not_false_eq_true, and_self, or_true]
    · have hle : (args p.targetSlot).toInt ≤ 0 := not_lt.1 hpos
      simp only [hreq, hpos, hle, if_false, Bool.false_eq_true, ne_eq, not_false_eq_true,
        true_and, false_and, false_or, and_not_self]

/-- Only a request other than PTRACE_TRACEME is punished. -/
theorem ptraceVerdict_kill {r : Registry Task} {info : Task → TaskInfo}
    {find : Int → Option Task} {cur : Task} {request target : BitVec 64}
    (hkill : (ptraceVerdict r info find cur request target).kill = true) :
    request ≠ ptraceTraceme := by
  rintro rfl
  unfold ptraceVerdict at hkill
  rw [if_pos rfl] at hkill
  split at hkill <;> contradiction

/-- A denied call. -/
theorem acPtracePre_denied {r : Registry Task} {info : Task → TaskInfo}
    {find : Int → Option Task} {cur : Task} {p : PtraceProbe} {args : PtRegs}
    (acPolicy : BitVec 32) (alloc : Bool)
    (hdeny : (ptraceVerdict r info find cur (args p.requestSlot)
      (args p.targetSlot)).deny = true) :
    (acPtracePre r info find acPolicy alloc cur p args).args =
        Function.update args p.requestSlot (-1) ∧
      (acPtracePre r info find acPolicy alloc cur p args).emits =
        [denialEvent info cur (args p.requestSlot)
          (ptraceVerdict r info find cur (args p.requestSlot) (args p.targetSlot))] := by
  unfold acPtracePre
  simp [hdeny]

/-- A call that is let through. -/
theorem acPtracePre_allowed {r : Registry Task} {info : Task → TaskInfo}
    {find : Int → Option Task} {cur : Task} {p : PtraceProbe} {args : PtRegs}
    (acPolicy : BitVec 32) (alloc : Bool)
    (hdeny : ¬(ptraceVerdict r info find cur (args p.requestSlot)
      (args p.targetSlot)).deny = true) :
    acPtracePre r info find acPolicy alloc cur p args =
      { args := args, emits := [], kill := none } := by
  unfold acPtracePre
  simp [hdeny]

theorem policy_bit_set {acPolicy : BitVec 32} (h : acPolicy &&& 0x1 ≠ 0) :
    acPolicy.getLsbD 0 = true := by
  by_contra hbit
  apply h
  rw [Bool.not_eq_true] at hbit
  have hand := BitVec.and_one_eq_setWidth_ofBool_getLsbD (x := acPolicy)
  rw [hbit] at hand
  exact hand

/-- A scheduled kill follows from a denial that the policy says to punish. -/
theorem acPtracePre_kill {r : Registry Task} {info : Task → TaskInfo}
    {find : Int → Option Task} {cur : Task} {p : PtraceProbe} {args : PtRegs}
    {acPolicy : BitVec 32} {alloc : Bool}
    (hkill : (acPtracePre r info find acPolicy alloc cur p args).kill ≠ none) :
    (ptraceVerdict r info find cur (args p.requestSlot) (args p.targetSlot)).deny = true ∧
      args p.requestSlot ≠ ptraceTraceme ∧ acPolicy.getLsbD 0 = true := by
  by_cases hdeny : (ptraceVerdict r info find cur (args p.requestSlot)
      (args p.targetSlot)).deny = true
  · refine ⟨hdeny, ?_⟩
    simp only [acPtracePre, hdeny, Bool.not_true, Bool.false_eq_true, if_false] at hkill
    split at hkill
    · rename_i hpunish
      rw [Bool.and_eq_true, bne_iff_ne] at hpunish
      refine ⟨ptraceVerdict_kill hpunish.1, ?_⟩
      exact policy_bit_set hpunish.2
    · contradiction
  · rw [acPtracePre_allowed acPolicy alloc hdeny] at hkill
    contradiction

/-- For every registry, caller, probe, frame, policy and allocation outcome,
denial is complete exactly when the call does not name a protected task by a
pid argument whose 64-bit value is zero or negative. -/
theorem ptrace_denial_complete_iff (r : Registry Task) (info : Task → TaskInfo)
    (find : Int → Option Task) (acPolicy : BitVec 32) (alloc : Bool)
    (cur : Task) (p : PtraceProbe) (args : PtRegs) :
    DenialComplete r info find acPolicy alloc cur p args ↔
      ¬NonpositiveAlias r find p args := by
  have hiff := ptraceVerdict_deny_iff r info find cur p args
  by_cases hdeny : (ptraceVerdict r info find cur (args p.requestSlot)
      (args p.targetSlot)).deny = true
  · rcases hiff.1 hdeny with ⟨hacts, halias⟩
    rcases acPtracePre_denied acPolicy alloc hdeny with ⟨hargs, hemits⟩
    refine iff_of_true ⟨?_, ?_, ?_, ?_⟩ halias
    · intro _
      refine ⟨?_, _, hemits, rfl⟩
      rw [hargs, Function.update_self]
    · intro hnot
      contradiction
    · intro slot hslot
      rw [hargs, Function.update_of_ne hslot]
    · intro hkill
      exact ⟨hacts, (acPtracePre_kill hkill).2⟩
  · have hout := acPtracePre_allowed acPolicy alloc hdeny
    constructor
    · intro hcomplete halias
      have hacts : ActsOnProtected r find cur p args := .inr ⟨halias.1, halias.2.2⟩
      rcases (hcomplete.denied hacts).2 with ⟨e, hone, -⟩
      rw [hout] at hone
      contradiction
    · intro halias
      have hacts : ¬ActsOnProtected r find cur p args := fun h => hdeny (hiff.2 ⟨h, halias⟩)
      refine ⟨fun h => absurd h hacts, ?_, ?_, ?_⟩
      · intro _
        rw [hout]
        exact ⟨rfl, rfl⟩
      · intro slot _
        rw [hout]
      · intro hkill
        rw [hout] at hkill
        contradiction

/-- The frame of PTRACE_ATTACH to pid 5, with the upper half of the pid
argument set to ones. -/
def aliasedAttach : PtRegs
  | .di => 16
  | .si => 0xFFFFFFFF00000005
  | _ => 0

/-- A registry that holds task 5. -/
def registryOfFive : Registry Nat :=
  (acAddProtTask (Registry.empty Nat) (fun t => { pid := t, comm := [] }) 5 false).2

/-- The attach reaches the protected process without a trace. -/
theorem aliased_attach_not_denied :
    ¬DenialComplete registryOfFive (fun t => { pid := t, comm := [] })
      (fun pid => if pid = 5 then some 5 else none) 1 true 9 .native aliasedAttach := by
  intro hcomplete
  have hacts : ActsOnProtected registryOfFive (fun pid => if pid = 5 then some 5 else none)
      9 .native aliasedAttach := by
    refine .inr ⟨by decide, 5, by decide, by decide⟩
  have hreq := (hcomplete.denied hacts).1
  revert hreq
  decide

end Anticheat
