import Anticheat.Kernel.LifecycleCounts

/-!
# The stages of loading and unloading

At each stage of `ac_init` and `ac_exit` it is known which probes may be registered, whether the
work queue is there, whether files can be open, and whether anything can still be running.  The
statements of the loader, of the calls and of the worker keep this.

Main results:

- Theorem {lit}`ModuleSystem.Stages.load`: the statements of `ac_init` and `ac_exit`.
- Theorems {lit}`ModuleSystem.Stages.acted` and {lit}`ModuleSystem.Stages.worked`: those of the
  calls and of the worker.
-/

namespace Anticheat

open Foundation

/-! ## Stages -/

/-- The place of a probe in the order of registration. -/
def AcProbe.index : AcProbe → Nat
  | .ptrace .native => 0
  | .ptrace .compat => 1
  | .exit => 2
  | .execve => 3
  | .execveat => 4
  | .clone => 5

/-- The probes from this one on may be registered. -/
def LoadStage.first : LoadStage → Nat
  | .unregisterKprobe _ i => min i 5
  | .synchronizeKprobe _ i => i + 1
  | .unregisterKretprobe _ => 5
  | .synchronizeKretprobe _ => 6
  | .clearProtected => 6
  | .destroyWorkqueue _ => 6
  | .drainWorkqueue _ => 6
  | .gone _ => 6
  | _ => 0

/-- The probes before this one may be registered. -/
def LoadStage.bound : LoadStage → Nat
  | .registerKprobe i => min i 5
  | .registerKretprobe => 5
  | .miscRegister => 6
  | .live => 6
  | .miscDeregister => 6
  | .unregisterKprobe _ _ => 6
  | .synchronizeKprobe _ _ => 6
  | .unregisterKretprobe _ => 6
  | _ => 0

/-- The probe whose handlers the loader waits for. -/
def LoadStage.waitsFor : LoadStage → Option Nat
  | .synchronizeKprobe _ i => some i
  | .synchronizeKretprobe _ => some 5
  | _ => none

/-- The work queue at this stage. -/
def LoadStage.queue : LoadStage → WorkQueue
  | .createWorkqueue => .absent
  | .drainWorkqueue _ => .draining
  | .gone _ => .absent
  | _ => .live

/-- The registry is empty: nothing was registered yet, or all was cleared. -/
def LoadStage.isEmpty : LoadStage → Bool
  | .live => false
  | .miscDeregister => false
  | .unregisterKprobe .unloaded _ => false
  | .synchronizeKprobe .unloaded _ => false
  | .unregisterKretprobe .unloaded => false
  | .synchronizeKretprobe .unloaded => false
  | .clearProtected => false
  | _ => true

/-- No handler and no ioctl is running. -/
def LoadStage.isIdle : LoadStage → Bool
  | .createWorkqueue => true
  | .clearProtected => true
  | .destroyWorkqueue _ => true
  | .drainWorkqueue _ => true
  | .gone _ => true
  | _ => false

theorem AcProbe.index_of_getElem? {i : Nat} {p : AcProbe} (h : acKprobes[i]? = some p) :
    p.index = i ∧ i < 5 := by
  match i with
  | 0 => cases h; decide
  | 1 => cases h; decide
  | 2 => cases h; decide
  | 3 => cases h; decide
  | 4 => cases h; decide
  | _ + 5 => cases h

theorem AcProbe.five_le_of_getElem? {i : Nat} (h : acKprobes[i]? = none) : 5 ≤ i :=
  List.getElem?_eq_none_iff.1 h

theorem AcProbe.index_lt (p : AcProbe) : p.index < 6 := by
  cases p with
  | ptrace entry => cases entry <;> decide
  | _ => decide

theorem AcProbe.index_inj {p p' : AcProbe} (h : p.index = p'.index) : p = p' := by
  rcases p with ⟨_ | _⟩ | _ | _ | _ | _ <;> rcases p' with ⟨_ | _⟩ | _ | _ | _ | _ <;>
    first | rfl | cases h

theorem ModPlace.request_of_returned {Task Pid : Type} {place : ModPlace Task Pid}
    (h : place.isReturned = true) : place.request = none := by
  cases place <;> first | rfl | cases h

theorem ModPlace.heldTask_of_returned {Task Pid : Type} {place : ModPlace Task Pid}
    (h : place.isReturned = true) : place.heldTask = none := by
  cases place <;> first | rfl | cases h

theorem ModPlace.heldPid_of_returned {Task Pid : Type} {place : ModPlace Task Pid}
    (h : place.isReturned = true) : place.heldPid = none := by
  cases place <;> first | rfl | cases h

theorem ModPlace.registers_of_returned {Task Pid : Type} {place : ModPlace Task Pid}
    (h : place.isReturned = true) : place.registers = false := by
  cases place <;> first | rfl | cases h

namespace ModuleSystem

variable {Task Pid : Type}

/-- What is registered, open, queued and running at each stage of loading and unloading. -/
structure Stages (s : ModuleSystem Task Pid) : Prop where
  queue : s.shared.queue = s.stage.queue
  armed : ∀ p, s.armed p = true → s.stage.first ≤ p.index ∧ p.index < s.stage.bound
  flags : ∀ p, s.stage.first ≤ p.index → s.kpOk p = s.armed p
  running : ∀ c ∈ s.calls, ∀ p, c.site = .probe p → c.place.isReturned = false →
    s.armed p = true ∨ s.stage.waitsFor = some p.index
  opened : ∀ c ∈ s.calls, ∀ f, c.site = .file f → c.place.isReturned = false →
    s.files[f]? = some true
  live : true ∈ s.files → s.stage = .live
  device : s.device = true → s.stage = .live ∨ s.stage = .miscDeregister
  settled : s.stage.queue = .absent → ∀ q ∈ s.shared.requests, q.place = .freed
  empty : s.stage.isEmpty = true →
    s.shared.reg.registered = [] ∧ ∀ c ∈ s.calls, c.place.registers = false
  pins : s.shared.pins.Account ∧ 0 ≤ s.shared.pins.lockCount.toInt

variable {s s' : ModuleSystem Task Pid}

/-- At an idle stage every call has returned. -/
theorem Stages.returned (h : s.Stages) (hidle : s.stage.isIdle = true) {c : ModCall Task Pid}
    (hc : c ∈ s.calls) : c.place.isReturned = true := by
  apply Bool.eq_true_of_not_eq_false
  intro hrunning
  cases hsite : c.site with
  | probe p =>
      have harmed := h.armed p
      rcases h.running c hc p hsite hrunning with hp | hwaits
      · have hbound := (harmed hp).2
        revert hidle hbound
        cases s.stage <;> simp [LoadStage.isIdle, LoadStage.bound]
      · revert hidle hwaits
        cases s.stage <;> simp [LoadStage.isIdle, LoadStage.waitsFor]
  | file f =>
      have hlive := h.live (List.mem_of_getElem? (h.opened c hc f hsite hrunning))
      rw [hlive] at hidle
      cases hidle

/-- A handler or an ioctl that is running has its queue. -/
theorem Stages.queue_live (h : s.Stages) {c : ModCall Task Pid} (hc : c ∈ s.calls)
    (hrunning : c.place.isReturned = false) : s.shared.queue = .live := by
  rw [h.queue]
  cases hidle : s.stage.isIdle with
  | true =>
      rw [h.returned hidle hc] at hrunning
      cases hrunning
  | false =>
      revert hidle
      cases s.stage <;> simp [LoadStage.isIdle, LoadStage.queue]

/-- A statement of the loader: the calls, the files and the pin stay as they are. -/
theorem Stages.moved (h : s.Stages) {stage : LoadStage} {kpOk armed : AcProbe → Bool}
    {device : Bool} {queue : WorkQueue} {reg : Registry Task} (hnotlive : s.stage ≠ .live)
    (hqueue : queue = stage.queue)
    (harmed : ∀ p, armed p = true → stage.first ≤ p.index ∧ p.index < stage.bound)
    (hflags : ∀ p, stage.first ≤ p.index → kpOk p = armed p)
    (hrunning : ∀ c ∈ s.calls, ∀ p, c.site = .probe p → c.place.isReturned = false →
      armed p = true ∨ stage.waitsFor = some p.index)
    (hdevice : device = true → stage = .live ∨ stage = .miscDeregister)
    (hsettled : stage.queue = .absent → ∀ q ∈ s.shared.requests, q.place = .freed)
    (hempty : stage.isEmpty = true →
      reg.registered = [] ∧ ∀ c ∈ s.calls, c.place.registers = false) :
    ({ s with
      stage := stage
      kpOk := kpOk
      armed := armed
      device := device
      shared := { s.shared with queue := queue, reg := reg } } :
        ModuleSystem Task Pid).Stages where
  queue := hqueue
  armed := harmed
  flags := hflags
  running := hrunning
  opened := h.opened
  live hopen := absurd (h.live hopen) hnotlive
  device := hdevice
  settled := hsettled
  empty := hempty
  pins := h.pins

/-- Before the device is registered, and when it no longer is, there is none. -/
theorem Stages.no_device (h : s.Stages) (hlive : s.stage ≠ .live)
    (hdereg : s.stage ≠ .miscDeregister) : s.device = false := by
  apply Bool.eq_false_of_not_eq_true
  intro hdevice
  rcases h.device hdevice with hstage | hstage
  · exact hlive hstage
  · exact hdereg hstage

/-- The loader goes on to its next statement and does nothing else. -/
theorem Stages.next (h : s.Stages) (stage : LoadStage) {old : LoadStage}
    (hstage : s.stage = old) (hlive : old ≠ .live) (hdereg : old ≠ .miscDeregister)
    (hqueue : old.queue = stage.queue)
    (hflags : old.first ≤ stage.first) (hempty : stage.isEmpty = true → old.isEmpty = true)
    (harmed : ∀ p, s.armed p = true → stage.first ≤ p.index ∧ p.index < stage.bound)
    (hrunning : ∀ c ∈ s.calls, ∀ p, c.site = .probe p → c.place.isReturned = false →
      s.armed p = true ∨ stage.waitsFor = some p.index) :
    ({ s with stage := stage } : ModuleSystem Task Pid).Stages := by
  subst old
  apply h.moved hlive (h.queue.trans hqueue) harmed
  · exact fun p hp => h.flags p (hflags.trans hp)
  · exact hrunning
  · exact fun hdevice => absurd hdevice (by rw [h.no_device hlive hdereg]; exact nofun)
  · exact fun habsent => h.settled (hqueue.trans habsent)
  · exact fun hstage => h.empty (hempty hstage)

theorem register_eq {p : AcProbe} (h : s.armed p = false) (ok : Bool) :
    s.register p ok = { s with
      armed := Function.update s.armed p ok
      kpOk := Function.update s.kpOk p ok } := by
  rw [register, h]
  rfl

theorem unregister_eq {p : AcProbe} (h : s.armed p = true) :
    s.unregister p = { s with armed := Function.update s.armed p false } := by
  rw [unregister, h]
  rfl

theorem running_of_quiet {p : AcProbe} (h : s.quiet p = true) {c : ModCall Task Pid}
    (hc : c ∈ s.calls) (hrunning : c.place.isReturned = false) : c.site ≠ .probe p := by
  have hcall := List.all_eq_true.1 h c hc
  rw [hrunning, Bool.or_false] at hcall
  exact bne_iff_ne.1 hcall

/-- The next probe is registered, or cannot be. -/
theorem Stages.register (h : s.Stages) {old stage : LoadStage} {p : AcProbe} (ok : Bool)
    (hstage : s.stage = old) (hlive : old ≠ .live) (hdereg : old ≠ .miscDeregister)
    (hfirst : old.first = 0) (hbound : old.bound = p.index) (hempty : old.isEmpty = true)
    (hwaits : old.waitsFor = none) (hqueue : old.queue = .live) (hfirst' : stage.first = 0)
    (hbound' : stage.bound = p.index + 1) (hqueue' : stage.queue = .live) :
    ({ s.register p ok with stage := stage } : ModuleSystem Task Pid).Stages ∧
      (s.register p ok).shared.faulted = s.shared.faulted := by
  subst old
  have hoff : s.armed p = false := by
    apply Bool.eq_false_of_not_eq_true
    intro hp
    have hlt := (h.armed p hp).2
    omega
  rw [register_eq hoff]
  refine ⟨?_, rfl⟩
  apply h.moved
  case hnotlive => exact hlive
  case hqueue => exact h.queue.trans (hqueue.trans hqueue'.symm)
  case harmed =>
    intro p' hp'
    by_cases heq : p' = p
    · subst heq
      omega
    · have hlt := h.armed p' (by simpa [Function.update_of_ne heq] using hp')
      omega
  case hflags =>
    intro p' _
    by_cases heq : p' = p
    · subst heq
      simp
    · have hsame := h.flags p' (by omega)
      simpa [Function.update_of_ne heq] using hsame
  case hrunning =>
    intro c hc p' hsite hrunning
    rcases h.running c hc p' hsite hrunning with hp' | hw
    · by_cases heq : p' = p
      · subst heq
        rw [hoff] at hp'
        cases hp'
      · exact Or.inl (by simpa [Function.update_of_ne heq] using hp')
    · rw [hwaits] at hw
      cases hw
  case hdevice =>
    exact fun hdevice => absurd hdevice (by rw [h.no_device hlive hdereg]; exact nofun)
  case hsettled => exact fun habsent => nomatch hqueue'.symm.trans habsent
  case hempty => exact fun _ => h.empty hempty

/-- A probe that was registered is taken back; its handlers may still be running. -/
theorem Stages.unregister (h : s.Stages) {old stage : LoadStage} {p : AcProbe}
    (hok : s.kpOk p = true) (hstage : s.stage = old) (hlive : old ≠ .live)
    (hdereg : old ≠ .miscDeregister) (hfirst : old.first = p.index) (hwaits : old.waitsFor = none)
    (hqueue : old.queue = .live) (hempty' : stage.isEmpty = old.isEmpty)
    (hfirst' : stage.first = p.index + 1) (hbound' : p.index < 5 → stage.bound = 6)
    (hwaits' : stage.waitsFor = some p.index) (hqueue' : stage.queue = .live) :
    ({ s.unregister p with stage := stage } : ModuleSystem Task Pid).Stages ∧
      (s.unregister p).shared.faulted = s.shared.faulted := by
  subst old
  have hon : s.armed p = true := by
    rw [← h.flags p (Nat.le_of_eq hfirst)]
    exact hok
  rw [unregister_eq hon]
  refine ⟨?_, rfl⟩
  apply h.moved
  case hnotlive => exact hlive
  case hqueue => exact h.queue.trans (hqueue.trans hqueue'.symm)
  case harmed =>
    intro p' hp'
    have hne : p' ≠ p := by
      rintro rfl
      simp at hp'
    have hrange := h.armed p' (by simpa [Function.update_of_ne hne] using hp')
    have hindex : p'.index ≠ p.index := fun heq => hne (AcProbe.index_inj heq)
    have hlt := p'.index_lt
    omega
  case hflags =>
    intro p' hp'
    have hne : p' ≠ p := by
      rintro rfl
      omega
    have hsame := h.flags p' (by omega)
    simpa [Function.update_of_ne hne] using hsame
  case hrunning =>
    intro c hc p' hsite hrunning
    by_cases heq : p' = p
    · subst heq
      exact Or.inr hwaits'
    · rcases h.running c hc p' hsite hrunning with hp' | hw
      · exact Or.inl (by simpa [Function.update_of_ne heq] using hp')
      · rw [hwaits] at hw
        cases hw
  case hdevice =>
    exact fun hdevice => absurd hdevice (by rw [h.no_device hlive hdereg]; exact nofun)
  case hsettled => exact fun habsent => nomatch hqueue'.symm.trans habsent
  case hempty =>
    rw [hempty']
    exact h.empty

variable [DecidableEq Task]

theorem acClearProtected_registered (r : Registry Task) :
    (acClearProtected r).registered = [] := by
  simp [acClearProtected, foldl_putTaskStruct, Registry.registered, SlotTable.occupied]

/-- When the queue has been drained and nobody is left to queue work, all requests are freed. -/
theorem Stages.all_freed (h : s.Stages) (hreq : s.Requests) (hidle : s.stage.isIdle = true)
    (hdone : (s.shared.requests.all fun q => !pendingWork q) = true) {q : AcKillReq Task Pid}
    (hq : q ∈ s.shared.requests) : q.place = .freed := by
  have hnot := List.all_eq_true.1 hdone q hq
  simp only [pendingWork, Bool.not_eq_true', decide_eq_false_iff_not, not_and, not_not] at hnot
  apply hnot
  intro hfresh
  rcases List.getElem?_of_mem hq with ⟨r, hr⟩
  rcases hreq.owner r q hr hfresh with ⟨c, hc, hrequest⟩
  rw [ModPlace.request_of_returned (h.returned hidle (List.mem_of_getElem? hc))] at hrequest
  cases hrequest

variable {fails : Option Errno}

theorem Stages.createWorkqueue (h : s.Stages) (hstage : s.stage = .createWorkqueue)
    (hload : s.load fails = some s') : s'.Stages ∧ s'.shared.faulted = s.shared.faulted := by
  have hoff : ∀ p, s.armed p ≠ true := by
    intro p hp
    have hlt := (h.armed p hp).2
    rw [hstage] at hlt
    exact absurd hlt (Nat.not_lt_zero _)
  have hreturned : ∀ c ∈ s.calls, c.place.isReturned ≠ false := by
    intro c hc
    rw [h.returned (by rw [hstage]; rfl) hc]
    exact nofun
  cases fails with
  | some e =>
      simp only [ModuleSystem.load, hstage, Option.some.injEq] at hload
      subst hload
      refine ⟨?_, rfl⟩
      apply h.next (.gone (.failed .ENOMEM)) hstage nofun nofun rfl (Nat.zero_le _) id
      · exact fun p hp => absurd hp (hoff p)
      · exact fun c hc p _ hrunning => absurd hrunning (hreturned c hc)
  | none =>
      simp only [ModuleSystem.load, hstage, Option.some.injEq] at hload
      subst hload
      refine ⟨?_, rfl⟩
      apply h.moved (by rw [hstage]; exact nofun) rfl
      case harmed => exact fun p hp => absurd hp (hoff p)
      case hflags => exact fun p _ => h.flags p (by rw [hstage]; exact Nat.zero_le _)
      case hrunning => exact fun c hc p _ hrunning => absurd hrunning (hreturned c hc)
      case hdevice => exact fun hdevice => absurd (h.device hdevice) (by rw [hstage]; exact nofun)
      case hsettled => exact nofun
      case hempty => exact fun _ => h.empty (by rw [hstage]; rfl)

theorem Stages.registerKprobe (h : s.Stages) {i : Nat} (hstage : s.stage = .registerKprobe i)
    (hload : s.load fails = some s') : s'.Stages ∧ s'.shared.faulted = s.shared.faulted := by
  cases hp : acKprobes[i]? with
  | some p =>
      simp only [ModuleSystem.load, hstage, hp, Option.some.injEq] at hload
      subst hload
      rcases AcProbe.index_of_getElem? hp with ⟨rfl, hi⟩
      exact h.register fails.isNone hstage nofun nofun rfl (Nat.min_eq_left (Nat.le_of_lt hi))
        rfl rfl rfl rfl (Nat.min_eq_left hi) rfl
  | none =>
      simp only [ModuleSystem.load, hstage, hp, Option.some.injEq] at hload
      subst hload
      refine ⟨?_, rfl⟩
      apply h.next .registerKretprobe hstage nofun nofun rfl (Nat.le_refl _) id
      · intro p harmed
        have hrange := h.armed p harmed
        rw [hstage] at hrange
        exact ⟨Nat.zero_le _, hrange.2.trans_le (Nat.min_le_right _ _)⟩
      · intro c hc p hsite hrunning
        have hold := h.running c hc p hsite hrunning
        rw [hstage] at hold
        exact hold

theorem Stages.registerKretprobe (h : s.Stages) (hstage : s.stage = .registerKretprobe)
    (hload : s.load fails = some s') : s'.Stages ∧ s'.shared.faulted = s.shared.faulted := by
  cases fails with
  | none =>
      simp only [ModuleSystem.load, hstage, Option.some.injEq] at hload
      subst hload
      exact h.register true hstage nofun nofun rfl rfl rfl rfl rfl rfl rfl rfl
  | some e =>
      simp only [ModuleSystem.load, hstage, Option.some.injEq] at hload
      subst hload
      refine ⟨?_, rfl⟩
      apply h.next .miscRegister hstage nofun nofun rfl (Nat.le_refl _) id
      · exact fun p _ => ⟨Nat.zero_le _, p.index_lt⟩
      · intro c hc p hsite hrunning
        have hold := h.running c hc p hsite hrunning
        rw [hstage] at hold
        exact hold

theorem Stages.miscRegister (h : s.Stages) (hstage : s.stage = .miscRegister)
    (hload : s.load fails = some s') : s'.Stages ∧ s'.shared.faulted = s.shared.faulted := by
  have hrunning : ∀ c ∈ s.calls, ∀ p, c.site = .probe p → c.place.isReturned = false →
      s.armed p = true ∨ none = some p.index := by
    intro c hc p hsite hrunning
    have hold := h.running c hc p hsite hrunning
    rw [hstage] at hold
    exact hold
  cases fails with
  | none =>
      simp only [ModuleSystem.load, hstage, Option.some.injEq] at hload
      subst hload
      refine ⟨?_, rfl⟩
      apply h.moved (by rw [hstage]; exact nofun) (by rw [h.queue, hstage]; rfl)
      case harmed => exact fun p _ => ⟨Nat.zero_le _, p.index_lt⟩
      case hflags => exact fun p _ => h.flags p (by rw [hstage]; exact Nat.zero_le _)
      case hrunning => exact hrunning
      case hdevice => exact fun _ => Or.inl rfl
      case hsettled => exact nofun
      case hempty => exact nofun
  | some e =>
      simp only [ModuleSystem.load, hstage, Option.some.injEq] at hload
      subst hload
      refine ⟨?_, rfl⟩
      apply h.next (.unregisterKprobe (.failed e) 0) hstage nofun nofun rfl (Nat.le_refl _) id
      · exact fun p _ => ⟨Nat.zero_le _, p.index_lt⟩
      · exact hrunning

theorem Stages.miscDeregister (h : s.Stages) (hstage : s.stage = .miscDeregister)
    (hload : s.load fails = some s') : s'.Stages ∧ s'.shared.faulted = s.shared.faulted := by
  simp only [ModuleSystem.load, hstage, Option.some.injEq] at hload
  subst hload
  refine ⟨?_, rfl⟩
  apply h.moved (by rw [hstage]; exact nofun) (by rw [h.queue, hstage]; rfl)
  case harmed => exact fun p _ => ⟨Nat.zero_le _, p.index_lt⟩
  case hflags => exact fun p _ => h.flags p (by rw [hstage]; exact Nat.zero_le _)
  case hrunning =>
    intro c hc p hsite hrunning
    have hold := h.running c hc p hsite hrunning
    rw [hstage] at hold
    exact hold
  case hdevice => exact nofun
  case hsettled => exact nofun
  case hempty => exact nofun

theorem Stages.unregisterKprobe (h : s.Stages) {why : ModEnding} {i : Nat}
    (hstage : s.stage = .unregisterKprobe why i) (hload : s.load fails = some s') :
    s'.Stages ∧ s'.shared.faulted = s.shared.faulted := by
  have hrange : ∀ p, s.armed p = true → min i 5 ≤ p.index := by
    intro p harmed
    have hrange := (h.armed p harmed).1
    rw [hstage] at hrange
    exact hrange
  have hflags : ∀ p, min i 5 ≤ p.index → s.kpOk p = s.armed p :=
    fun p hp => h.flags p (by rw [hstage]; exact hp)
  have hrunning : ∀ c ∈ s.calls, ∀ p, c.site = .probe p → c.place.isReturned = false →
      s.armed p = true ∨ none = some p.index := by
    intro c hc p hsite hrunning
    have hold := h.running c hc p hsite hrunning
    rw [hstage] at hold
    exact hold
  cases hp : acKprobes[i]? with
  | some p =>
      rcases AcProbe.index_of_getElem? hp with ⟨rfl, hi⟩
      have hmin : min p.index 5 = p.index := Nat.min_eq_left (Nat.le_of_lt hi)
      cases hok : s.kpOk p with
      | true =>
          simp only [ModuleSystem.load, hstage, hp, hok, if_true, Option.some.injEq] at hload
          subst hload
          exact h.unregister hok hstage nofun nofun hmin rfl rfl (by cases why <;> rfl) rfl
            (fun _ => rfl) rfl rfl
      | false =>
          simp only [ModuleSystem.load, hstage, hp, hok, Bool.false_eq_true, if_false,
            Option.some.injEq] at hload
          subst hload
          refine ⟨?_, rfl⟩
          have hmin' : min (p.index + 1) 5 = p.index + 1 := Nat.min_eq_left hi
          apply h.next (.unregisterKprobe why (p.index + 1)) hstage nofun nofun rfl
          · simp only [LoadStage.first]
            omega
          · cases why <;> exact id
          · intro p' harmed
            have hle := hrange p' harmed
            have hne : p'.index ≠ p.index := by
              intro heq
              rw [AcProbe.index_inj heq, ← hflags p (Nat.le_of_eq hmin), hok] at harmed
              cases harmed
            refine ⟨?_, p'.index_lt⟩
            simp only [LoadStage.first]
            omega
          · exact hrunning
  | none =>
      have hmin : min i 5 = 5 := Nat.min_eq_right (AcProbe.five_le_of_getElem? hp)
      rw [hmin] at hrange hflags
      simp only [ModuleSystem.load, hstage, hp, Option.some.injEq] at hload
      subst hload
      refine ⟨?_, rfl⟩
      apply h.moved (by rw [hstage]; exact nofun) (by rw [h.queue, hstage]; rfl)
      case harmed => exact fun p harmed => ⟨hrange p harmed, p.index_lt⟩
      case hflags =>
        intro p hfive
        have hclone : p = .clone :=
          AcProbe.index_inj (Nat.le_antisymm (Nat.le_of_lt_succ p.index_lt) hfive)
        subst hclone
        simp [hflags .clone (Nat.le_refl _)]
      case hrunning => exact hrunning
      case hdevice => exact fun hdevice => absurd (h.device hdevice) (by rw [hstage]; exact nofun)
      case hsettled => exact nofun
      case hempty => exact fun hempty => h.empty (by rw [hstage]; cases why <;> exact hempty)

theorem Stages.synchronizeKprobe (h : s.Stages) {why : ModEnding} {i : Nat}
    (hstage : s.stage = .synchronizeKprobe why i) (hload : s.load fails = some s') :
    s'.Stages ∧ s'.shared.faulted = s.shared.faulted := by
  cases hp : acKprobes[i]? with
  | none => simp [ModuleSystem.load, hstage, hp] at hload
  | some p =>
      rcases AcProbe.index_of_getElem? hp with ⟨rfl, hi⟩
      have hmin : min (p.index + 1) 5 = p.index + 1 := Nat.min_eq_left hi
      cases hquiet : s.quiet p with
      | false => simp [ModuleSystem.load, hstage, hp, hquiet] at hload
      | true =>
          simp only [ModuleSystem.load, hstage, hp, hquiet, if_true, Option.some.injEq] at hload
          subst hload
          refine ⟨?_, rfl⟩
          apply h.next (.unregisterKprobe why (p.index + 1)) hstage nofun nofun rfl
          · exact Nat.le_of_eq hmin.symm
          · cases why <;> exact id
          · intro p' harmed
            have hrange := h.armed p' harmed
            rw [hstage] at hrange
            exact ⟨(Nat.le_of_eq hmin).trans hrange.1, hrange.2⟩
          · intro c hc p' hsite hrunning
            have hold := h.running c hc p' hsite hrunning
            rw [hstage] at hold
            rcases hold with hold | hold
            · exact Or.inl hold
            · have hsame : p' = p := AcProbe.index_inj (Option.some.inj hold).symm
              exact absurd (hsame ▸ hsite) (running_of_quiet hquiet hc hrunning)

theorem Stages.unregisterKretprobe (h : s.Stages) {why : ModEnding}
    (hstage : s.stage = .unregisterKretprobe why) (hload : s.load fails = some s') :
    s'.Stages ∧ s'.shared.faulted = s.shared.faulted := by
  cases hok : s.kpOk .clone with
  | true =>
      simp only [ModuleSystem.load, hstage, hok, if_true, Option.some.injEq] at hload
      subst hload
      exact h.unregister hok hstage nofun nofun rfl rfl rfl (by cases why <;> rfl) rfl
        (fun hlt => absurd hlt (Nat.lt_irrefl _)) rfl rfl
  | false =>
      simp only [ModuleSystem.load, hstage, hok, Bool.false_eq_true, if_false,
        Option.some.injEq] at hload
      subst hload
      have hoff : ∀ p, s.armed p ≠ true := by
        intro p harmed
        have hrange := h.armed p harmed
        rw [hstage] at hrange
        have hclone : p = .clone :=
          AcProbe.index_inj (Nat.le_antisymm (Nat.le_of_lt_succ p.index_lt) hrange.1)
        rw [hclone, ← h.flags .clone (by rw [hstage]; exact Nat.le_refl _), hok] at harmed
        cases harmed
      refine ⟨?_, rfl⟩
      apply h.next why.afterProbes hstage nofun nofun
      · cases why <;> rfl
      · cases why <;> exact Nat.le_succ _
      · cases why
        · exact id
        · exact nofun
      · exact fun p harmed => absurd harmed (hoff p)
      · intro c hc p hsite hrunning
        have hold := h.running c hc p hsite hrunning
        rw [hstage] at hold
        rcases hold with hold | hold
        · exact absurd hold (hoff p)
        · cases hold

theorem Stages.synchronizeKretprobe (h : s.Stages) {why : ModEnding}
    (hstage : s.stage = .synchronizeKretprobe why) (hload : s.load fails = some s') :
    s'.Stages ∧ s'.shared.faulted = s.shared.faulted := by
  have hoff : ∀ p, s.armed p ≠ true := by
    intro p harmed
    have hrange := (h.armed p harmed).2
    rw [hstage] at hrange
    exact absurd hrange (Nat.not_lt_zero _)
  cases hquiet : s.quiet .clone with
  | false => simp [ModuleSystem.load, hstage, hquiet] at hload
  | true =>
      simp only [ModuleSystem.load, hstage, hquiet, if_true, Option.some.injEq] at hload
      subst hload
      refine ⟨?_, rfl⟩
      apply h.moved (by rw [hstage]; exact nofun)
      case hqueue => rw [h.queue, hstage]; cases why <;> rfl
      case harmed => exact fun p harmed => absurd harmed (hoff p)
      case hflags =>
        intro p hsix
        have hlt := p.index_lt
        have hfirst : why.afterProbes.first = 6 := by cases why <;> rfl
        omega
      case hrunning =>
        intro c hc p hsite hrunning
        have hold := h.running c hc p hsite hrunning
        rw [hstage] at hold
        rcases hold with hold | hold
        · exact absurd hold (hoff p)
        · have hsame : p = .clone := AcProbe.index_inj (Option.some.inj hold).symm
          exact absurd (hsame ▸ hsite) (running_of_quiet hquiet hc hrunning)
      case hdevice => exact fun hdevice => absurd (h.device hdevice) (by rw [hstage]; exact nofun)
      case hsettled => cases why <;> exact nofun
      case hempty =>
        cases why with
        | failed ret => exact fun _ => h.empty (by rw [hstage]; rfl)
        | unloaded => exact nofun

omit [DecidableEq Task] in
/-- At the last stages nothing is registered and nothing is running, whatever the loader does to
the registry and the queue. -/
theorem Stages.ending (h : s.Stages) (stage : LoadStage) {old : LoadStage} {queue : WorkQueue}
    {reg : Registry Task} (hstage : s.stage = old) (hidle : old.isIdle = true)
    (hbound : old.bound = 0) (hfirst' : stage.first = 6) (hlive : old ≠ .live)
    (hdereg : old ≠ .miscDeregister) (hqueue : queue = stage.queue)
    (hsettled : stage.queue = .absent → ∀ q ∈ s.shared.requests, q.place = .freed)
    (hreg : reg.registered = []) :
    ({ s with
      stage := stage
      shared := { s.shared with queue := queue, reg := reg } } : ModuleSystem Task Pid).Stages := by
  subst old
  have hreturned : ∀ c ∈ s.calls, c.place.isReturned = true := fun c hc => h.returned hidle hc
  apply h.moved hlive hqueue
  case harmed =>
    intro p harmed
    have hlt := (h.armed p harmed).2
    omega
  case hflags =>
    intro p hsix
    have hlt := p.index_lt
    omega
  case hrunning =>
    intro c hc p _ hrunning
    rw [hreturned c hc] at hrunning
    cases hrunning
  case hdevice =>
    exact fun hdevice => absurd hdevice (by rw [h.no_device hlive hdereg]; exact nofun)
  case hsettled => exact hsettled
  case hempty =>
    refine fun _ => ⟨hreg, fun c hc => ?_⟩
    exact ModPlace.registers_of_returned (hreturned c hc)

theorem Stages.clearProtected (h : s.Stages) (hstage : s.stage = .clearProtected)
    (hload : s.load fails = some s') : s'.Stages ∧ s'.shared.faulted = s.shared.faulted := by
  simp only [ModuleSystem.load, hstage, Option.some.injEq] at hload
  subst hload
  refine ⟨?_, rfl⟩
  apply h.ending (.destroyWorkqueue .unloaded) hstage rfl rfl rfl nofun nofun
  · rw [h.queue, hstage]
    rfl
  · exact nofun
  · exact acClearProtected_registered s.shared.reg

theorem Stages.destroyWorkqueue (h : s.Stages) {why : ModEnding}
    (hstage : s.stage = .destroyWorkqueue why) (hload : s.load fails = some s') :
    s'.Stages ∧ s'.shared.faulted = s.shared.faulted := by
  have hqueue : s.shared.queue = .live := by
    rw [h.queue, hstage]
    rfl
  simp only [ModuleSystem.load, hstage, hqueue, if_true, Option.some.injEq] at hload
  subst hload
  refine ⟨?_, rfl⟩
  apply h.ending (.drainWorkqueue why) hstage rfl rfl rfl nofun nofun rfl nofun
  exact (h.empty (by rw [hstage]; rfl)).1

theorem Stages.drainWorkqueue (h : s.Stages) (hreq : s.Requests) {why : ModEnding}
    (hstage : s.stage = .drainWorkqueue why) (hload : s.load fails = some s') :
    s'.Stages ∧ s'.shared.faulted = s.shared.faulted := by
  by_cases hdone : (s.shared.requests.all fun q => !pendingWork q) = true
  · simp only [ModuleSystem.load, hstage, hdone, if_true, Option.some.injEq] at hload
    subst hload
    refine ⟨?_, rfl⟩
    apply h.ending (.gone why) hstage rfl rfl rfl nofun nofun rfl
    · exact fun _ q hq => h.all_freed hreq (by rw [hstage]; rfl) hdone hq
    · exact (h.empty (by rw [hstage]; rfl)).1
  · simp [ModuleSystem.load, hstage, hdone] at hload

/-- The statements of `ac_init` and `ac_exit` keep the order of loading and unloading, and none
of them faults. -/
theorem Stages.load (h : s.Stages) (hreq : s.Requests) (hload : s.load fails = some s') :
    s'.Stages ∧ s'.shared.faulted = s.shared.faulted := by
  cases hstage : s.stage with
  | createWorkqueue => exact h.createWorkqueue hstage hload
  | registerKprobe i => exact h.registerKprobe hstage hload
  | registerKretprobe => exact h.registerKretprobe hstage hload
  | miscRegister => exact h.miscRegister hstage hload
  | live => simp [ModuleSystem.load, hstage] at hload
  | miscDeregister => exact h.miscDeregister hstage hload
  | unregisterKprobe why i => exact h.unregisterKprobe hstage hload
  | synchronizeKprobe why i => exact h.synchronizeKprobe hstage hload
  | unregisterKretprobe why => exact h.unregisterKretprobe hstage hload
  | synchronizeKretprobe why => exact h.synchronizeKretprobe hstage hload
  | clearProtected => exact h.clearProtected hstage hload
  | destroyWorkqueue why => exact h.destroyWorkqueue hstage hload
  | drainWorkqueue why => exact h.drainWorkqueue hreq hstage hload
  | gone why => simp [ModuleSystem.load, hstage] at hload

end ModuleSystem

/-! ## Calls and workers at a stage -/

section Actions

variable {Task Pid : Type} [DecidableEq Task]

/-- A call that executes a statement has not returned. -/
theorem ModCall.running_of_plan {c c' : ModCall Task Pid} {tasks : TaskTable Task Pid}
    {k : KernelAnswers Task Pid} {live : Bool} {sh : ModShared Task Pid}
    {a : ModAction Task Pid} (h : c.plan tasks k live sh = some (a, c')) :
    c.place.isReturned = false := by
  cases hplace : c.place with
  | returned ret => simp [ModCall.plan, hplace] at h
  | _ => rfl

theorem acDelProtTask_of_not_mem {r : Registry Task} {t : Task} (h : t ∉ r.registered) :
    acDelProtTask r t = r := by
  unfold acDelProtTask
  cases hscan : r.prots.scan AcProtEntry.task t with
  | hit i => exact absurd ((SlotTable.scan_hit_iff AcProtEntry.task t r.prots).1 ⟨i, hscan⟩) h
  | miss free => rfl

variable [DecidableEq Pid] {sh : ModShared Task Pid} {a : ModAction Task Pid}

/-- Only a registration fills an empty registry. -/
theorem ModAction.run_registered (i : Nat) (h : sh.reg.registered = [])
    (ha : ∀ info t jit, a ≠ .addProt info t jit) : (a.run i sh).reg.registered = [] := by
  cases a with
  | addProt info t jit => exact absurd rfl (ha info t jit)
  | delProt t =>
      have hnot : t ∉ sh.reg.registered := by
        rw [h]
        exact List.not_mem_nil
      simp only [ModAction.run, acDelProtTask_of_not_mem hnot]
      exact h
  | _ =>
      simp only [ModAction.run]
      (repeat' split) <;> exact h

end Actions

section Pins

variable {Task Pid : Type} {tasks : TaskTable Task Pid} {sh : ModShared Task Pid}
  {c : ModCall Task Pid} {a : ModAction Task Pid} {place place' : ModPlace Task Pid}

/-- The pin moves by the steps of LOCK and UNLOCK. -/
theorem ModCall.Goes.pins (h : c.Goes tasks sh place a place') {pins : PinState}
    (ha : a = .setPins pins) :
    (∃ cmd, sh.pins.step (.enter cmd) = some pins) ∨
      ∃ call live, place = .pin call ∧ sh.pins.step (.advance call live) = some pins := by
  subst ha
  cases h with
  | pinEntered cmd => exact Or.inl ⟨cmd, rfl⟩
  | pinned call live pins hstep => exact Or.inr ⟨call, live, rfl, hstep⟩
  | pinDone call live pins ret hstep => exact Or.inr ⟨call, live, rfl, hstep⟩

variable {r : Nat} {q : AcKillReq Task Pid} {at' at'' : WorkPlace Task}

theorem AcKillReq.Goes.heldPid_old (h : q.Goes tasks r q.place a at'') {p : Pid}
    (hp : AcKillReq.heldPid { q with place := at'' } = some p) : q.heldPid = some p := by
  unfold AcKillReq.heldPid at hp ⊢
  generalize q.place = here at h
  cases h <;> first | exact hp | cases hp

theorem AcKillReq.Goes.heldTask_old (h : q.Goes tasks r q.place a at'') {t : Task}
    (ht : AcKillReq.heldTask { q with place := at'' } = some t) :
    q.heldTask = some t ∨ ∃ p, q.heldPid = some p ∧ tasks.attached p = some t := by
  unfold AcKillReq.heldTask at ht ⊢
  unfold AcKillReq.heldPid
  generalize q.place = here at h
  cases h with
  | found t' hfound =>
      cases ht
      exact Or.inr (Option.bind_eq_some_iff.1 hfound)
  | sent t' => exact Or.inl ht
  | missing => cases ht
  | taskPut t' => cases ht
  | pidPut p hp => cases ht
  | noPid hp => cases ht
  | freed => cases ht

theorem AcKillReq.Goes.not_freed (h : q.Goes tasks r at' a at'') : at' ≠ .freed := by
  cases h <;> exact nofun

theorem AcKillReq.Goes.not_addProt (h : q.Goes tasks r at' a at'') (info : Task → TaskInfo)
    (t : Task) (jit : Bool) : a ≠ .addProt info t jit := by
  cases h <;> exact nofun

theorem AcKillReq.Goes.not_setPins (h : q.Goes tasks r at' a at'') (pins : PinState) :
    a ≠ .setPins pins := by
  cases h <;> exact nofun

end Pins

namespace ModuleSystem

variable {Task Pid : Type} [DecidableEq Task] [DecidableEq Pid] {s s' : ModuleSystem Task Pid}
  {i r : Nat} {c c' : ModCall Task Pid} {a : ModAction Task Pid} {q : AcKillReq Task Pid}
  {place : WorkPlace Task}

/-- The call on the pin that a step belongs to. -/
def pinCall (s : ModuleSystem Task Pid) : ModuleStep Task Pid → Option Nat
  | .advance i _ =>
      match s.calls[i]?.map ModCall.place with
      | some (.pin call) => some call
      | _ => none
  | _ => none

/-- A step of UNLOCK or LOCK does not decrement a counter that is no longer positive, or increment
the largest one. -/
def PinInRange (s : ModuleSystem Task Pid) (l : ModuleStep Task Pid) : Prop :=
  match s.pinCall l with
  | some call => s.shared.pins.CounterInRange (.advance call true)
  | none => True

instance (pins : PinState) : (l : PinStep) → Decidable (pins.CounterInRange l)
  | .enter _ => .isTrue trivial
  | .advance _ _ => inferInstanceAs (Decidable ((_ → _) ∧ (_ → _)))

instance (s : ModuleSystem Task Pid) (l : ModuleStep Task Pid) : Decidable (s.PinInRange l) :=
  match h : s.pinCall l with
  | some call =>
      decidable_of_iff (s.shared.pins.CounterInRange (.advance call true))
        (by simp only [PinInRange, h])
  | none => .isTrue (by simp only [PinInRange, h])

theorem Stages.acted (h : s.Stages) (hc : s.calls[i]? = some c)
    (hrunning : c.place.isReturned = false)
    (hgoes : c.Goes s.tasks s.shared c.place a c'.place) (hsite : c'.site = c.site)
    (hrange : ∀ call, c.place = .pin call → s.shared.pins.CounterInRange (.advance call true)) :
    (s.acted i a c').Stages where
  queue := (ModAction.run_queue i).trans h.queue
  armed := h.armed
  flags := h.flags
  running := by
    intro d hd p hdsite hdrunning
    rcases List.mem_or_eq_of_mem_set hd with hd | rfl
    · exact h.running d hd p hdsite hdrunning
    · exact h.running c (List.mem_of_getElem? hc) p (hsite.symm.trans hdsite) hrunning
  opened := by
    intro d hd f hdsite hdrunning
    rcases List.mem_or_eq_of_mem_set hd with hd | rfl
    · exact h.opened d hd f hdsite hdrunning
    · exact h.opened c (List.mem_of_getElem? hc) f (hsite.symm.trans hdsite) hrunning
  live := h.live
  device := h.device
  settled := by
    intro habsent
    have hlive := h.queue_live (List.mem_of_getElem? hc) hrunning
    rw [h.queue] at hlive
    exact nomatch hlive.symm.trans habsent
  empty := by
    intro hempty
    rcases h.empty hempty with ⟨hreg, hcalls⟩
    have hplace := hcalls c (List.mem_of_getElem? hc)
    constructor
    · apply ModAction.run_registered i hreg
      rintro info t jit rfl
      rw [hgoes.registers_of_addProt rfl] at hplace
      cases hplace
    · intro d hd
      rcases List.mem_or_eq_of_mem_set hd with hd | rfl
      · exact hcalls d hd
      · apply hgoes.registers hplace
        rw [hreg]
        exact List.not_mem_nil
  pins := by
    by_cases hpins : ∃ pins, a = .setPins pins
    · rcases hpins with ⟨pins, rfl⟩
      rcases hgoes.pins rfl with ⟨cmd, hstep⟩ | ⟨call, live, hplace, hstep⟩
      · rcases h.pins.1.step_iff h.pins.2 hstep with ⟨hiff, hkeep⟩
        exact ⟨hkeep (hiff.2 trivial), hiff.2 trivial⟩
      · rcases h.pins.1.step_iff h.pins.2 hstep with ⟨hiff, hkeep⟩
        have hnonneg := hiff.2 (hrange call hplace)
        exact ⟨hkeep hnonneg, hnonneg⟩
    · have hsame : (a.run i s.shared).pins = s.shared.pins :=
        ModAction.run_pins i fun pins hpin => hpins ⟨pins, hpin⟩
      simp only [ModuleSystem.acted, hsame]
      exact h.pins

theorem Stages.worked (h : s.Stages) (hq : s.shared.requests[r]? = some q)
    (hgoes : q.Goes s.tasks r q.place a place) : (s.worked r q a place).Stages where
  queue := (ModAction.run_queue q.call).trans h.queue
  armed := h.armed
  flags := h.flags
  running := h.running
  opened := h.opened
  live := h.live
  device := h.device
  settled := by
    intro habsent
    have hfreed := h.settled habsent q (List.mem_of_getElem? hq)
    exact absurd hfreed hgoes.not_freed
  empty := by
    intro hempty
    rcases h.empty hempty with ⟨hreg, hcalls⟩
    refine ⟨?_, hcalls⟩
    apply ModAction.run_registered q.call hreg
    exact hgoes.not_addProt
  pins := by
    have hsame : (a.run q.call s.shared).pins = s.shared.pins :=
      ModAction.run_pins q.call hgoes.not_setPins
    simp only [ModuleSystem.worked, hsame]
    exact h.pins

end ModuleSystem

end Anticheat
