import Anticheat.Kernel.SnapshotCalls

/-!
# The record of concurrent snapshot calls

An ioctl takes effect when it releases the lock of the state, or when it finds that it has no
state to work on.  What is known of the calls at any moment has three parts: the record agrees
with calls that run one after another, every call stands where its steps have brought it, and
the states that have been freed are those of released files.  Here is what each part needs to
survive a step.

Main results:

- Theorem {lit}`SnapSystem.Agrees.apply`: a call that finds a state does to the file what it
  does to the state.
- Theorems {lit}`SnapSystem.Linear.record` and {lit}`SnapSystem.Linear.silent`: steps at which
  a call takes effect, and steps that nobody sees.
- Theorem {lit}`SnapSystem.Running.advance`: a step of one call leaves the others where they
  were.
-/

namespace Anticheat

open Foundation

variable {File : Type}

namespace SnapSystem

variable [DecidableEq File]

/-! ## The invariant -/

omit [DecidableEq File] in
/-- A state that was allocated and not begun yet is as good as none. -/
def Agrees (abstract concrete : Option AcFdState) : Prop :=
  abstract = concrete ∨ (abstract = none ∧ concrete = some {})

/-- The calls of the record, one after another. -/
def spec (s : SnapSystem File) : SnapState File :=
  snapRun (s.history.map fun e => (e.2.file, e.2.capable, e.2.call))

omit [DecidableEq File] in
/-- The state of a file to everyone who does not hold its lock. -/
def contents (s : SnapSystem File) (f : File) : Option AcFdState :=
  (s.fd.privateData f).map fun st => (s.locks.saved st).view

omit [DecidableEq File] in
/-- The call has taken effect, with this answer. -/
def Took (s : SnapSystem File) (i : Nat) (r : SnapRequest File)
    (reply : Except Errno SnapReply) : Prop :=
  ∃ fdAlloc, (i, event r fdAlloc reply) ∈ s.history

omit [DecidableEq File] in
/-- The call has not taken effect. -/
def Fresh (s : SnapSystem File) (i : Nat) : Prop :=
  ∀ e, (i, e) ∉ s.history

omit [DecidableEq File] in
/-- What is known of a call at its stage. -/
def Stands (s : SnapSystem File) (i : Nat) (r : SnapRequest File) : Prop :=
  match r.stage with
  | .entry => s.Fresh i
  | .load => s.Fresh i ∧ r.capable = true ∧ r.call.isBegin = false
  | .copyIn none =>
      r.capable = true ∧ (if r.call.isBegin then s.Fresh i else s.Took i r (.error .EINVAL))
  | .copyIn (some st) =>
      s.Fresh i ∧ r.capable = true ∧ r.call.isBegin = false ∧
        s.fd.privateData r.file = some st
  | .getState j =>
      r.capable = true ∧ r.call.isBegin = true ∧ ∃ c, s.fd.calls[j]? = some c ∧
        c.file = r.file ∧
          (if c.phase.failed then s.Took i r (.error .ENOMEM) else s.Fresh i)
  | .locked j =>
      r.capable = true ∧ ∃ c, s.locks.calls[j]? = some c ∧
        s.fd.privateData r.file = some c.object ∧ c.op = r.call.withAlloc true ∧
          (match c.phase with
          | .returned reply => s.Took i r reply
          | .waiting | .inside _ => s.Fresh i)
  | .copyOut reply => s.Took i r (.ok reply)
  | .returned reply => reply = .error .EFAULT ∨ s.Took i r reply

/-- The record agrees with calls that run one after another. -/
structure Linear (s : SnapSystem File) : Prop where
  replay : s.spec.trace = s.history.map Prod.snd
  agrees : ∀ f, Agrees (s.spec.files f) (s.contents f)
  untouched : ∀ st, (∀ f, s.fd.privateData f ≠ some st) → s.locks.saved st = {}
  once : (s.history.map Prod.fst).Nodup
  own : ∀ e ∈ s.history, ∃ r fdAlloc reply, s.requests[e.1]? = some r ∧
    e.2 = event r fdAlloc reply

/-- The calls that are under way. -/
structure Running (s : SnapSystem File) : Prop where
  stands : ∀ (i : Nat) (r : SnapRequest File), s.requests[i]? = some r → s.Stands i r
  /-- no two calls of `ac_ioctl` are in one call of another function -/
  owner : ∀ (i i' : Nat) (r r' : SnapRequest File) (k : SnapSub), s.requests[i]? = some r →
    s.requests[i']? = some r' → r.stage.sub = some k → r'.stage.sub = some k → i = i'
  busy : ∀ (j : Nat) (c : SnapLockCall), s.locks.calls[j]? = some c →
    c.phase.isReturned = false → ∃ (i : Nat) (r : SnapRequest File),
      s.requests[i]? = some r ∧ r.stage = .locked j
  asking : ∀ (j : Nat) (c : FdCall File), s.fd.calls[j]? = some c →
    c.phase.isReturned = false → ∃ (i : Nat) (r : SnapRequest File),
      s.requests[i]? = some r ∧ r.stage = .getState j
  opened : ∀ (i : Nat) (r : SnapRequest File), s.requests[i]? = some r →
    r.stage.isReturned = false → s.fileStage r.file = .opened

/-- The states of released files, and only these, have been freed, with their arrays. -/
structure Freed (s : SnapSystem File) : Prop where
  disposed : ∀ st, s.locks.disposed st = true →
    ∃ f, s.fd.privateData f = some st ∧ s.fileStage f = .released
  released : ∀ f st, s.fileStage f = .released → s.fd.privateData f = some st →
    s.locks.disposed st = true
  clean : ∀ st, s.locks.disposed st = true → (s.locks.data st).faulted = false ∧
    ∀ b, (s.locks.data st).isLive b = false
  unfaulted : s.faulted = false

structure Inv (s : SnapSystem File) : Prop where
  fd : s.fd.Inv
  locks : s.locks.Inv snapRefinement
  linear : s.Linear
  running : s.Running
  freed : s.Freed

theorem inv_initial : (initial : SnapSystem File).Inv where
  fd := FdSystem.inv_initial
  locks := LockedObjects.System.inv_initial
    ⟨⟨rfl, rfl, fun b h => by simp [FdMemory.isLive] at h⟩, Or.inl ⟨rfl, rfl⟩,
      Or.inl ⟨rfl, rfl⟩⟩
  linear := {
    replay := rfl
    agrees := fun _ => Or.inl rfl
    untouched := fun _ _ => rfl
    once := List.nodup_nil
    own := by simp [initial] }
  running := {
    stands := by simp [initial]
    owner := by simp [initial]
    busy := by simp [initial, LockedObjects.System.initial]
    asking := by simp [initial, FdSystem.initial]
    opened := by simp [initial] }
  freed := {
    disposed := by simp [initial, LockedObjects.System.initial]
    released := by simp [initial]
    clean := by simp [initial, LockedObjects.System.initial]
    unfaulted := rfl }

/-! ## Calls that run at once -/

omit [DecidableEq File] in
theorem Agrees.eq_none {o : Option AcFdState} (h : Agrees o none) : o = none := by
  rcases h with h | ⟨h, -⟩
  · exact h
  · exact h

/-- A file without a state has nothing to get. -/
theorem acIoctlSnap_get {call : SnapCall} (hget : call.isGet = true) :
    acIoctlSnap true (call.withAlloc true) none = (.error .EINVAL, none) := by
  cases call with
  | scanGet index => rfl
  | modsGet index => rfl
  | scanBegin | scanEnd | modsBegin | modsEnd => cases hget

/-- A file without a state has nothing to end. -/
theorem acIoctlSnap_end {call : SnapCall} (hget : call.isGet = false)
    (hbegin : call.isBegin = false) :
    acIoctlSnap true (call.withAlloc true) none = (.ok .done, none) := by
  cases call with
  | scanEnd => rfl
  | modsEnd => rfl
  | scanGet | modsGet => cases hget
  | scanBegin | modsBegin => cases hbegin

/-- A BEGIN that cannot allocate a state leaves the file without one. -/
theorem acIoctlSnap_begin {call : SnapCall} (hbegin : call.isBegin = true) :
    acIoctlSnap true (call.withAlloc false) none = (.error .ENOMEM, none) := by
  cases call with
  | scanBegin => rfl
  | modsBegin => rfl
  | scanGet | scanEnd | modsGet | modsEnd => cases hbegin

/-- A call on a file with a state leaves it one. -/
theorem acIoctlSnap_some (call : SnapCall) (st : AcFdState) :
    (acIoctlSnap true call (some st)).2 = some (applySnap call st).2 := by
  unfold applySnap
  cases call with
  | scanBegin fdAlloc env pid emitEvents =>
      simp only [acIoctlSnap, acIoctlScanBegin, acGetFdState, Bool.not_true, Bool.false_eq_true,
        if_false]
      rcases acBuildVmaSnapshot env pid emitEvents st with ⟨_ | _, st', _⟩ <;> rfl
  | modsBegin fdAlloc alloc walk =>
      simp only [acIoctlSnap, acIoctlModsBegin, acGetFdState, Bool.not_true, Bool.false_eq_true,
        if_false]
      rcases acBuildModSnapshot alloc walk st with ⟨_ | _, st'⟩ <;> rfl
  | scanGet index => rfl
  | scanEnd => rfl
  | modsGet index => rfl
  | modsEnd => rfl

/-- A call that finds a state does to the file what it does to the state. -/
theorem Agrees.apply {o : Option AcFdState} {st : AcFdState} (h : Agrees o (some st))
    (call : SnapCall) :
    (acIoctlSnap true (call.withAlloc true) o).1 = (applySnap (call.withAlloc true) st).1 ∧
      Agrees (acIoctlSnap true (call.withAlloc true) o).2
        (some (applySnap (call.withAlloc true) st).2) := by
  rcases h with rfl | ⟨rfl, hst⟩
  · exact ⟨rfl, Or.inl (acIoctlSnap_some _ _)⟩
  · cases hst
    have hbegin : ∀ call' : SnapCall,
        acIoctlSnap true call' none = acIoctlSnap true call' (some {}) →
        (acIoctlSnap true call' none).1 = (applySnap call' {}).1 ∧
          Agrees (acIoctlSnap true call' none).2 (some (applySnap call' {}).2) := by
      intro call' heq
      rw [heq]
      exact ⟨rfl, Or.inl (acIoctlSnap_some _ _)⟩
    cases call with
    | scanBegin fdAlloc env pid emitEvents => exact hbegin _ rfl
    | modsBegin fdAlloc alloc walk => exact hbegin _ rfl
    | scanGet index => exact ⟨rfl, Or.inr ⟨rfl, rfl⟩⟩
    | scanEnd => exact ⟨rfl, Or.inr ⟨rfl, rfl⟩⟩
    | modsGet index => exact ⟨rfl, Or.inr ⟨rfl, rfl⟩⟩
    | modsEnd => exact ⟨rfl, Or.inr ⟨rfl, rfl⟩⟩

/-! ## The record -/

section

variable {s s' : SnapSystem File} {i : Nat} {r : SnapRequest File}

omit [DecidableEq File] in
/-- No step changes what a call was made with. -/
def KeepsCalls (s s' : SnapSystem File) : Prop :=
  ∀ (i : Nat) (r : SnapRequest File), s.requests[i]? = some r →
    ∃ stage, s'.requests[i]? = some { r with stage := stage }

omit [DecidableEq File] in
theorem keepsCalls_refl (hrequests : s'.requests = s.requests) : s.KeepsCalls s' := by
  intro i r hr
  rw [hrequests]
  exact ⟨r.stage, hr⟩

omit [DecidableEq File] in
theorem keepsCalls_set {stage : SnapStage} (hr : s.requests[i]? = some r)
    (hrequests : s'.requests = s.requests.set i { r with stage := stage }) :
    s.KeepsCalls s' := by
  intro i' r' hr'
  rw [hrequests]
  by_cases hii : i = i'
  · subst hii
    rw [hr, Option.some.injEq] at hr'
    subst hr'
    exact ⟨stage, List.getElem?_set_self (List.getElem?_eq_some_iff.1 hr).1⟩
  · rw [List.getElem?_set_ne hii]
    exact ⟨r'.stage, hr'⟩

theorem spec_concat {fdAlloc : Bool} {reply : Except Errno SnapReply}
    (hhistory : s'.history = s.history ++ [(i, event r fdAlloc reply)]) :
    s'.spec = s.spec.step (r.file, r.capable, r.call.withAlloc fdAlloc) := by
  simp [spec, hhistory, snapRun, List.foldl_append, event]

/-- A call takes effect: it answers what it would have answered if it had run at once. -/
theorem Linear.record (h : s.Linear) (hr : s.requests[i]? = some r) (hfresh : s.Fresh i)
    {fdAlloc : Bool} {reply : Except Errno SnapReply}
    (hhistory : s'.history = s.history ++ [(i, event r fdAlloc reply)])
    (hrequests : s.KeepsCalls s')
    (hreply : (acIoctlSnap r.capable (r.call.withAlloc fdAlloc) (s.spec.files r.file)).1 = reply)
    (hagrees : Agrees
      (acIoctlSnap r.capable (r.call.withAlloc fdAlloc) (s.spec.files r.file)).2
      (s'.contents r.file))
    (hothers : ∀ f, f ≠ r.file → s'.contents f = s.contents f)
    (huntouched : ∀ st, (∀ f, s'.fd.privateData f ≠ some st) → s'.locks.saved st = {}) :
    s'.Linear where
  replay := by
    rw [spec_concat hhistory, hhistory, List.map_append, ← h.replay, ← hreply]
    rfl
  agrees := by
    intro f
    rw [spec_concat hhistory]
    change Agrees (Function.update s.spec.files r.file _ f) _
    by_cases hf : f = r.file
    · subst hf
      rw [Function.update_self]
      exact hagrees
    · rw [Function.update_of_ne hf, hothers f hf]
      exact h.agrees f
  untouched := huntouched
  once := by
    rw [hhistory, List.map_append, List.nodup_append]
    refine ⟨h.once, List.nodup_singleton _, ?_⟩
    rintro n hn n' hn' rfl
    rw [List.map_singleton, List.mem_singleton] at hn'
    rcases List.mem_map.1 hn with ⟨⟨n', e⟩, he, rfl⟩
    exact hfresh e (by rwa [show i = n' from hn'.symm])
  own := by
    intro e he
    rw [hhistory, List.mem_append, List.mem_singleton] at he
    rcases he with he | rfl
    · rcases h.own e he with ⟨r', fdAlloc', reply', hr', he'⟩
      rcases hrequests _ _ hr' with ⟨stage, hstage⟩
      exact ⟨_, fdAlloc', reply', hstage, he'⟩
    · rcases hrequests _ _ hr with ⟨stage, hstage⟩
      exact ⟨_, fdAlloc, reply, hstage, rfl⟩

/-- A step that is not seen by the others. -/
theorem Linear.silent (h : s.Linear) (hhistory : s'.history = s.history)
    (hrequests : s.KeepsCalls s')
    (hagrees : ∀ f, Agrees (s.spec.files f) (s'.contents f))
    (huntouched : ∀ st, (∀ f, s'.fd.privateData f ≠ some st) → s'.locks.saved st = {}) :
    s'.Linear := by
  have hspec : s'.spec = s.spec := by rw [spec, hhistory, spec]
  refine ⟨by rw [hspec, hhistory]; exact h.replay, ?_, huntouched, by rw [hhistory]; exact h.once,
    ?_⟩
  · rw [hspec]
    exact hagrees
  · intro e he
    rw [hhistory] at he
    rcases h.own e he with ⟨r', fdAlloc', reply', hr', he'⟩
    rcases hrequests _ _ hr' with ⟨stage, hstage⟩
    exact ⟨_, fdAlloc', reply', hstage, he'⟩

/-! ## The calls under way -/

omit [DecidableEq File] in
theorem Stands.frame (h : s.Stands i r)
    (hdata : ∀ f st, s.fd.privateData f = some st → s'.fd.privateData f = some st)
    (hfd : ∀ j c, r.stage = .getState j → s.fd.calls[j]? = some c → s'.fd.calls[j]? = some c)
    (hlocks : ∀ j c, r.stage = .locked j → s.locks.calls[j]? = some c →
      s'.locks.calls[j]? = some c)
    (hhistory : ∀ e, (i, e) ∈ s'.history ↔ (i, e) ∈ s.history) : s'.Stands i r := by
  have hfresh : s.Fresh i → s'.Fresh i := fun hfresh e he => hfresh e ((hhistory e).1 he)
  have htook : ∀ reply, s.Took i r reply → s'.Took i r reply := by
    rintro reply ⟨fdAlloc, he⟩
    exact ⟨fdAlloc, (hhistory _).2 he⟩
  unfold Stands at h ⊢
  split at h
  · exact hfresh h
  · exact ⟨hfresh h.1, h.2⟩
  · refine ⟨h.1, ?_⟩
    split_ifs
    · exact hfresh (by simpa [*] using h.2)
    · exact htook _ (by simpa [*] using h.2)
  · exact ⟨hfresh h.1, h.2.1, h.2.2.1, hdata _ _ h.2.2.2⟩
  · rename_i j hstage
    rcases h with ⟨hcapable, hbegin, c, hc, hfile, hphase⟩
    refine ⟨hcapable, hbegin, c, hfd j c hstage hc, hfile, ?_⟩
    split_ifs with hfailed
    · exact htook _ (by simpa [hfailed] using hphase)
    · exact hfresh (by simpa [hfailed] using hphase)
  · rename_i j hstage
    rcases h with ⟨hcapable, c, hc, hfile, hop, hphase⟩
    refine ⟨hcapable, c, hlocks j c hstage hc, hdata _ _ hfile, hop, ?_⟩
    split at hphase
    · exact htook _ hphase
    · exact hfresh hphase
    · exact hfresh hphase
  · exact htook _ h
  · rcases h with h | h
    · exact Or.inl h
    · exact Or.inr (htook _ h)

omit [DecidableEq File] in
/-- A step of the call `i`: the other calls are where they were, and so are the calls that
they are in. -/
theorem Running.advance (h : s.Running) (hr : s.requests[i]? = some r) {stage : SnapStage}
    (hrequests : s'.requests = s.requests.set i { r with stage := stage })
    (hfiles : s'.fileStage = s.fileStage) (hlive : r.stage.isReturned = false)
    (hdata : ∀ f st, s.fd.privateData f = some st → s'.fd.privateData f = some st)
    (hfd : ∀ j c, r.stage ≠ .getState j → s.fd.calls[j]? = some c → s'.fd.calls[j]? = some c)
    (hlocks : ∀ j c, r.stage ≠ .locked j → s.locks.calls[j]? = some c →
      s'.locks.calls[j]? = some c)
    (hhistory : ∀ i', i' ≠ i → ∀ e, (i', e) ∈ s'.history ↔ (i', e) ∈ s.history)
    (hstands : s'.Stands i { r with stage := stage })
    (hsub : ∀ k, stage.sub = some k → r.stage.sub = some k ∨
      ∀ (i' : Nat) (r' : SnapRequest File), s.requests[i']? = some r' → r'.stage.sub ≠ some k)
    (hbusy : ∀ (j : Nat) (c : SnapLockCall), s'.locks.calls[j]? = some c →
      c.phase.isReturned = false → stage = .locked j ∨
        r.stage ≠ .locked j ∧ s.locks.calls[j]? = some c)
    (hasking : ∀ (j : Nat) (c : FdCall File), s'.fd.calls[j]? = some c →
      c.phase.isReturned = false → stage = .getState j ∨
        r.stage ≠ .getState j ∧ s.fd.calls[j]? = some c) :
    s'.Running := by
  have hi := (List.getElem?_eq_some_iff.1 hr).1
  have hself : s'.requests[i]? = some { r with stage := stage } := by
    rw [hrequests, List.getElem?_set_self hi]
  have hcases : ∀ {i' : Nat} {r' : SnapRequest File}, s'.requests[i']? = some r' →
      (i' = i ∧ r' = { r with stage := stage }) ∨ (i' ≠ i ∧ s.requests[i']? = some r') := by
    intro i' r' hr'
    by_cases hii : i' = i
    · rw [hii, hself, Option.some.injEq] at hr'
      exact Or.inl ⟨hii, hr'.symm⟩
    · rw [hrequests, List.getElem?_set_ne (Ne.symm hii)] at hr'
      exact Or.inr ⟨hii, hr'⟩
  have hstill : ∀ {i' : Nat} {r' : SnapRequest File}, s.requests[i']? = some r' →
      r'.stage ≠ r.stage → s'.requests[i']? = some r' := by
    intro i' r' hr' hstage
    rw [hrequests, List.getElem?_set_ne]
    · exact hr'
    · rintro rfl
      rw [hr, Option.some.injEq] at hr'
      rw [hr'] at hstage
      exact hstage rfl
  -- the call that another one is in is not that of the call `i`
  have hne : ∀ {i' : Nat} {r' : SnapRequest File} {k : SnapSub}, i' ≠ i →
      s.requests[i']? = some r' → r'.stage.sub = some k → r.stage.sub ≠ some k :=
    fun hii hr' hk hk' => hii (h.owner _ _ _ _ _ hr' hr hk hk')
  refine ⟨?_, ?_, ?_, ?_, ?_⟩
  · intro i' r' hr'
    rcases hcases hr' with ⟨rfl, rfl⟩ | ⟨hii, hr'⟩
    · exact hstands
    · refine (h.stands i' r' hr').frame hdata ?_ ?_ (hhistory i' hii)
      · intro j c hstage
        refine hfd j c fun hown => hne hii hr' (k := .fdState j) ?_ ?_
        · rw [hstage]
          rfl
        · rw [hown]
          rfl
      · intro j c hstage
        refine hlocks j c fun hown => hne hii hr' (k := .lock j) ?_ ?_
        · rw [hstage]
          rfl
        · rw [hown]
          rfl
  · have hmine : ∀ {i' : Nat} {r' : SnapRequest File} {k : SnapSub}, i' ≠ i →
        s.requests[i']? = some r' → stage.sub = some k → r'.stage.sub ≠ some k := by
      intro i' r' k hii hr' hk hk'
      rcases hsub k hk with hold | hnew
      · exact hne hii hr' hk' hold
      · exact hnew i' r' hr' hk'
    intro i₁ i₂ r₁ r₂ k h₁ h₂ hk₁ hk₂
    rcases hcases h₁ with ⟨rfl, rfl⟩ | ⟨hne₁, h₁⟩
    · rcases hcases h₂ with ⟨rfl, rfl⟩ | ⟨hne₂, h₂⟩
      · rfl
      · exact absurd hk₂ (hmine hne₂ h₂ hk₁)
    · rcases hcases h₂ with ⟨rfl, rfl⟩ | ⟨hne₂, h₂⟩
      · exact absurd hk₁ (hmine hne₁ h₁ hk₂)
      · exact h.owner i₁ i₂ r₁ r₂ k h₁ h₂ hk₁ hk₂
  · intro j c hc hphase
    rcases hbusy j c hc hphase with rfl | ⟨hother, hc⟩
    · exact ⟨i, _, hself, rfl⟩
    · rcases h.busy j c hc hphase with ⟨i', r', hr', hstage⟩
      exact ⟨i', r', hstill hr' (by rw [hstage]; exact Ne.symm hother), hstage⟩
  · intro j c hc hphase
    rcases hasking j c hc hphase with rfl | ⟨hother, hc⟩
    · exact ⟨i, _, hself, rfl⟩
    · rcases h.asking j c hc hphase with ⟨i', r', hr', hstage⟩
      exact ⟨i', r', hstill hr' (by rw [hstage]; exact Ne.symm hother), hstage⟩
  · intro i' r' hr' hstage
    rw [hfiles]
    rcases hcases hr' with ⟨rfl, rfl⟩ | ⟨-, hr'⟩
    · exact h.opened i' r hr hlive
    · exact h.opened i' r' hr' hstage

omit [DecidableEq File] in
/-- A step that changes only the place where the call `i` stands, and perhaps the record. -/
theorem Running.goOn (h : s.Running) (hr : s.requests[i]? = some r) {stage : SnapStage}
    (hrequests : s'.requests = s.requests.set i { r with stage := stage })
    (hfiles : s'.fileStage = s.fileStage) (hlive : r.stage.isReturned = false)
    (hfd : s'.fd = s.fd) (hlocks : s'.locks = s.locks)
    (hhistory : ∀ i', i' ≠ i → ∀ e, (i', e) ∈ s'.history ↔ (i', e) ∈ s.history)
    (hstands : s'.Stands i { r with stage := stage }) (hsub : stage.sub = none)
    (hbusy : ∀ (j : Nat) (c : SnapLockCall), r.stage = .locked j → s.locks.calls[j]? = some c →
      c.phase.isReturned = true)
    (hasking : ∀ (j : Nat) (c : FdCall File), r.stage = .getState j → s.fd.calls[j]? = some c →
      c.phase.isReturned = true) :
    s'.Running := by
  refine h.advance hr hrequests hfiles hlive (by rw [hfd]; exact fun _ _ => id)
    (by rw [hfd]; exact fun _ _ _ => id) (by rw [hlocks]; exact fun _ _ _ => id) hhistory hstands
    (fun k hk => ?_) ?_ ?_
  · rw [hsub] at hk
    cases hk
  · intro j c hc hphase
    rw [hlocks] at hc
    refine Or.inr ⟨fun hstage => ?_, hc⟩
    rw [hbusy j c hstage hc] at hphase
    cases hphase
  · intro j c hc hphase
    rw [hfd] at hc
    refine Or.inr ⟨fun hstage => ?_, hc⟩
    rw [hasking j c hstage hc] at hphase
    cases hphase

/-! ## The states of released files -/

omit [DecidableEq File] in
theorem Freed.advance (h : s.Freed) (hfiles : s'.fileStage = s.fileStage)
    (hfaulted : s'.faulted = s.faulted) (hdisposed : s'.locks.disposed = s.locks.disposed)
    (hmemory : ∀ st, s.locks.disposed st = true → s'.locks.data st = s.locks.data st)
    (hdata : ∀ f st, s.fd.privateData f = some st → s'.fd.privateData f = some st)
    (hnew : ∀ f st, s'.fd.privateData f = some st →
      s.fd.privateData f = some st ∨ s.fileStage f = .opened) : s'.Freed where
  disposed := by
    intro st hst
    rw [hdisposed] at hst
    rcases h.disposed st hst with ⟨f, hf, hreleased⟩
    exact ⟨f, hdata f st hf, by rw [hfiles]; exact hreleased⟩
  released := by
    intro f st hreleased hf
    rw [hfiles] at hreleased
    rw [hdisposed]
    rcases hnew f st hf with hold | hopened
    · exact h.released f st hreleased hold
    · rw [hopened] at hreleased
      cases hreleased
  clean := by
    intro st hst
    rw [hdisposed] at hst
    rw [hmemory st hst]
    exact h.clean st hst
  unfaulted := by rw [hfaulted]; exact h.unfaulted

omit [DecidableEq File] in
/-- The state of an open file has not been freed. -/
theorem Inv.alive [DecidableEq File] (h : s.Inv) {f : File} {st : Nat}
    (hf : s.fd.privateData f = some st) (hopened : s.fileStage f = .opened) :
    s.locks.disposed st = false := by
  by_contra hdisposed
  rcases h.freed.disposed st (by simpa using hdisposed) with ⟨f', hf', hreleased⟩
  rw [← file_unique h.fd hf hf', hopened] at hreleased
  cases hreleased

end

end SnapSystem

end Anticheat
