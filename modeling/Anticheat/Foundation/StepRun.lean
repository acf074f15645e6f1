import Mathlib.Tactic

/-!
# Runs of a labelled step function

A system is a step function that takes a state and a label to the next state,
or to nothing when the step is not enabled there.  The label carries every
choice the environment makes, so a run is determined by its list of labels.

Main results:

- Theorem {lit}`invariant_of_along`: a property that is preserved by every step
  meeting a condition holds at the end of each run all of whose steps meet it.
- Theorem {lit}`always_of_along`: it then holds in every state on the way.
- Theorem {lit}`always_iff_along`: when a step preserves the property exactly
  under the condition, so does a whole run.
- Theorem {lit}`length_add_le_of_lower`: a measure that every step lowers bounds the
  length of a run.
-/

namespace Foundation
namespace StepRun

variable {S L : Type}

/-- The state after a list of labels, if every step was enabled. -/
def run (step : S → L → Option S) : S → List L → Option S
  | s, [] => some s
  | s, l :: ls =>
      match step s l with
      | none => none
      | some s' => run step s' ls

/-- The condition `P` holds of each label taken, at the state it is taken in. -/
def Along (step : S → L → Option S) (P : S → L → Prop) : S → List L → Prop
  | _, [] => True
  | s, l :: ls => P s l ∧ ∀ s', step s l = some s' → Along step P s' ls

/-- The property `Q` holds in every state the run reaches, the first included. -/
def Always (step : S → L → Option S) (Q : S → Prop) : S → List L → Prop
  | s, [] => Q s
  | s, l :: ls => Q s ∧ ∀ s', step s l = some s' → Always step Q s' ls

/-- Whether a condition holds along a given run can be computed. -/
instance decidableAlong (step : S → L → Option S) (P : S → L → Prop)
    [∀ s l, Decidable (P s l)] : (s : S) → (ls : List L) → Decidable (Along step P s ls)
  | _, [] => .isTrue trivial
  | s, l :: ls =>
      match hstep : step s l with
      | none => decidable_of_iff (P s l) (by simp [Along, hstep])
      | some s' =>
          have := decidableAlong step P s' ls
          decidable_of_iff (P s l ∧ Along step P s' ls) (by simp [Along, hstep])

/-- Whether a property holds throughout a given run can be computed. -/
instance decidableAlways (step : S → L → Option S) (Q : S → Prop) [DecidablePred Q] :
    (s : S) → (ls : List L) → Decidable (Always step Q s ls)
  | s, [] => inferInstanceAs (Decidable (Q s))
  | s, l :: ls =>
      match hstep : step s l with
      | none => decidable_of_iff (Q s) (by simp [Always, hstep])
      | some s' =>
          have := decidableAlways step Q s' ls
          decidable_of_iff (Q s ∧ Always step Q s' ls) (by simp [Always, hstep])

@[simp]
theorem run_nil (step : S → L → Option S) (s : S) : run step s [] = some s :=
  rfl

theorem run_cons {step : S → L → Option S} {s s' : S} {l : L} {ls : List L}
    (h : step s l = some s') : run step s (l :: ls) = run step s' ls := by
  rw [run, h]

theorem run_cons_some {step : S → L → Option S} {s s' : S} {l : L} {ls : List L}
    (h : run step s (l :: ls) = some s') :
    ∃ s₁, step s l = some s₁ ∧ run step s₁ ls = some s' := by
  rw [run] at h
  cases hstep : step s l with
  | none => simp [hstep] at h
  | some s₁ => exact ⟨s₁, rfl, by simpa [hstep] using h⟩

theorem run_append_some {step : S → L → Option S} {s s' : S} {ls ls' : List L}
    (h : run step s (ls ++ ls') = some s') :
    ∃ s₁, run step s ls = some s₁ ∧ run step s₁ ls' = some s' := by
  induction ls generalizing s with
  | nil => exact ⟨s, rfl, h⟩
  | cons l ls ih =>
      rcases run_cons_some h with ⟨s₀, hstep, hrest⟩
      rcases ih hrest with ⟨s₁, hrun, hlast⟩
      exact ⟨s₁, by rw [run_cons hstep, hrun], hlast⟩

theorem Along.mono {step : S → L → Option S} {P P' : S → L → Prop}
    (hP : ∀ s l, P s l → P' s l) {s : S} {ls : List L} (h : Along step P s ls) :
    Along step P' s ls := by
  induction ls generalizing s with
  | nil => trivial
  | cons l ls ih =>
      refine ⟨hP s l h.1, ?_⟩
      intro s' hstep
      exact ih (h.2 s' hstep)

theorem Always.head {step : S → L → Option S} {Q : S → Prop} {s : S} {ls : List L}
    (h : Always step Q s ls) : Q s := by
  cases ls with
  | nil => exact h
  | cons l ls => exact h.1

/-- `Always` is about the states reached by the initial segments of the run. -/
theorem always_iff_initial (step : S → L → Option S) (Q : S → Prop) (s : S)
    (ls : List L) :
    Always step Q s ls ↔
      ∀ pre s', pre <+: ls → run step s pre = some s' → Q s' := by
  induction ls generalizing s with
  | nil =>
      constructor
      · intro h pre s' hpre hrun
        rw [List.prefix_nil.1 hpre, run_nil] at hrun
        cases hrun
        exact h
      · intro h
        exact h [] s List.prefix_rfl rfl
  | cons l ls ih =>
      constructor
      · rintro ⟨hs, hrest⟩ pre s' hpre hrun
        cases pre with
        | nil =>
            cases hrun
            exact hs
        | cons l' pre =>
            rcases List.cons_prefix_cons.1 hpre with ⟨rfl, htl⟩
            rcases run_cons_some hrun with ⟨s₁, hstep, hrun⟩
            exact (ih s₁).1 (hrest s₁ hstep) pre s' htl hrun
      · intro h
        refine ⟨h [] s (by simp) rfl, ?_⟩
        intro s₁ hstep
        refine (ih s₁).2 ?_
        intro pre s' hpre hrun
        refine h (l :: pre) s' (List.cons_prefix_cons.2 ⟨rfl, hpre⟩) ?_
        rw [run_cons hstep]
        exact hrun

/-- The invariant rule for runs whose steps all meet a condition. -/
theorem always_of_along {step : S → L → Option S} {Q : S → Prop}
    {P : S → L → Prop}
    (hstep : ∀ s l s', Q s → P s l → step s l = some s' → Q s')
    {s : S} {ls : List L} (hs : Q s) (h : Along step P s ls) :
    Always step Q s ls := by
  induction ls generalizing s with
  | nil => exact hs
  | cons l ls ih =>
      refine ⟨hs, ?_⟩
      intro s' hs'
      exact ih (hstep s l s' hs h.1 hs') (h.2 s' hs')

/-- The invariant rule for all runs. -/
theorem always_of_step {step : S → L → Option S} {Q : S → Prop}
    (hstep : ∀ s l s', Q s → step s l = some s' → Q s') {s : S} (hs : Q s) (ls : List L) :
    Always step Q s ls := by
  induction ls generalizing s with
  | nil => exact hs
  | cons l ls ih => exact ⟨hs, fun s' hs' => ih (hstep s l s' hs hs')⟩

theorem Always.mono {step : S → L → Option S} {Q Q' : S → Prop} (hQ : ∀ s, Q s → Q' s)
    {s : S} {ls : List L} (h : Always step Q s ls) : Always step Q' s ls := by
  induction ls generalizing s with
  | nil => exact hQ s h
  | cons l ls ih => exact ⟨hQ s h.1, fun s' hs' => ih (h.2 s' hs')⟩

theorem invariant_of_along {step : S → L → Option S} {Q : S → Prop}
    {P : S → L → Prop}
    (hstep : ∀ s l s', Q s → P s l → step s l = some s' → Q s')
    {s s' : S} {ls : List L} (hs : Q s) (h : Along step P s ls)
    (hrun : run step s ls = some s') : Q s' :=
  (always_iff_initial step Q s ls).1 (always_of_along hstep hs h) ls s'
    List.prefix_rfl hrun

/-- Conditions that agree under an invariant agree along every run. -/
theorem along_iff_of_invariant {step : S → L → Option S} {I : S → Prop}
    {P P' : S → L → Prop} (hI : ∀ s l s', I s → step s l = some s' → I s')
    (hP : ∀ s l, I s → (P s l ↔ P' s l)) {s : S} {ls : List L} (hi : I s) :
    Along step P s ls ↔ Along step P' s ls := by
  induction ls generalizing s with
  | nil => exact Iff.rfl
  | cons l ls ih =>
      refine and_congr (hP s l hi) (forall_congr' fun s' => ?_)
      exact forall_congr' fun hstep => ih (hI s l s' hi hstep)

/-- If, under an invariant `I` of the steps that meet the condition, a step keeps
`Q` exactly when it meets the condition, then a run keeps `Q` throughout exactly
when all its steps do. -/
theorem always_iff_along {step : S → L → Option S} {I Q : S → Prop}
    {P : S → L → Prop}
    (hI : ∀ s l s', I s → P s l → step s l = some s' → I s')
    (hstep : ∀ s l s', I s → Q s → step s l = some s' → (Q s' ↔ P s l))
    (hdisabled : ∀ s l, step s l = none → P s l)
    {s : S} {ls : List L} (hi : I s) (hs : Q s) :
    Always step Q s ls ↔ Along step P s ls := by
  induction ls generalizing s with
  | nil => exact ⟨fun _ => trivial, fun _ => hs⟩
  | cons l ls ih =>
      cases hl : step s l with
      | none =>
          have hp := hdisabled s l hl
          simp [Always, Along, hl, hs, hp]
      | some s' =>
          have hiff := hstep s l s' hi hs hl
          simp only [Always, Along, hl, Option.some.injEq, forall_eq']
          constructor
          · rintro ⟨-, h⟩
            have hp := hiff.1 h.head
            exact ⟨hp, (ih (hI s l s' hi hp hl) h.head).1 h⟩
          · rintro ⟨hp, h⟩
            exact ⟨hs, (ih (hI s l s' hi hp hl) (hiff.2 hp)).2 h⟩

/-- A measure that every step of a kind lowers bounds the number of such steps. -/
theorem length_add_le_of_lower {step : S → L → Option S} {I : S → Prop} {P : L → Prop}
    {weight : S → Nat} (hstep : ∀ s l s', I s → P l → step s l = some s' →
      I s' ∧ weight s' < weight s) {s s' : S} {ls : List L} (hs : I s) (hls : ∀ l ∈ ls, P l)
    (hrun : run step s ls = some s') : ls.length + weight s' ≤ weight s := by
  induction ls generalizing s with
  | nil =>
      cases hrun
      simp
  | cons l ls ih =>
      rcases run_cons_some hrun with ⟨s₁, hfirst, hrest⟩
      rcases hstep s l s₁ hs (hls l List.mem_cons_self) hfirst with ⟨hs₁, hlower⟩
      have hlater := ih hs₁ (fun l' hl' => hls l' (List.mem_cons_of_mem l hl')) hrest
      rw [List.length_cons]
      omega

end StepRun
end Foundation
