import Mathlib.Tactic

/-!
# Steps with a hidden input

A step function may take, beside its label, an input that no one is supposed to
learn.  The library has the runs of such a system and a rule for showing that
their outputs do not depend on the hidden inputs.

The rule asks for a description of states that the hidden inputs do not enter:
whatever they are, a step from any state that fits the description gives one output
and leads to a state that fits the next description.

Main results:

- Theorem {lit}`outputs_determined`: a description of the first state determines the
  outputs of every run.
- Theorem {lit}`outputs_eq`: two runs over the same labels have the same outputs.
-/

namespace Foundation
namespace HiddenInput

variable {S H L O K : Type}

/-- The outputs of a run over a list of labels, where `hidden i` is the hidden input
of the `i`-th step. -/
def outputs (step : S → H → L → O × S) : (Nat → H) → S → List L → List O
  | _, _, [] => []
  | hidden, s, l :: ls =>
      (step s (hidden 0) l).1 ::
        outputs step (fun i => hidden (i + 1)) (step s (hidden 0) l).2 ls

/-- A step from a state that fits `k` gives the same output for every such state and
every hidden input, and leads to states that fit one next description. -/
def Determines (Fits : K → S → Prop) (act : S → H → O × S) (k : K) : Prop :=
  ∃ k' o, ∀ s h, Fits k s → (act s h).1 = o ∧ Fits k' (act s h).2

theorem outputs_determined {step : S → H → L → O × S} {Fits : K → S → Prop}
    (hstep : ∀ k l, Determines Fits (fun s h => step s h l) k) (ls : List L) (k : K) :
    ∃ os, ∀ s hidden, Fits k s → outputs step hidden s ls = os := by
  induction ls generalizing k with
  | nil => exact ⟨[], fun _ _ _ => rfl⟩
  | cons l ls ih =>
      rcases hstep k l with ⟨k', o, hfirst⟩
      rcases ih k' with ⟨os, hrest⟩
      refine ⟨o :: os, ?_⟩
      intro s hidden hfits
      rcases hfirst s (hidden 0) hfits with ⟨hout, hnext⟩
      exact congrArg₂ List.cons hout (hrest _ _ hnext)

/-- The hidden inputs do not show in the outputs. -/
theorem outputs_eq {step : S → H → L → O × S} {Fits : K → S → Prop}
    (hstep : ∀ k l, Determines Fits (fun s h => step s h l) k) {k : K} {s : S} (hs : Fits k s)
    (hidden hidden' : Nat → H) (ls : List L) :
    outputs step hidden s ls = outputs step hidden' s ls := by
  rcases outputs_determined hstep ls k with ⟨os, h⟩
  rw [h s hidden hs, h s hidden' hs]

end HiddenInput
end Foundation
