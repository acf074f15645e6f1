import Mathlib.Tactic

/-!
# Programs that make calls

A program makes calls to the system around it and goes on with the answers.  The system says
which calls are allowed in a state, and which answers a call can have; there may be several, and
there is one for every call that is allowed.  At some calls the system may also end the program.
A loop is a recursion that the answers cannot keep going for ever, so that every run ends.

What holds of all runs is shown by the weakest precondition: it is computed along the program,
and a specification of a part of a program is used in the place of that part.  It has one
condition for the programs that come to their end and one for those that are ended.

Main results:

- Theorems {lit}`wp_bind`, {lit}`wp_ask` and {lit}`wp_mono`: the rules.
- Theorem {lit}`Machine.correct_of_wp`: in every run from a state with the weakest precondition
  every call is allowed, the run can be brought to an end, and it ends, or is ended, as it should.
-/

namespace Foundation

/-- The calls of a system, and the answers that each of them can have. -/
structure Interface where
  Call : Type
  Answer : Call → Type

/-- A program is done, or makes a call and goes on with the answer. -/
inductive Interaction (I : Interface) (α : Type) : Type where
  | done (a : α)
  | call (c : I.Call) (next : I.Answer c → Interaction I α)

namespace Interaction

variable {I : Interface} {α β : Type}

protected def bind : Interaction I α → (α → Interaction I β) → Interaction I β
  | .done a, f => f a
  | .call c next, f => .call c fun r => (next r).bind f

instance : Monad (Interaction I) where
  pure := .done
  bind := Interaction.bind

/-- The program that makes one call. -/
def ask (c : I.Call) : Interaction I (I.Answer c) :=
  .call c .done

end Interaction

/-- A system with states of type `S`. -/
structure Machine (I : Interface) (S : Type) where
  Allowed : S → I.Call → Prop
  Answers : S → (c : I.Call) → I.Answer c → S → Prop
  /-- the program may be ended at this call -/
  Kills : S → I.Call → Prop
  answers_exist : ∀ s c, Allowed s c → ∃ r s', Answers s c r s'

section Wp

variable {I : Interface} {S α β : Type} {M : Machine I S}

/-- What has to hold before a program, so that all its calls are allowed, `Q` holds of its
result and the state after it, and `D` of the state in which it is ended. -/
def Machine.wp (M : Machine I S) : Interaction I α → (α → S → Prop) → (S → Prop) → S → Prop
  | .done a, Q, _, s => Q a s
  | .call c next, Q, D, s =>
      M.Allowed s c ∧ (M.Kills s c → D s) ∧ ∀ r s', M.Answers s c r s' → M.wp (next r) Q D s'

theorem wp_ask {c : I.Call} {Q : I.Answer c → S → Prop} {D : S → Prop} {s : S} :
    M.wp (Interaction.ask c) Q D s ↔
      M.Allowed s c ∧ (M.Kills s c → D s) ∧ ∀ r s', M.Answers s c r s' → Q r s' :=
  Iff.rfl

theorem wp_bind {p : Interaction I α} {f : α → Interaction I β} {Q : β → S → Prop}
    {D : S → Prop} {s : S} :
    M.wp (p >>= f) Q D s ↔ M.wp p (fun a s' => M.wp (f a) Q D s') D s := by
  induction p generalizing s with
  | done a => exact Iff.rfl
  | call c next ih =>
      apply and_congr_right
      intro _
      apply and_congr_right
      intro _
      apply forall_congr'
      intro r
      apply forall_congr'
      intro s'
      exact imp_congr_right fun _ => ih r

theorem wp_mono {p : Interaction I α} {Q R : α → S → Prop} {D E : S → Prop} {s : S}
    (h : M.wp p Q D s) (hQR : ∀ a s', Q a s' → R a s') (hDE : ∀ s', D s' → E s') :
    M.wp p R E s := by
  induction p generalizing s with
  | done a => exact hQR a s h
  | call c next ih =>
      exact ⟨h.1, fun hkill => hDE s (h.2.1 hkill), fun r s' hr => ih r (h.2.2 r s' hr)⟩

/-- A specification in the place of a part of a program. -/
theorem wp_bind_of {p : Interaction I α} {f : α → Interaction I β} {Q : β → S → Prop}
    {R : α → S → Prop} {D E : S → Prop} {s : S} (h : M.wp p R E s)
    (hf : ∀ a s', R a s' → M.wp (f a) Q D s') (hE : ∀ s', E s' → D s') :
    M.wp (p >>= f) Q D s :=
  wp_bind.2 (wp_mono h hf hE)

end Wp

/-! ## Runs -/

section Runs

variable {I : Interface} {S α : Type}

/-- What is left of a program, and the state, at some point of a run. -/
inductive Machine.Reaches (M : Machine I S) (p : Interaction I α) (s : S) :
    Interaction I α → S → Prop where
  | refl : Reaches M p s p s
  | step {c : I.Call} {next : I.Answer c → Interaction I α} {r : I.Answer c} {s₁ s₂ : S} :
      Reaches M p s (.call c next) s₁ → M.Answers s₁ c r s₂ → Reaches M p s (next r) s₂

theorem Machine.Reaches.trans {M : Machine I S} {p p' p'' : Interaction I α} {s s' s'' : S}
    (h : M.Reaches p s p' s') (h' : M.Reaches p' s' p'' s'') : M.Reaches p s p'' s'' := by
  induction h' with
  | refl => exact h
  | step _ hr ih => exact ih.step hr

/-- In every run all calls are allowed.  The run can be brought to an end from wherever it is, `Q`
holds in the end, and `D` where it is ended. -/
structure Machine.Correct (M : Machine I S) (p : Interaction I α) (s : S)
    (Q : α → S → Prop) (D : S → Prop) : Prop where
  safe : ∀ (c : I.Call) (next : I.Answer c → Interaction I α) (s' : S),
    M.Reaches p s (.call c next) s' → M.Allowed s' c
  returns : ∀ (p' : Interaction I α) (s' : S), M.Reaches p s p' s' →
    ∃ a s'', M.Reaches p' s' (.done a) s''
  ends : ∀ (a : α) (s' : S), M.Reaches p s (.done a) s' → Q a s'
  ended : ∀ (c : I.Call) (next : I.Answer c → Interaction I α) (s' : S),
    M.Reaches p s (.call c next) s' → M.Kills s' c → D s'

theorem Machine.wp_of_reaches {M : Machine I S} {p p' : Interaction I α} {Q : α → S → Prop}
    {D : S → Prop} {s s' : S} (h : M.wp p Q D s) (hreaches : M.Reaches p s p' s') :
    M.wp p' Q D s' := by
  induction hreaches with
  | refl => exact h
  | step _ hr ih => exact ih.2.2 _ _ hr

theorem Machine.returns_of_wp {M : Machine I S} {p : Interaction I α} {Q : α → S → Prop}
    {D : S → Prop} {s : S} (h : M.wp p Q D s) : ∃ a s', M.Reaches p s (.done a) s' := by
  induction p generalizing s with
  | done a => exact ⟨a, s, .refl⟩
  | call c next ih =>
      rcases M.answers_exist s c h.1 with ⟨r, s', hr⟩
      rcases ih r (h.2.2 r s' hr) with ⟨a, s'', hreaches⟩
      exact ⟨a, s'', (Machine.Reaches.refl.step hr).trans hreaches⟩

theorem Machine.correct_of_wp {M : Machine I S} {p : Interaction I α} {Q : α → S → Prop}
    {D : S → Prop} {s : S} (h : M.wp p Q D s) : M.Correct p s Q D where
  safe _ _ _ hreaches := (wp_of_reaches h hreaches).1
  returns _ _ hreaches := returns_of_wp (wp_of_reaches h hreaches)
  ends _ _ hreaches := wp_of_reaches h hreaches
  ended _ _ _ hreaches := (wp_of_reaches h hreaches).2.1

end Runs

end Foundation
