import Mathlib.Tactic

/-!
# Histories

A system that takes one input after the other is a left fold over the list of its
inputs, and what it does next often depends on the recent past: on the last input
of one kind, if only inputs of another kind came after it.

Main results:

- Theorem {lit}`foldl_history`: the invariant rule for properties that relate the
  state to all inputs so far.
- Theorem {lit}`since_concat`: how the past operator {lit}`Since` unfolds when one
  more input arrives.
- Theorem {lit}`since_and_not_iff`: the period may start at the last such input.
- Theorem {lit}`atEach_cons`: a property of each input and the inputs before it, from
  the front.
-/

namespace Foundation

variable {α S : Type}

/-- A property of the inputs so far and the state that holds at the start and is kept
by every input holds after every run. -/
theorem foldl_history {f : S → α → S} {s₀ : S} {I : List α → S → Prop} (hinit : I [] s₀)
    (hstep : ∀ h s a, I h s → I (h ++ [a]) (f s a)) (l : List α) : I l (l.foldl f s₀) := by
  induction l using List.reverseRecOn with
  | nil => exact hinit
  | append_singleton l a ih =>
      rw [List.foldl_append, List.foldl_cons, List.foldl_nil]
      exact hstep l _ a ih

/-- Some past input met `A`, and all inputs after it met `B`. -/
def Since (A B : α → Prop) (h : List α) : Prop :=
  ∃ earlier a later, h = earlier ++ a :: later ∧ A a ∧ ∀ b ∈ later, B b

variable {A B : α → Prop}

@[simp]
theorem not_since_nil : ¬Since A B [] := by
  rintro ⟨earlier, a, later, hsplit, -⟩
  simp at hsplit

/-- One more input either starts the period anew or continues it. -/
theorem since_concat (h : List α) (a : α) :
    Since A B (h ++ [a]) ↔ A a ∨ B a ∧ Since A B h := by
  constructor
  · rintro ⟨earlier, x, later, hsplit, hx, hlater⟩
    rcases List.eq_nil_or_concat later with rfl | ⟨later, y, rfl⟩
    · have hlast := List.append_inj_right' hsplit rfl
      cases hlast
      exact .inl hx
    · have hassoc : h ++ [a] = (earlier ++ x :: later) ++ [y] := by
        rw [hsplit]
        simp
      have hy := List.append_inj_right' hassoc rfl
      have hh := List.append_inj_left' hassoc rfl
      cases hy
      refine .inr ⟨hlater _ (by simp), earlier, x, later, hh, hx, ?_⟩
      intro b hb
      exact hlater b (by simp [hb])
  · rintro (ha | ⟨ha, earlier, x, later, rfl, hx, hlater⟩)
    · exact ⟨h, a, [], rfl, ha, by simp⟩
    · refine ⟨earlier, x, later ++ [a], by simp, hx, ?_⟩
      intro b hb
      rcases List.mem_append.mp hb with hb | hb
      · exact hlater b hb
      · rw [List.mem_singleton] at hb
        rw [hb]
        exact ha

theorem Since.mono {A' : α → Prop} (hA : ∀ a, A a → A' a) {h : List α} (hs : Since A B h) :
    Since A' B h := by
  rcases hs with ⟨earlier, a, later, rfl, ha, hlater⟩
  exact ⟨earlier, a, later, rfl, hA a ha, hlater⟩

/-- The period runs from the last input that met `A`. -/
theorem since_and_not_iff (h : List α) :
    Since A (fun a => B a ∧ ¬A a) h ↔ Since A B h := by
  induction h using List.reverseRecOn with
  | nil => simp
  | append_singleton h a ih =>
      rw [since_concat, since_concat, ih]
      by_cases ha : A a
      · simp [ha]
      · simp [ha]

/-- Every input is met by `Q`, given the inputs before it. -/
def AtEach (Q : List α → α → Prop) (l : List α) : Prop :=
  ∀ before a after, l = before ++ a :: after → Q before a

theorem atEach_nil (Q : List α → α → Prop) : AtEach Q [] := by
  intro before a after h
  simp at h

/-- The first input, and the others with it in front. -/
theorem atEach_cons {Q : List α → α → Prop} (a : α) (l : List α) :
    AtEach Q (a :: l) ↔ Q [] a ∧ AtEach (fun before => Q (a :: before)) l := by
  constructor
  · intro h
    refine ⟨h [] a l rfl, ?_⟩
    intro before b after hl
    exact h (a :: before) b after (by rw [hl, List.cons_append])
  · rintro ⟨hfirst, hrest⟩ before b after hl
    cases before with
    | nil =>
        cases hl
        exact hfirst
    | cons c before =>
        cases hl
        exact hrest before b after rfl

theorem atEach_congr {Q Q' : List α → α → Prop} (h : ∀ before a, Q before a ↔ Q' before a)
    (l : List α) : AtEach Q l ↔ AtEach Q' l :=
  forall_congr' fun before => forall_congr' fun a => forall_congr' fun _ =>
    forall_congr' fun _ => h before a

end Foundation
