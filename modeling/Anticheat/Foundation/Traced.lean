import Mathlib.Tactic

/-!
# Computations with a log

A computation that can stop without a value and that keeps a log of what it does
on the way.  A model is instrumented by writing it once more with the log;
forgetting the log gives the model back, and what the log can hold is settled one
step at a time.

Main results:

- Theorem {lit}`val_bind`: the log does not change what is computed.
- Theorem {lit}`logs_bind`: a property of every entry is proved step by step, and
  for the later steps only where the earlier ones return.
- Theorems {lit}`logs_loop` and {lit}`logs_search`: what a loop over a list and a
  search in a list log.
-/

namespace Foundation

/-! ## Up to the first -/

section

variable {γ δ : Type}

/-- A property holds of the elements of a list up to the first that passes a test, this
one included. -/
def UpTo (test : γ → Bool) (Q : γ → Prop) : List γ → Prop
  | [] => True
  | c :: l => Q c ∧ (test c = false → UpTo test Q l)

theorem upTo_of_forall {test : γ → Bool} {Q : γ → Prop} {l : List γ} (h : ∀ c ∈ l, Q c) :
    UpTo test Q l := by
  induction l with
  | nil => trivial
  | cons c l ih =>
      exact ⟨h c List.mem_cons_self, fun _ => ih fun d hd => h d (List.mem_cons_of_mem c hd)⟩

/-- The test may be changed where the property holds. -/
theorem upTo_congr {test test' : γ → Bool} {Q Q' : γ → Prop} {l : List γ}
    (hQ : ∀ c ∈ l, (Q c ↔ Q' c)) (htest : ∀ c ∈ l, Q' c → test c = test' c) :
    UpTo test Q l ↔ UpTo test' Q' l := by
  induction l with
  | nil => exact Iff.rfl
  | cons c l ih =>
      have hl := ih (fun d hd => hQ d (List.mem_cons_of_mem c hd))
        fun d hd => htest d (List.mem_cons_of_mem c hd)
      rw [UpTo, UpTo, hQ c List.mem_cons_self, hl]
      refine and_congr_right fun hc => ?_
      rw [htest c List.mem_cons_self hc]

theorem upTo_map {f : δ → γ} {test : γ → Bool} {Q : γ → Prop} {l : List δ} :
    UpTo test Q (l.map f) ↔ UpTo (fun d => test (f d)) (fun d => Q (f d)) l := by
  induction l with
  | nil => exact Iff.rfl
  | cons d l ih => rw [List.map_cons, UpTo, UpTo, ih]

end

/-! ## Computations -/

/-- A computation with what it returns and what it logs. -/
structure Traced (ε α : Type) where
  log : List ε
  val : Option α

namespace Traced

variable {ε α β : Type}

protected def pure (a : α) : Traced ε α := ⟨[], some a⟩

protected def bind (x : Traced ε α) (f : α → Traced ε β) : Traced ε β :=
  match x.val with
  | none => ⟨x.log, none⟩
  | some a => ⟨x.log ++ (f a).log, (f a).val⟩

instance : Monad (Traced ε) where
  pure := Traced.pure
  bind := Traced.bind

/-- Log the entries. -/
def tell (es : List ε) : Traced ε Unit := ⟨es, some ()⟩

/-- A computation that logs nothing. -/
def ofOption (o : Option α) : Traced ε α := ⟨[], o⟩

/-- Stop unless the test holds. -/
def require (b : Bool) : Traced ε Unit := ofOption (guard b)

/-! ## What is computed -/

@[simp]
theorem val_pure (a : α) : (pure a : Traced ε α).val = some a :=
  rfl

@[simp]
theorem val_tell (es : List ε) : (tell es).val = some () :=
  rfl

@[simp]
theorem val_ofOption (o : Option α) : (ofOption o : Traced ε α).val = o :=
  rfl

@[simp]
theorem val_require (b : Bool) : (require b : Traced ε Unit).val = guard b :=
  rfl

@[simp]
theorem val_bind (x : Traced ε α) (f : α → Traced ε β) :
    (x >>= f).val = x.val >>= fun a => (f a).val := by
  change (Traced.bind x f).val = _
  cases h : x.val <;> simp [Traced.bind, h]

/-! ## What is logged -/

@[simp]
theorem log_pure (a : α) : (pure a : Traced ε α).log = [] :=
  rfl

@[simp]
theorem log_tell (es : List ε) : (tell es).log = es :=
  rfl

@[simp]
theorem log_ofOption (o : Option α) : (ofOption o : Traced ε α).log = [] :=
  rfl

@[simp]
theorem log_require (b : Bool) : (require b : Traced ε Unit).log = [] :=
  rfl

theorem log_bind_of_some {x : Traced ε α} {a : α} (h : x.val = some a) (f : α → Traced ε β) :
    (x >>= f).log = x.log ++ (f a).log := by
  change (Traced.bind x f).log = _
  simp [Traced.bind, h]

theorem log_bind_of_none {x : Traced ε α} (h : x.val = none) (f : α → Traced ε β) :
    (x >>= f).log = x.log := by
  change (Traced.bind x f).log = _
  simp [Traced.bind, h]

/-- Every entry of the log has the property. -/
def Logs (P : ε → Prop) (x : Traced ε α) : Prop :=
  ∀ e ∈ x.log, P e

section

variable {P : ε → Prop}

@[simp]
theorem logs_pure (a : α) : Logs P (pure a : Traced ε α) := by
  simp [Logs]

@[simp]
theorem logs_ofOption (o : Option α) : Logs P (ofOption o) := by
  simp [Logs]

@[simp]
theorem logs_require (b : Bool) : Logs P (require b) := by
  simp [Logs]

@[simp]
theorem logs_tell {es : List ε} : Logs P (tell es) ↔ ∀ e ∈ es, P e :=
  Iff.rfl

/-- A step logs what it logs, and the rest counts only if the step returns. -/
theorem logs_bind {x : Traced ε α} {f : α → Traced ε β} :
    Logs P (x >>= f) ↔ Logs P x ∧ ∀ a, x.val = some a → Logs P (f a) := by
  unfold Logs
  cases h : x.val with
  | none =>
      rw [log_bind_of_none h]
      simp
  | some a =>
      rw [log_bind_of_some h]
      simp only [List.mem_append, or_imp, forall_and, Option.some.injEq, forall_eq']

end

/-! ## Loops over a list -/

section

variable {γ : Type}

/-- A loop that logs something for each element and changes its state with it. -/
def loop (es : γ → List ε) (step : β → γ → β) : β → List γ → Traced ε β
  | b, [] => pure b
  | b, c :: l => do
      tell (es c)
      loop es step (step b c) l

/-- A search for the first element that passes the test; the elements that are looked
at are logged. -/
def search (es : γ → List ε) (test : γ → Bool) : List γ → Traced ε γ
  | [] => ofOption none
  | c :: l => do
      tell (es c)
      if test c then pure c else search es test l

@[simp]
theorem val_loop (es : γ → List ε) (step : β → γ → β) (b : β) (l : List γ) :
    (loop es step b l).val = some (l.foldl step b) := by
  induction l generalizing b with
  | nil => rfl
  | cons c l ih => simp [loop, ih]

@[simp]
theorem val_search (es : γ → List ε) (test : γ → Bool) (l : List γ) :
    (search es test l).val = l.find? test := by
  induction l with
  | nil => rfl
  | cons c l ih =>
      cases h : test c <;> simp [search, ih, h]

variable {P : ε → Prop}

@[simp]
theorem logs_loop {es : γ → List ε} {step : β → γ → β} {b : β} {l : List γ} :
    Logs P (loop es step b l) ↔ ∀ c ∈ l, ∀ e ∈ es c, P e := by
  induction l generalizing b with
  | nil => simp [loop]
  | cons c l ih => simp [loop, logs_bind, ih]

/-- A search logs the elements up to the first that passes the test. -/
theorem logs_search {es : γ → List ε} {test : γ → Bool} {l : List γ} :
    Logs P (search es test l) ↔ UpTo test (fun c => ∀ e ∈ es c, P e) l := by
  induction l with
  | nil => simp [search, UpTo]
  | cons c l ih =>
      rw [UpTo, ← ih]
      cases h : test c <;> simp [search, logs_bind, h]

end

end Traced
end Foundation
