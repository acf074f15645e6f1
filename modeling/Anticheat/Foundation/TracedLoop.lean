import Anticheat.Foundation.RawMemory
import Anticheat.Foundation.Traced

/-!
# Loops over buffers

A loop that reads one buffer and writes another is a computation that logs its accesses.
It need not return, and it stops at an access outside a buffer.  That it does neither is
shown with a total triple: the computation returns, what it returns has a property, and
all that it logs is allowed.

Main results:

- Theorem {lit}`Total.bind`: a triple is proved step by step.
- Theorem {lit}`total_iterate`: a loop returns if its body keeps an invariant and
  decreases a variant.
- Theorems {lit}`total_readAt` and {lit}`total_writeAt`: what an access inside a buffer
  does.
-/

namespace Foundation
namespace Traced

variable {ε α β σ : Type}

/-! ## Total triples -/

/-- The computation returns a value with the property `Q`, and all that it logs has the
property `P`. -/
structure Total (P : ε → Prop) (Q : α → Prop) (x : Traced ε α) : Prop where
  returns : ∃ a, x.val = some a ∧ Q a
  logs : Logs P x

section

variable {P : ε → Prop} {Q Q' : α → Prop} {R : β → Prop} {x : Traced ε α}

theorem total_pure {a : α} (h : Q a) : Total P Q (pure a) :=
  ⟨⟨a, rfl, h⟩, logs_pure a⟩

theorem Total.bind {f : α → Traced ε β} (hx : Total P Q x) (hf : ∀ a, Q a → Total P R (f a)) :
    Total P R (x >>= f) := by
  rcases hx.returns with ⟨a, hval, ha⟩
  rcases (hf a ha).returns with ⟨b, hval', hb⟩
  refine ⟨⟨b, ?_, hb⟩, ?_⟩
  · rw [val_bind, hval]
    exact hval'
  · rw [logs_bind]
    refine ⟨hx.logs, ?_⟩
    intro a' ha'
    rw [hval, Option.some.injEq] at ha'
    rw [← ha']
    exact (hf a ha).logs

theorem Total.mono (hx : Total P Q x) (h : ∀ a, Q a → Q' a) : Total P Q' x := by
  rcases hx.returns with ⟨a, hval, ha⟩
  exact ⟨⟨a, hval, h a ha⟩, hx.logs⟩

end

/-! ## Loops -/

/-- What a turn of a loop ends with. -/
inductive Turn (σ α : Type) where
  | again (s : σ)
  | done (a : α)

/-- The loop with a given body.  Without fuel for another turn it does not return. -/
def iterate (body : σ → Traced ε (Turn σ α)) : Nat → σ → Traced ε α
  | 0, _ => ofOption none
  | fuel + 1, s => do
      match ← body s with
      | .again s' => iterate body fuel s'
      | .done a => pure a

/-- A turn ends the loop with `Q`, or it keeps the invariant and decreases the variant. -/
def Turn.Meets (Inv : σ → Prop) (variant : σ → Nat) (s : σ) (Q : α → Prop) : Turn σ α → Prop
  | .again s' => Inv s' ∧ variant s' < variant s
  | .done a => Q a

/-- A loop returns if it has one turn more than the variant counts. -/
theorem total_iterate {P : ε → Prop} {Q : α → Prop} {body : σ → Traced ε (Turn σ α)}
    (Inv : σ → Prop) (variant : σ → Nat)
    (hbody : ∀ s, Inv s → Total P (Turn.Meets Inv variant s Q) (body s))
    {fuel : Nat} {s : σ} (hs : Inv s) (hfuel : variant s < fuel) :
    Total P Q (iterate body fuel s) := by
  induction fuel generalizing s with
  | zero => contradiction
  | succ fuel ih =>
      rw [iterate]
      apply (hbody s hs).bind
      intro turn hturn
      cases turn with
      | again s' => exact ih hturn.1 (by have := hturn.2; omega)
      | done a => exact total_pure hturn

/-! ## Buffers -/

/-- An access to the buffer that is read or to the one that is written. -/
inductive Access where
  | read (i : Nat)
  | write (i : Nat)
deriving DecidableEq

/-- The access lies in buffers of the given lengths. -/
def Access.Within (readLen writeLen : Nat) : Access → Prop
  | .read i => i < readLen
  | .write i => i < writeLen

instance (readLen writeLen : Nat) : DecidablePred (Access.Within readLen writeLen)
  | .read i => inferInstanceAs (Decidable (i < readLen))
  | .write i => inferInstanceAs (Decidable (i < writeLen))

/-- `src[i]` -/
def readAt (src : List α) (i : Nat) : Traced Access α := do
  tell [.read i]
  ofOption src[i]?

/-- `dst[i] = a` -/
def writeAt {n : Nat} (dst : SlotTable α n) (i : Nat) (a : α) :
    Traced Access (SlotTable α n) := do
  tell [.write i]
  require (i < n)
  pure (dst.set i a)

section

variable {n w : Nat} {src : List α}

theorem total_tell {P : ε → Prop} {es : List ε} (h : ∀ e ∈ es, P e) :
    Total P (fun _ => True) (tell es) :=
  ⟨⟨(), rfl, trivial⟩, h⟩

theorem total_readAt {i : Nat} (hi : i < src.length) :
    Total (Access.Within src.length w) (fun a => src[i]? = some a) (readAt src i) := by
  have hlog : ∀ e ∈ [Access.read i], e.Within src.length w := List.forall_mem_singleton.mpr hi
  have hget : src[i]? = some src[i] := List.getElem?_eq_getElem hi
  apply (total_tell hlog).bind
  intro _ _
  exact ⟨⟨src[i], hget, hget⟩, logs_ofOption _⟩

theorem total_writeAt {r i : Nat} (dst : SlotTable α n) (hi : i < n) (a : α) :
    Total (Access.Within r n) (fun dst' => dst' = dst.set i a) (writeAt dst i a) := by
  have hlog : ∀ e ∈ [Access.write i], e.Within r n := List.forall_mem_singleton.mpr hi
  have hrequire : Total (Access.Within r n) (fun _ => True) (require (decide (i < n))) := by
    refine ⟨⟨(), ?_, trivial⟩, logs_require _⟩
    rw [val_require, decide_eq_true hi]
    rfl
  apply (total_tell hlog).bind
  intro _ _
  exact hrequire.bind fun _ _ => total_pure rfl

end

end Traced
end Foundation
