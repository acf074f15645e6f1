import Mathlib.Tactic

/-!
# Who holds a reference

Objects are counted by their users.  Each user is at a point of its code where it holds a
reference to some object, or to none.  The number of users that hold an object changes with
the one user that moves, so a counter that is moved along with it stays exact.

Main results:

- Theorem {lit}`holders_set`: the holders of an object after one user has moved.
- Theorem {lit}`one_le_holders`: an object that somebody holds has a holder.
- Theorem {lit}`holders_eq_zero`: users that hold nothing leave nothing held.
-/

namespace Foundation

variable {User Object : Type}

section Counting

variable [DecidableEq Object]

/-- The reference as a number: one for the object that is held, zero for the others. -/
def share (held : Option Object) (x : Object) : Int :=
  if held = some x then 1 else 0

/-- The number of users that hold an object. -/
def holders (held : User → Option Object) (users : List User) (x : Object) : Int :=
  (users.map fun u => share (held u) x).sum

@[simp]
theorem share_none (x : Object) : share none x = 0 :=
  rfl

theorem share_some (y x : Object) : share (some y) x = if x = y then 1 else 0 := by
  simp only [share, Option.some.injEq, eq_comm]

theorem share_nonneg (held : Option Object) (x : Object) : 0 ≤ share held x := by
  unfold share
  split
  · exact Int.one_nonneg
  · exact Int.le_refl 0

@[simp]
theorem holders_nil (held : User → Option Object) (x : Object) : holders held [] x = 0 :=
  rfl

theorem holders_append (held : User → Option Object) (users : List User) (u : User)
    (x : Object) : holders held (users ++ [u]) x = holders held users x + share (held u) x := by
  simp [holders]

/-- One user moves on. -/
theorem holders_set (held : User → Option Object) {users : List User} {i : Nat} {u : User}
    (hu : users[i]? = some u) (u' : User) (x : Object) :
    holders held (users.set i u') x =
      holders held users x - share (held u) x + share (held u') x := by
  induction users generalizing i with
  | nil => simp at hu
  | cons v users ih =>
      cases i with
      | zero =>
          cases hu
          simp only [holders, List.set_cons_zero, List.map_cons, List.sum_cons]
          omega
      | succ i =>
          have hrest := ih hu
          simp only [holders, List.set_cons_succ, List.map_cons, List.sum_cons] at hrest ⊢
          omega

theorem holders_nonneg (held : User → Option Object) (users : List User) (x : Object) :
    0 ≤ holders held users x := by
  induction users with
  | nil => exact Int.le_refl 0
  | cons u users ih =>
      have hshare := share_nonneg (held u) x
      simp only [holders, List.map_cons, List.sum_cons] at ih ⊢
      omega

theorem one_le_holders (held : User → Option Object) {users : List User} {u : User} {x : Object}
    (hu : u ∈ users) (hheld : held u = some x) : 1 ≤ holders held users x := by
  induction users with
  | nil => cases hu
  | cons v users ih =>
      have hshare := share_nonneg (held v) x
      have hrest := holders_nonneg held users x
      cases hu with
      | head =>
          have hone : share (held u) x = 1 := if_pos hheld
          simp only [holders, List.map_cons, List.sum_cons] at hrest ⊢
          omega
      | tail _ hu =>
          have hlater := ih hu
          simp only [holders, List.map_cons, List.sum_cons] at hlater ⊢
          omega

theorem holders_eq_zero {held : User → Option Object} {users : List User}
    (hnone : ∀ u ∈ users, held u = none) (x : Object) : holders held users x = 0 := by
  induction users with
  | nil => rfl
  | cons u users ih =>
      have hrest := ih (fun v hv => hnone v (List.mem_cons_of_mem u hv))
      have hfirst : share (held u) x = 0 := by
        rw [hnone u List.mem_cons_self]
        rfl
      simp only [holders, List.map_cons, List.sum_cons] at hrest ⊢
      omega

end Counting

end Foundation
