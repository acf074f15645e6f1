import Mathlib.Data.List.Basic
import Mathlib.Logic.Function.Iterate
import Mathlib.Tactic

/-!
# Scans with a guard

A loop that goes from one position to the next while a guard holds, and stops at the
first position that passes a test.  The number of steps is bounded, so that the loop is a
function; where the guard fails in time, the bound plays no part.

Main results:

- Theorem {lit}`scan_eq_some_iff`: a scan stops at the first position that passes, which
  is the least one in any order in which the positions rise.
- Theorem {lit}`scan_eq_none_iff`: a scan finds nothing exactly if no position passes.
-/

namespace Foundation
namespace GuardedScan

variable {α : Type}

/-- `for (a = start; inside(a); a = next(a)) if (test(a)) return a;` -/
def scan (inside test : α → Bool) (next : α → α) : Nat → α → Option α
  | 0, _ => none
  | fuel + 1, a =>
      if inside a then
        if test a then some a else scan inside test next fuel (next a)
      else none

variable {inside test : α → Bool} {next : α → α}

/-- What a scan finds passes the test. -/
theorem scan_test {fuel : Nat} {a b : α} (h : scan inside test next fuel a = some b) :
    test b = true := by
  induction fuel generalizing a with
  | zero => contradiction
  | succ fuel ih =>
      rw [scan] at h
      split_ifs at h with hinside htest
      · rw [← Option.some.inj h]
        exact htest
      · exact ih h

/-- A scan whose guard fails after `n` steps tests the positions up to there. -/
theorem scan_eq_find? {n : Nat} {a : α} (hin : ∀ k < n, inside (next^[k] a) = true)
    (hout : inside (next^[n] a) = false) {fuel : Nat} (hfuel : n < fuel) :
    scan inside test next fuel a = ((List.range n).map fun k => next^[k] a).find? test := by
  induction n generalizing a fuel with
  | zero =>
      rcases Nat.exists_eq_succ_of_ne_zero (Nat.ne_of_gt hfuel) with ⟨fuel, rfl⟩
      simp only [Function.iterate_zero, id_eq] at hout
      simp [scan, hout]
  | succ n ih =>
      rcases Nat.exists_eq_succ_of_ne_zero (Nat.ne_of_gt (Nat.zero_lt_of_lt hfuel)) with
        ⟨fuel, rfl⟩
      have hhead : inside a = true := hin 0 (Nat.succ_pos n)
      have hrest := ih (a := next a) (fun k hk => hin (k + 1) (Nat.succ_lt_succ hk)) hout
        (Nat.lt_of_succ_lt_succ hfuel)
      have hpositions : (List.range (n + 1)).map (fun k => next^[k] a) =
          a :: (List.range n).map fun k => next^[k] (next a) := by
        rw [List.range_succ_eq_map, List.map_cons, List.map_map]
        rfl
      rw [scan, if_pos hhead, hpositions, List.find?_cons, hrest]
      cases test a <;> rfl

/-- The first of some numbered positions that passes a test. -/
theorem find?_map_range_eq_some_iff {f : Nat → α} {n : Nat} {a : α} :
    ((List.range n).map f).find? test = some a ↔
      ∃ k < n, f k = a ∧ test (f k) = true ∧ ∀ j < k, test (f j) = false := by
  induction n with
  | zero => simp
  | succ n ih =>
      rw [List.range_succ, List.map_append, List.find?_append, Option.or_eq_some_iff, ih,
        List.find?_eq_none]
      simp only [List.map_cons, List.map_nil, List.find?_singleton, List.mem_map, List.mem_range,
        forall_exists_index, and_imp, forall_apply_eq_imp_iff₂, Bool.not_eq_true]
      constructor
      · rintro (⟨k, hk, hfirst⟩ | ⟨hnone, hlast⟩)
        · exact ⟨k, Nat.lt_succ_of_lt hk, hfirst⟩
        · split at hlast
          · rename_i htest
            exact ⟨n, Nat.lt_succ_self n, Option.some.inj hlast, htest, hnone⟩
          · contradiction
      · rintro ⟨k, hk, heq, htest, hfirst⟩
        rcases Nat.lt_succ_iff_lt_or_eq.1 hk with hk | rfl
        · exact Or.inl ⟨k, hk, heq, htest, hfirst⟩
        · exact Or.inr ⟨hfirst, by rw [if_pos htest, heq]⟩

/-- The positions that a scan of `n` steps visits. -/
def Visits (next : α → α) (n : Nat) (a b : α) : Prop :=
  ∃ k < n, next^[k] a = b

section

variable {n fuel : Nat} {a : α} (hin : ∀ k < n, inside (next^[k] a) = true)
  (hout : inside (next^[n] a) = false) (hfuel : n < fuel)
include hin hout hfuel

/-- A scan along which a rank rises stops at the position of least rank that passes the
test. -/
theorem scan_eq_some_iff {β : Type} [LinearOrder β] (rank : α → β)
    (hrank : ∀ j k, j < k → k < n → rank (next^[j] a) < rank (next^[k] a)) {b : α} :
    scan inside test next fuel a = some b ↔
      Visits next n a b ∧ test b = true ∧
        ∀ c, Visits next n a c → test c = true → rank b ≤ rank c := by
  rw [scan_eq_find? hin hout hfuel, find?_map_range_eq_some_iff]
  constructor
  · rintro ⟨k, hk, rfl, htest, hfirst⟩
    refine ⟨⟨k, hk, rfl⟩, htest, ?_⟩
    rintro c ⟨j, hj, rfl⟩ hc
    rcases Nat.lt_trichotomy j k with hjk | rfl | hkj
    · rw [hfirst j hjk] at hc
      contradiction
    · exact le_rfl
    · exact (hrank k j hkj hj).le
  · rintro ⟨⟨k, hk, rfl⟩, htest, hleast⟩
    refine ⟨k, hk, rfl, htest, ?_⟩
    intro j hj
    rw [← Bool.not_eq_true]
    intro hc
    exact absurd (hleast _ ⟨j, hj.trans hk, rfl⟩ hc) (not_le.2 (hrank j k hj hk))

/-- A scan finds nothing exactly if no position passes the test. -/
theorem scan_eq_none_iff :
    scan inside test next fuel a = none ↔ ∀ b, Visits next n a b → test b = false := by
  rw [scan_eq_find? hin hout hfuel, List.find?_eq_none]
  simp only [Visits, List.mem_map, List.mem_range, forall_exists_index, and_imp,
    Bool.not_eq_true]

end

end GuardedScan
end Foundation
