import Mathlib.Data.Set.Card
import Anticheat.Server.RateLimiter

/-!
# Dropping buckets makes no difference and bounds memory

The rate limiter keeps a bucket for each key that it has seen.  About once in a window
a request drops those whose window has elapsed, so that the table does not grow with
every address that ever sent a request.

The limiter is compared here with one that never drops a bucket.  The two hold different
tables, but a bucket that only the second one holds has elapsed, and an elapsed bucket
counts for no later request.

Main results:

- Theorem {lit}`RateLimiter.answers_eq_unpruned`: both limiters answer every request
  alike.
- Theorem {lit}`RateLimiter.Fresh.window_start`: a bucket that is stored belongs to the
  last two windows.
- Theorem {lit}`RateLimiter.pruning_invisible_and_bounded`: both facts for every sequence
  of calls.
-/

namespace Anticheat

open Foundation

namespace RateLimiter

variable {κ τ : Type} [DecidableEq κ] [AddCommGroup τ] [LinearOrder τ]

/-! ## The limiter that never drops a bucket -/

/-- `allow` without its last step. -/
def allowUnpruned (l : RateLimiter κ τ) (key : κ) (now : τ) : Bool × RateLimiter κ τ :=
  let (windowStart, count) := (l.buckets key).getD (now, 0)
  let (windowStart, count) :=
    if now - windowStart ≥ l.window then (now, 0) else (windowStart, count)
  let count := count + 1
  (decide (count ≤ l.limit),
    { l with buckets := Function.update l.buckets key (some (windowStart, count)) })

/-- The calls of a sequence, each with the answer of the limiter that never drops a
bucket. -/
def answersUnpruned (l : RateLimiter κ τ) : List (κ × τ) → List ((κ × τ) × Bool)
  | [] => []
  | c :: calls =>
      (c, (l.allowUnpruned c.1 c.2).1) :: answersUnpruned (l.allowUnpruned c.1 c.2).2 calls

theorem allowUnpruned_eq (l : RateLimiter κ τ) (key : κ) (now : τ) :
    l.allowUnpruned key now =
      (decide ((FixedWindow.hit l.window (l.buckets key) now).2 ≤ l.limit),
        l.counted key now) := by
  unfold allowUnpruned counted FixedWindow.hit
  rcases (l.buckets key).getD (now, 0) with ⟨windowStart, count⟩
  by_cases helapsed : now - windowStart ≥ l.window
  · simp only [if_pos helapsed]
  · simp only [if_neg helapsed]

/-! ## The two limiters answer alike -/

variable [IsOrderedAddMonoid τ]

/-- Two limiters whose buckets count every later call alike, from a time on. -/
structure CountsAlike (l u : RateLimiter κ τ) (since : τ) : Prop where
  limit : l.limit = u.limit
  window : l.window = u.window
  hit : ∀ (k : κ) (t : τ), since ≤ t →
    FixedWindow.hit l.window (l.buckets k) t = FixedWindow.hit u.window (u.buckets k) t

/-- A call keeps the two limiters alike, whether or not the first one drops buckets. -/
theorem CountsAlike.allow {l u : RateLimiter κ τ} {since now : τ} (h : CountsAlike l u since)
    (hnow : since ≤ now) (key : κ) :
    (l.allow key now).1 = (u.allowUnpruned key now).1 ∧
      CountsAlike (l.allow key now).2 (u.allowUnpruned key now).2 now := by
  rw [allowUnpruned_eq]
  constructor
  · rw [allow_eq, h.hit key now hnow, h.limit]
  refine ⟨(allow_limit l key now).trans h.limit, (allow_window l key now).trans h.window, ?_⟩
  intro k t ht
  have hdrop : FixedWindow.hit l.window ((l.allow key now).2.buckets k) t =
      FixedWindow.hit l.window ((l.counted key now).buckets k) t := by
    rcases allow_buckets l key now k with hb | hb
    · rw [hb]
    · rw [hb, hit_filter _ ht]
  rw [allow_window, hdrop]
  by_cases hk : k = key
  · subst hk
    simp only [counted, Function.update_self]
    rw [h.hit k now hnow, h.window]
  · simp only [counted, Function.update_of_ne hk]
    exact h.hit k t (hnow.trans ht)

theorem CountsAlike.answers {l u : RateLimiter κ τ} {since : τ} (h : CountsAlike l u since)
    {calls : List (κ × τ)} (hclock : calls.Pairwise fun c c' => c.2 ≤ c'.2)
    (hsince : ∀ c ∈ calls, since ≤ c.2) : l.answers calls = u.answersUnpruned calls := by
  induction calls generalizing l u since with
  | nil => rfl
  | cons c calls ih =>
      rw [List.pairwise_cons] at hclock
      rcases h.allow (hsince c List.mem_cons_self) c.1 with ⟨hanswer, hnext⟩
      rw [RateLimiter.answers, answersUnpruned, hanswer, ih hnext hclock.2 hclock.1]

/-- For calls in the order of the clock, dropping buckets changes no answer. -/
theorem answers_eq_unpruned (l : RateLimiter κ τ) {calls : List (κ × τ)}
    (hclock : calls.Pairwise fun c c' => c.2 ≤ c'.2) :
    l.answers calls = l.answersUnpruned calls := by
  cases calls with
  | nil => rfl
  | cons c calls =>
      have hsame : CountsAlike l l c.2 := ⟨rfl, rfl, fun _ _ _ => rfl⟩
      refine hsame.answers hclock ?_
      intro c' hc'
      rcases List.mem_cons.1 hc' with rfl | hc'
      · exact le_refl _
      · exact (List.pairwise_cons.1 hclock).1 c' hc'

/-! ## Which buckets are stored -/

/-- The table after the calls `seen`, the last one at `now`: the last drop was less than
a window ago, a bucket was young then or has opened since, and each bucket opened with a
call of its key. -/
structure Fresh (l : RateLimiter κ τ) (seen : List (κ × τ)) (now : τ) : Prop where
  ordered : l.lastPrune ≤ now
  recent : now - l.lastPrune < l.window
  young : ∀ k b, l.buckets k = some b → l.lastPrune - b.1 < l.window
  opened : ∀ k b, l.buckets k = some b → (k, b.1) ∈ seen

omit [DecidableEq κ] [IsOrderedAddMonoid τ] in
theorem Fresh.init (limit : Nat) {window : τ} (hw : 0 < window) (start : τ) :
    Fresh (RateLimiter.init limit window start : RateLimiter κ τ) [] start where
  ordered := le_refl _
  recent := by
    change start - start < window
    rwa [sub_self]
  young k b hb := by cases hb
  opened k b hb := by cases hb

omit [IsOrderedAddMonoid τ] in
/-- The window of a key that was just counted: the old one, or one that opens now. -/
theorem hit_start (w : τ) (b : Option (τ × Nat)) (now : τ) :
    (FixedWindow.hit w b now).1 = now ∨ ∃ b', b = some b' ∧ (FixedWindow.hit w b now).1 = b'.1 := by
  cases b with
  | none => exact Or.inl (by rw [FixedWindow.hit_none])
  | some b =>
      by_cases helapsed : w ≤ now - b.1
      · exact Or.inl (by rw [FixedWindow.hit_elapsed helapsed])
      · exact Or.inr ⟨b, rfl, by rw [FixedWindow.hit_open (not_le.1 helapsed)]⟩

omit [IsOrderedAddMonoid τ] in
/-- Where a bucket comes from that the table holds once a call is counted. -/
theorem counted_start {l : RateLimiter κ τ} {key k : κ} {now : τ} {b : τ × Nat}
    (hb : (l.counted key now).buckets k = some b) :
    (k = key ∧ b.1 = now) ∨ ∃ b', l.buckets k = some b' ∧ b.1 = b'.1 := by
  by_cases hk : k = key
  · subst hk
    simp only [counted, Function.update_self, Option.some.injEq] at hb
    subst hb
    rcases hit_start l.window (l.buckets k) now with hnow | hold
    · exact Or.inl ⟨rfl, hnow⟩
    · exact Or.inr hold
  · simp only [counted, Function.update_of_ne hk] at hb
    exact Or.inr ⟨b, hb, rfl⟩

/-- One call keeps the table fresh. -/
theorem Fresh.allow {l : RateLimiter κ τ} {seen : List (κ × τ)} {prev now : τ}
    (h : Fresh l seen prev) (hw : 0 < l.window) (hnow : prev ≤ now) (key : κ) :
    Fresh (l.allow key now).2 (seen ++ [(key, now)]) now := by
  have hopened : ∀ k b, (l.counted key now).buckets k = some b →
      (k, b.1) ∈ seen ++ [(key, now)] := by
    intro k b hb
    rcases counted_start hb with ⟨rfl, hstart⟩ | ⟨b', hb', hstart⟩
    · rw [hstart]
      simp
    · rw [hstart]
      exact List.mem_append_left _ (h.opened k b' hb')
  rw [allow_eq]
  dsimp only
  split
  · -- the buckets that stay after a drop have not elapsed
    refine ⟨le_refl _, ?_, ?_, ?_⟩
    · change now - now < l.window
      rwa [sub_self]
    · intro k b hb
      exact not_le.1 (of_decide_eq_true (Option.filter_eq_some_iff.1 hb).2)
    · intro k b hb
      exact hopened k b (Option.filter_eq_some_iff.1 hb).1
  · rename_i hkeep
    refine ⟨h.ordered.trans hnow, not_le.1 hkeep, ?_, hopened⟩
    intro k b hb
    rcases counted_start hb with ⟨-, hstart⟩ | ⟨b', hb', hstart⟩
    · calc l.lastPrune - b.1 ≤ 0 := by
            rw [hstart, sub_nonpos]
            exact h.ordered.trans hnow
        _ < l.window := hw
    · rw [hstart]
      exact h.young k b' hb'

omit [IsOrderedAddMonoid τ] in
theorem after_concat (l : RateLimiter κ τ) (calls : List (κ × τ)) (c : κ × τ) :
    l.after (calls ++ [c]) = ((l.after calls).allow c.1 c.2).2 := by
  rw [after, List.foldl_append]
  rfl

omit [IsOrderedAddMonoid τ] in
@[simp]
theorem after_window (l : RateLimiter κ τ) (calls : List (κ × τ)) :
    (l.after calls).window = l.window := by
  induction calls using List.reverseRecOn with
  | nil => rfl
  | append_singleton calls c ih => rw [after_concat, allow_window, ih]

/-- The table is fresh after every call. -/
theorem Fresh.after (limit : Nat) {window start : τ} (hw : 0 < window) {calls : List (κ × τ)}
    (hclock : calls.Pairwise fun c c' => c.2 ≤ c'.2) (hstart : ∀ c ∈ calls, start ≤ c.2) :
    Fresh ((RateLimiter.init limit window start).after calls) calls
      ((calls.map Prod.snd).getLastD start) := by
  induction calls using List.reverseRecOn with
  | nil => exact Fresh.init limit hw start
  | append_singleton calls c ih =>
      rw [List.pairwise_append] at hclock
      have hprev := ih hclock.1 fun c' hc' => hstart c' (List.mem_append_left _ hc')
      have hle : (calls.map Prod.snd).getLastD start ≤ c.2 := by
        have hmem : (calls.map Prod.snd).getLastD start ∈ start :: calls.map Prod.snd :=
          List.getLastD_mem_cons
        rcases List.mem_cons.1 hmem with h | h
        · rw [h]
          exact hstart c (by simp)
        · rcases List.mem_map.1 h with ⟨c', hc', hc''⟩
          rw [← hc'']
          exact hclock.2.2 c' hc' c (by simp)
      have hnext := hprev.allow (by rwa [after_window]) hle c.1
      rw [after_concat]
      simpa using hnext

omit [DecidableEq κ] in
/-- A stored bucket belongs to the last two windows. -/
theorem Fresh.window_start {l : RateLimiter κ τ} {seen : List (κ × τ)} {now : τ}
    (h : Fresh l seen now) {k : κ} {b : τ × Nat} (hb : l.buckets k = some b) :
    now - (l.window + l.window) < b.1 := by
  have hsum : now - b.1 < l.window + l.window := by
    calc now - b.1 = (now - l.lastPrune) + (l.lastPrune - b.1) := by abel
      _ < l.window + l.window := add_lt_add h.recent (h.young k b hb)
  rw [sub_lt_iff_lt_add] at hsum ⊢
  rwa [add_comm]

/-- The keys that called later than a time. -/
def keysSince (t : τ) (calls : List (κ × τ)) : Finset κ :=
  ((calls.filter fun c => t < c.2).map Prod.fst).toFinset

/-- There are no more buckets than keys that called in the last two windows. -/
theorem Fresh.encard_le {l : RateLimiter κ τ} {seen : List (κ × τ)} {now : τ}
    (h : Fresh l seen now) :
    {k | l.buckets k ≠ none}.encard ≤ (keysSince (now - (l.window + l.window)) seen).card := by
  rw [← Set.encard_coe_eq_coe_finsetCard]
  apply Set.encard_le_encard
  intro k hk
  rcases Option.ne_none_iff_exists'.1 hk with ⟨b, hb⟩
  have hrecent := h.window_start hb
  simp only [keysSince, List.coe_toFinset, List.mem_map, List.mem_filter, decide_eq_true_eq,
    Set.mem_ofPred_eq]
  exact ⟨(k, b.1), ⟨h.opened k b hb, hrecent⟩, rfl⟩

/-- For every limit, window and sequence of calls in the order of the clock: the answers
are those of a limiter that never drops a bucket.  If the limiter was made before the
first call, then after each call every stored bucket opened in the last two windows, and
there are no more buckets than keys that called in them. -/
theorem pruning_invisible_and_bounded (limit : Nat) {window : τ} (hw : 0 < window) (start : τ)
    {calls : List (κ × τ)} (hclock : calls.Pairwise fun c c' => c.2 ≤ c'.2) :
    (init limit window start).answers calls = (init limit window start).answersUnpruned calls ∧
      ((∀ c ∈ calls, start ≤ c.2) → ∀ seen key now, seen ++ [(key, now)] <+: calls →
        (∀ k b, ((init limit window start).after (seen ++ [(key, now)])).buckets k = some b →
          now - (window + window) < b.1) ∧
        {k | ((init limit window start).after (seen ++ [(key, now)])).buckets k ≠ none}.encard ≤
          (keysSince (now - (window + window)) (seen ++ [(key, now)])).card) := by
  refine ⟨answers_eq_unpruned _ hclock, ?_⟩
  intro hstart seen key now hseen
  have hfresh := Fresh.after limit hw (hclock.sublist hseen.sublist)
    fun c hc => hstart c (hseen.subset hc)
  have hlast : ((seen ++ [(key, now)]).map Prod.snd).getLastD start = now := by simp
  have hwindow : ((init limit window start).after (seen ++ [(key, now)])).window = window :=
    after_window _ _
  rw [hlast] at hfresh
  constructor
  · intro k b hb
    have hrecent := hfresh.window_start hb
    rwa [hwindow] at hrecent
  · have hcard := hfresh.encard_le
    rwa [hwindow] at hcard

/-- Two keys and a window of ten: the third call drops the bucket of the key that stays
away. -/
theorem pruning_three_calls :
    let l : RateLimiter Nat Int := init 1 10 0
    let calls := [(0, 0), (1, 5), (0, 20)]
    l.answers calls = l.answersUnpruned calls ∧
      (∀ k b, (l.after calls).buckets k = some b → 0 < b.1) ∧
      {k | (l.after calls).buckets k ≠ none}.encard ≤ 2 := by
  intro l calls
  have hclock : calls.Pairwise fun c c' => c.2 ≤ c'.2 := by decide
  have h := pruning_invisible_and_bounded 1 (by decide : (0 : Int) < 10) 0 hclock
  have hlast := h.2 (by decide) [(0, 0), (1, 5)] 0 20 (List.prefix_refl _)
  exact ⟨h.1, hlast.1, hlast.2⟩

end RateLimiter

end Anticheat
