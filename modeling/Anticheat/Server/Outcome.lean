import Anticheat.Server.BanPipeline

/-!
# What becomes of one request

A request that the rate limiter lets pass is answered at once, or waits for its statement
and is answered when the database has carried it out.  Requests that come in between, and
their statements, change what the database holds but not which answers are possible.

Main results:

- Theorem {lit}`Service.run_outcome`: how a request stands after any further run.
- Theorem {lit}`Service.run_answered`: once the database has taken its statement, it is
  answered.
-/

namespace Anticheat

open Foundation

/-- How a request that got past the rate limiter can stand.  `faulty` says that the
database failed on its statement, although the parameters could be bound. -/
inductive Outcome (cfg : ServerConfig) (req : HttpRequest) (faulty : Prop) (after : Store) :
    FlightStatus → Prop where
  /-- as its handler left it -/
  | arrived : Outcome cfg req faulty after (dispatch (handle cfg req).2)
  /-- its statement was carried out on a database; rows of reports are kept from then on -/
  | performed {op : DbOp} (store : Store) (now : Int) : (handle cfg req).2 = .ok (.store op) →
      op.params.all bindable = true →
      (store.perform now op).1.reports <+: after.reports →
      Outcome cfg req faulty after (.answered (store.perform now op).2)
  /-- its statement failed -/
  | failed {op : DbOp} : (handle cfg req).2 = .ok (.store op) →
      op.params.all bindable = false ∨ faulty →
      Outcome cfg req faulty after (.answered internalError)

theorem Outcome.mono {cfg : ServerConfig} {req : HttpRequest} {faulty faulty' : Prop}
    {store store' : Store} {status : FlightStatus} (h : Outcome cfg req faulty store status)
    (hfaulty : faulty → faulty') (hstore : store.reports <+: store'.reports) :
    Outcome cfg req faulty' store' status := by
  cases h with
  | arrived => exact .arrived
  | performed before now hop hbind hrows => exact .performed before now hop hbind (hrows.trans hstore)
  | failed hop hfail => exact .failed hop (hfail.imp_right hfaulty)

/-- A request that came to no statement stands as its handler left it. -/
theorem Outcome.eq_dispatch {cfg : ServerConfig} {req : HttpRequest} {faulty : Prop}
    {after : Store} {status : FlightStatus} (h : Outcome cfg req faulty after status)
    (hnone : ∀ op, (handle cfg req).2 ≠ .ok (.store op)) :
    status = dispatch (handle cfg req).2 := by
  cases h with
  | arrived => rfl
  | performed _ _ hop _ _ => exact absurd hop (hnone _)
  | failed hop _ => exact absurd hop (hnone _)

/-- A request that waits does so for its own statement. -/
theorem Outcome.waiting {cfg : ServerConfig} {req : HttpRequest} {faulty : Prop} {store : Store}
    {op : DbOp} (h : Outcome cfg req faulty store (.waiting op)) :
    (handle cfg req).2 = .ok (.store op) := by
  generalize hstatus : FlightStatus.waiting op = status at h
  cases h with
  | arrived =>
      rcases hres : (handle cfg req).2 with e | r | op'
      · rw [hres] at hstatus
        cases e <;> simp [dispatch] at hstatus
      · rw [hres] at hstatus
        simp [dispatch] at hstatus
      · rw [hres] at hstatus
        simp only [dispatch, FlightStatus.waiting.injEq] at hstatus
        rw [hstatus]
  | performed => cases hstatus
  | failed => cases hstatus

/-- The statement of the request at a position was refused by the database. -/
def Faulted (i : Nat) (events : List ServiceEvent) : Prop :=
  ∃ now, .execute i false now ∈ events

/-- A step other than its own statement leaves a request as it is. -/
theorem Service.step_keeps {cfg : ServerConfig} {s : Service} {i : Nat} {f : Flight}
    (hf : s.flights[i]? = some f) {e : ServiceEvent} (he : ∀ ok now, e ≠ .execute i ok now) :
    (s.step cfg e).flights[i]? = some f := by
  have hlt := (List.getElem?_eq_some_iff.1 hf).1
  rcases s.step_cases cfg e with
    ⟨req, now, rfl, hstep⟩ | ⟨j, ok, now, g, op, rfl, hg, hop, hstep⟩ | ⟨-, hstep⟩
  · rw [hstep]
    simpa only [List.getElem?_append_left hlt] using hf
  · have hij : j ≠ i := by
      rintro rfl
      exact he ok now rfl
    rw [hstep]
    rcases s.perform_cases j g op ok now with heq | heq
    · rw [heq]
      simpa only [List.getElem?_set_ne hij] using hf
    · rw [heq]
      simpa only [List.getElem?_set_ne hij] using hf
  · rw [hstep]
    exact hf

/-- So does a run without its own statement. -/
theorem Service.run_keeps {cfg : ServerConfig} {s : Service} {i : Nat} {f : Flight}
    (hf : s.flights[i]? = some f) {events : List ServiceEvent}
    (hnone : ∀ ok now, .execute i ok now ∉ events) :
    (s.run cfg events).flights[i]? = some f := by
  induction events using List.reverseRecOn with
  | nil => exact hf
  | append_singleton events e ih =>
      rw [Service.run_concat]
      refine Service.step_keeps (ih fun ok now hmem => ?_) ?_
      · exact hnone ok now (List.mem_append_left _ hmem)
      · rintro ok now rfl
        exact hnone ok now (List.mem_append_right _ (List.mem_singleton_self _))

/-- One step keeps the possible outcomes of the request at a position. -/
theorem Service.step_outcome {cfg : ServerConfig} {req : HttpRequest} {s : Service} {i : Nat}
    {events : List ServiceEvent} {f : Flight} (hf : s.flights[i]? = some f)
    (h : Outcome cfg req (Faulted i events) s.store f.status) (e : ServiceEvent) :
    ∃ f', (s.step cfg e).flights[i]? = some f' ∧
      Outcome cfg req (Faulted i (events ++ [e])) (s.step cfg e).store f'.status := by
  have hfaulted : Faulted i events → Faulted i (events ++ [e]) := by
    rintro ⟨now, hnow⟩
    exact ⟨now, List.mem_append_left _ hnow⟩
  have hrows : s.store.reports <+: (s.step cfg e).store.reports := s.run_reports cfg [e]
  have hkeep := h.mono hfaulted hrows
  have hlt := (List.getElem?_eq_some_iff.1 hf).1
  by_cases hown : ∃ ok now op, e = .execute i ok now ∧ f.status = .waiting op
  · -- the statement of the request itself
    rcases hown with ⟨ok, now, op, rfl, hop⟩
    rw [hop] at h
    have hhandle := h.waiting
    have hstep : s.step cfg (.execute i ok now) = s.perform i f op ok now := by
      simp only [Service.step, hf, hop]
    rw [hstep, Service.perform]
    split
    · rename_i hok
      rw [Bool.and_eq_true] at hok
      refine ⟨_, List.getElem?_set_self hlt, ?_⟩
      exact .performed s.store now hhandle hok.2 (List.prefix_refl _)
    · rename_i hok
      refine ⟨_, List.getElem?_set_self hlt, .failed hhandle ?_⟩
      cases ok with
      | true =>
          left
          simpa using hok
      | false => exact Or.inr ⟨now, by simp⟩
  · refine ⟨f, ?_, hkeep⟩
    by_cases he : ∃ ok now, e = .execute i ok now
    · -- a request that does not wait is not answered again
      rcases he with ⟨ok, now, rfl⟩
      rcases hstatus : f.status with r | - | op
      · simp only [Service.step, hf, hstatus]
      · simp only [Service.step, hf, hstatus]
      · exact absurd ⟨ok, now, op, rfl, hstatus⟩ hown
    · exact Service.step_keeps hf fun ok now heq => he ⟨ok, now, heq⟩

/-- A request that passes the limiter, after any further run. -/
theorem Service.run_outcome {cfg : ServerConfig} {req : HttpRequest} {s : Service} {time : ℚ}
    (hallowed : (s.limiter.allow (clientIp cfg req) time).1 = true)
    (events : List ServiceEvent) :
    ∃ f, (s.run cfg (.arrive req time :: events)).flights[s.flights.length]? = some f ∧
      Outcome cfg req (Faulted s.flights.length events)
        (s.run cfg (.arrive req time :: events)).store f.status := by
  induction events using List.reverseRecOn with
  | nil =>
      exact ⟨_, Service.step_arrive hallowed, .arrived⟩
  | append_singleton events e ih =>
      rcases ih with ⟨f, hf, hout⟩
      rw [← List.cons_append, Service.run_concat]
      exact Service.step_outcome hf hout e

/-- The statement of a request that waits answers it. -/
theorem Service.execute_not_waiting {cfg : ServerConfig} {s : Service} {i : Nat} {ok : Bool}
    {now : Int} {f : Flight} (hf : (s.step cfg (.execute i ok now)).flights[i]? = some f)
    (op : DbOp) : f.status ≠ .waiting op := by
  intro hwaiting
  rcases s.step_cases cfg (.execute i ok now) with
    ⟨_, _, heq, _⟩ | ⟨j, ok', now', g, op', heq, hg, hop, hstep⟩ | ⟨-, hstep⟩
  · cases heq
  · cases heq
    have hlt := (List.getElem?_eq_some_iff.1 hg).1
    rw [hstep] at hf
    rcases s.perform_cases i g op' ok now with hperform | hperform
    · rw [hperform, List.getElem?_set_self hlt, Option.some.injEq] at hf
      subst hf
      cases hwaiting
    · rw [hperform, List.getElem?_set_self hlt, Option.some.injEq] at hf
      subst hf
      cases hwaiting
  · -- a step that changes nothing finds no request that waits
    rw [hstep] at hf
    have hperform : s.step cfg (.execute i ok now) = s.perform i f op ok now := by
      simp only [Service.step, hf, hwaiting]
    rw [hstep] at hperform
    have hlt := (List.getElem?_eq_some_iff.1 hf).1
    rcases s.perform_cases i f op ok now with heq | heq
    · have hset := congrArg Service.statements (hperform.trans heq)
      simp at hset
    · have hset := congrArg Service.statements (hperform.trans heq)
      simp at hset

/-- How a request stands once the database has taken its statement, if the database never
fails on it: as its handler left it, or answered for the statement. -/
theorem Service.run_answered {cfg : ServerConfig} {req : HttpRequest} {s : Service} {time : ℚ}
    (hallowed : (s.limiter.allow (clientIp cfg req) time).1 = true)
    {events : List ServiceEvent} (hserves : ¬Faulted s.flights.length events) (now : Int) :
    ∃ f, (s.run cfg (.arrive req time :: events ++
        [.execute s.flights.length true now])).flights[s.flights.length]? = some f ∧
      (∀ op, f.status ≠ .waiting op) ∧
      Outcome cfg req False (s.run cfg (.arrive req time :: events ++
        [.execute s.flights.length true now])).store f.status := by
  rcases Service.run_outcome hallowed (events ++ [.execute s.flights.length true now]) with
    ⟨f, hf, hout⟩
  rw [← List.cons_append] at hf hout
  have hnot : ¬Faulted s.flights.length (events ++ [.execute s.flights.length true now]) := by
    rintro ⟨now', hmem⟩
    rcases List.mem_append.1 hmem with hmem | hmem
    · exact hserves ⟨now', hmem⟩
    · simp at hmem
  refine ⟨f, hf, ?_, hout.mono (fun h => hnot h) (List.prefix_refl _)⟩
  rw [Service.run_concat] at hf
  exact Service.execute_not_waiting hf

end Anticheat
