import Mathlib.Data.Rat.Defs
import Mathlib.Algebra.Order.Ring.Rat
import Anticheat.Server.Handler
import Anticheat.Server.RateLimiter

/-!
# The server as a whole

A request first takes the rate limiter's lock; what its handler does after that touches
nothing that is shared, until it comes to its one database statement.  A run is therefore
a sequence of arrivals, in the order of the limiter's lock, and of statements that are
carried out, in the order of the database; the statements of different requests come in
any order.

The state keeps, beside the limiter and the tables, every request with how it was
answered, and the statements in the order in which they were carried out.
-/

namespace Anticheat

open Foundation

/-! ## The system -/

/-- How far a request has come. -/
inductive FlightStatus where
  | answered (r : Response)
  /-- the client has gone, and nothing was sent -/
  | dropped
  | waiting (op : DbOp)

structure Flight where
  request : HttpRequest
  /-- the key that the rate limiter counts the request under -/
  key : PyStr
  time : ℚ
  /-- the keys that the request's token was compared with -/
  compared : List PyStr
  status : FlightStatus

/-- A statement that was carried out or that failed. -/
structure Statement where
  flight : Nat
  request : HttpRequest
  ok : Bool
  time : Int

structure Service where
  limiter : RateLimiter PyStr ℚ
  store : Store
  flights : List Flight
  statements : List Statement

inductive ServiceEvent where
  | arrive (req : HttpRequest) (now : ℚ)
  /-- the database takes the statement of a request, which may fail -/
  | execute (flight : Nat) (ok : Bool) (now : Int)

/-- A server that starts on a database. -/
def Service.start (cfg : ServerConfig) (now : ℚ) (store : Store) : Service where
  limiter := .init cfg.limit cfg.window now
  store := store
  flights := []
  statements := []

/-- The answer of `_rate_limited`. -/
def rateLimitedAnswer (cfg : ServerConfig) : Response :=
  { Response.error 429 "rate limited" with
    extraHeaders := [(PyStr.ofString "Retry-After", PyStr.digits cfg.window)] }

def internalError : Response := .error 500 "internal error"

/-- `_dispatch`: what becomes of a handler's end -/
def dispatch : Except PyExc Reply → FlightStatus
  | .ok (.send r) => .answered r
  | .ok (.store op) => .waiting op
  | .error .connection => .dropped
  | .error .other => .answered internalError

/-- A request that the rate limiter has answered for. -/
def arrival (cfg : ServerConfig) (req : HttpRequest) (now : ℚ) (allowed : Bool) : Flight :=
  if allowed then
    { request := req, key := clientIp cfg req, time := now
      compared := (handle cfg req).1, status := dispatch (handle cfg req).2 }
  else
    { request := req, key := clientIp cfg req, time := now
      compared := [], status := .answered (rateLimitedAnswer cfg) }

/-- The statement of a request that waits for it. -/
def Service.perform (s : Service) (i : Nat) (f : Flight) (op : DbOp) (ok : Bool) (now : Int) :
    Service :=
  if ok && op.params.all bindable then
    { s with
      store := (s.store.perform now op).1
      flights := s.flights.set i { f with status := .answered (s.store.perform now op).2 }
      statements := s.statements ++ [⟨i, f.request, true, now⟩] }
  else
    { s with
      flights := s.flights.set i { f with status := .answered internalError }
      statements := s.statements ++ [⟨i, f.request, false, now⟩] }

def Service.step (cfg : ServerConfig) (s : Service) : ServiceEvent → Service
  | .arrive req now =>
      let (allowed, limiter) := s.limiter.allow (clientIp cfg req) now
      { s with limiter := limiter, flights := s.flights ++ [arrival cfg req now allowed] }
  | .execute i ok now =>
      match s.flights[i]? with
      | some f =>
          match f.status with
          | .waiting op => s.perform i f op ok now
          | _ => s
      | none => s

def Service.run (cfg : ServerConfig) (s : Service) (events : List ServiceEvent) : Service :=
  events.foldl (Service.step cfg) s

/-! ## What one step does -/

/-- The requests of a run, in the order of the limiter's lock. -/
def arrivals (events : List ServiceEvent) : List (HttpRequest × ℚ) :=
  events.filterMap fun
    | .arrive req now => some (req, now)
    | .execute .. => none

/-- A step is an arrival, a statement that succeeds or fails, or nothing. -/
theorem Service.step_cases (cfg : ServerConfig) (s : Service) (e : ServiceEvent) :
    (∃ req now, e = .arrive req now ∧ s.step cfg e =
      { s with
        limiter := (s.limiter.allow (clientIp cfg req) now).2
        flights := s.flights ++
          [arrival cfg req now (s.limiter.allow (clientIp cfg req) now).1] }) ∨
    (∃ i ok now f op, e = .execute i ok now ∧ s.flights[i]? = some f ∧ f.status = .waiting op ∧
      s.step cfg e = s.perform i f op ok now) ∨
    (arrivals [e] = [] ∧ s.step cfg e = s) := by
  cases e with
  | arrive req now => exact Or.inl ⟨req, now, rfl, rfl⟩
  | execute i ok now =>
      right
      simp only [Service.step]
      cases hf : s.flights[i]? with
      | none => exact Or.inr ⟨rfl, rfl⟩
      | some f =>
          cases hst : f.status with
          | answered r =>
              right
              simp [hst, arrivals]
          | dropped =>
              right
              simp [hst, arrivals]
          | waiting op =>
              left
              exact ⟨i, ok, now, f, op, rfl, hf ▸ rfl, hst, by simp [hst]⟩

/-- A request that passes the limiter goes to its handler. -/
theorem Service.step_arrive {cfg : ServerConfig} {s : Service} {req : HttpRequest} {now : ℚ}
    (hallowed : (s.limiter.allow (clientIp cfg req) now).1 = true) :
    (s.step cfg (.arrive req now)).flights[s.flights.length]? =
      some (arrival cfg req now true) := by
  simp [Service.step, hallowed]

theorem arrival_waiting {cfg : ServerConfig} {req : HttpRequest} {op : DbOp} (now : ℚ)
    (h : (handle cfg req).2 = .ok (.store op)) :
    (arrival cfg req now true).status = .waiting op := by
  rw [arrival, if_pos rfl, h]
  rfl

/-- A statement that can be bound and does not fail answers the request that waits for
it. -/
theorem Service.step_execute {cfg : ServerConfig} {s : Service} {i : Nat} {f : Flight}
    {op : DbOp} (hf : s.flights[i]? = some f) (hop : f.status = .waiting op)
    (hbind : op.params.all bindable = true) (now : Int) :
    (s.step cfg (.execute i true now)).flights[i]? =
      some { f with status := .answered (s.store.perform now op).2 } := by
  have hi := (List.getElem?_eq_some_iff.1 hf).1
  simp only [Service.step, hf, hop, Service.perform, hbind, Bool.and_self, if_true]
  exact List.getElem?_set_self hi

theorem Service.run_append (cfg : ServerConfig) (s : Service) (before after : List ServiceEvent) :
    s.run cfg (before ++ after) = (s.run cfg before).run cfg after :=
  List.foldl_append

theorem Service.run_concat (cfg : ServerConfig) (s : Service) (events : List ServiceEvent)
    (e : ServiceEvent) : s.run cfg (events ++ [e]) = (s.run cfg events).step cfg e :=
  s.run_append cfg events [e]

end Anticheat
