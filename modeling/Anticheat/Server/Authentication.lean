import Anticheat.Server.Outcome

/-!
# Which requests are answered 401

Each endpoint has a tier of keys, and a request is to be answered 401 exactly when its
header does not carry a key of the tier.  The comparison of the token with a key,
{lit}`hmac.compare_digest`, takes ASCII strings only and raises an exception for others.
The exception is caught in {lit}`_dispatch`, and the request is answered 500.

Main results:

- Theorem {lit}`compareAny_error_iff`: when comparing a token with the keys raises an
  exception.
- Theorem {lit}`authentication_exact_iff`: the answers are exact for the tokens whose
  comparisons raise none.
-/

namespace Anticheat

open Foundation

/-! ## Endpoints and their tiers -/

/-- A request to one of the endpoints, and the keys of its tier. -/
inductive AsksFor (cfg : ServerConfig) (req : HttpRequest) : List PyStr → Prop where
  | report : req.command = .post → req.path = PyStr.ofString "/report" →
      AsksFor cfg req cfg.reportKeys
  | ban : req.command = .post → req.path = PyStr.ofString "/ban" → AsksFor cfg req cfg.adminKeys
  | unban : req.command = .post → req.path = PyStr.ofString "/unban" →
      AsksFor cfg req cfg.adminKeys
  | banned (clientId : PyStr) : req.command = .get → req.path = bannedPath ++ clientId →
      AsksFor cfg req cfg.adminKeys
  | reports (clientId : PyStr) : req.command = .get → req.path = reportsPath ++ clientId →
      AsksFor cfg req cfg.adminKeys

/-- Behind each endpoint there is the check of the key, and a handler that refuses only
with 400. -/
theorem AsksFor.handle {cfg : ServerConfig} {req : HttpRequest} {keys : List PyStr}
    (h : AsksFor cfg req keys) :
    ∃ handler, Anticheat.handle cfg req = requiresAuth keys req handler ∧
      ∀ reply, handler = .ok reply → reply.BadRequest := by
  cases h with
  | report hpost hpath =>
      exact ⟨_, handle_report hpost hpath, fun _ => handleReport_badRequest⟩
  | ban hpost hpath => exact ⟨_, handle_ban hpost hpath, fun _ => handleBan_badRequest⟩
  | unban hpost hpath => exact ⟨_, handle_unban hpost hpath, fun _ => handleUnban_badRequest⟩
  | banned clientId hget hpath =>
      exact ⟨_, handle_banned hget hpath, fun _ h => lookup_badRequest h⟩
  | reports clientId hget hpath =>
      exact ⟨_, handle_reports hget hpath, fun _ h => lookup_badRequest h⟩

theorem keyTier_nonempty (key : PyStr) (old : Option PyStr) : (keyTier key old).Nonempty := by
  unfold keyTier
  split
  · exact Finset.singleton_nonempty _
  · exact Finset.singleton_nonempty _
  · exact Finset.insert_nonempty _ _

/-- A server that starts has a key in each tier. -/
theorem Starts.ne_nil_of_asksFor {args : ServerArgs} {cfg : ServerConfig} (h : Starts args cfg)
    {req : HttpRequest} {keys : List PyStr} (hreq : AsksFor cfg req keys) : keys ≠ [] := by
  have htiers : cfg.reportKeys ≠ [] ∧ cfg.adminKeys ≠ [] := by
    rcases h with ⟨setup, hmain, hreport, hadmin, -⟩
    unfold serverMain at hmain
    split at hmain
    · dsimp only at hmain
      split_ifs at hmain
      rw [← Except.ok.inj hmain] at hreport hadmin
      constructor
      · rw [← List.toFinset_nonempty_iff, hreport]
        exact keyTier_nonempty _ _
      · rw [← List.toFinset_nonempty_iff, hadmin]
        exact keyTier_nonempty _ _
    · contradiction
  cases hreq with
  | report => exact htiers.1
  | ban => exact htiers.2
  | unban => exact htiers.2
  | banned => exact htiers.2
  | reports => exact htiers.2

/-! ## Comparisons that raise an exception -/

/-- Comparing a token with the keys of a tier raises an exception exactly if the token is
not ASCII, or if a key is not ASCII that comes before the token. -/
theorem compareAny_error_iff (got : PyStr) (ks : List PyStr) :
    (∃ e, (compareAny got ks).2 = .error e) ↔
      ks ≠ [] ∧ ¬(got.isAscii = true ∧ ∀ k ∈ ks.takeWhile (· != got), k.isAscii = true) := by
  induction ks with
  | nil => simp [compareAny]
  | cons k ks ih =>
      unfold compareAny compareDigest
      by_cases hgot : got.isAscii = true
      · by_cases hk : k.isAscii = true
        · rw [if_pos (by rw [hgot, hk]; rfl)]
          by_cases heq : got = k
          · subst heq
            simp [hgot]
          · have hbeq : (got == k) = false := by simpa using heq
            have hbne : (k != got) = true := by simpa using Ne.symm heq
            rw [hbeq]
            dsimp only
            rw [ih, List.takeWhile_cons, if_pos hbne, List.forall_mem_cons]
            cases ks with
            | nil => simp [hgot, hk]
            | cons k' ks => simp [hgot, hk]
        · -- a key that is not ASCII is not the token
          have hbne : (k != got) = true := by
            rw [bne_iff_ne]
            rintro rfl
            exact hk hgot
          rw [if_neg (by simp [hk]), List.takeWhile_cons, if_pos hbne]
          simp [hk]
      · rw [if_neg (by simp [hgot])]
        simp [hgot]

/-- The token of a request, if it has one, is ASCII, and so are the keys before it. -/
def TokenComparable (keys : List PyStr) (req : HttpRequest) : Prop :=
  ∀ got, req.header "Authorization" = some (bearerStart ++ got) →
    got.isAscii = true ∧ ∀ k ∈ keys.takeWhile (· != got), k.isAscii = true

theorem authed_not_error_iff {keys : List PyStr} (hkeys : keys ≠ []) (req : HttpRequest) :
    (∀ e, (authed keys req).2 ≠ .error e) ↔ TokenComparable keys req := by
  unfold TokenComparable
  simp only [← bearer_eq_some_iff]
  unfold authed
  cases hgot : bearer req with
  | none => simp
  | some got =>
      have herror := compareAny_error_iff got keys
      constructor
      · intro hnone got' hgot'
        rw [Option.some.injEq] at hgot'
        subst hgot'
        by_contra hnot
        rcases herror.2 ⟨hkeys, hnot⟩ with ⟨e, he⟩
        exact hnone e he
      · intro hcomparable e he
        exact (herror.1 ⟨e, he⟩).2 (hcomparable got rfl)

/-! ## The answers -/

/-- A request that was answered 401. -/
def Flight.Unauthorized (f : Flight) : Prop :=
  ∃ r, f.status = .answered r ∧ r.code = 401

/-- The answers to a request are exact: after any further run it was answered 401 if and
only if it carries no key, and checking its key raised no exception. -/
def AuthenticationExact (cfg : ServerConfig) (req : HttpRequest) (keys : List PyStr) : Prop :=
  (∀ (s : Service) (time : ℚ), (s.limiter.allow (clientIp cfg req) time).1 = true →
    ∀ events f, (s.run cfg (.arrive req time :: events)).flights[s.flights.length]? = some f →
      (f.Unauthorized ↔ ¬CarriesKey keys req)) ∧
  ∀ e, (authed keys req).2 ≠ .error e

theorem Store.perform_code_ne_401 (s : Store) (now : Int) (op : DbOp) :
    (s.perform now op).2.code ≠ 401 := by
  cases op <;> exact of_decide_eq_true rfl

/-- A handler that refuses only with 400 never leads to 401. -/
theorem Outcome.code_ne_401 {cfg : ServerConfig} {req : HttpRequest} {faulty : Prop}
    {store : Store} {r : Response} (h : Outcome cfg req faulty store (.answered r))
    (hbad : ∀ reply, (handle cfg req).2 = .ok reply → reply.BadRequest) : r.code ≠ 401 := by
  generalize hr : FlightStatus.answered r = status at h
  cases h with
  | arrived =>
      rcases hres : (handle cfg req).2 with e | r' | op
      · rw [hres] at hr
        cases e with
        | connection => cases hr
        | other =>
            cases hr
            decide
      · rw [hres] at hr
        cases hr
        have h400 : r.code = 400 := hbad (.send r) hres
        omega
      · rw [hres] at hr
        cases hr
  | performed before now _ _ _ =>
      cases hr
      exact Store.perform_code_ne_401 before now _
  | failed _ _ =>
      cases hr
      decide

/-- A request whose key was checked is answered 401 if it carries none, and never if it
does. -/
theorem Outcome.unauthorized_iff {cfg : ServerConfig} {req : HttpRequest} {keys : List PyStr}
    {faulty : Prop} {store : Store} {f : Flight} (h : Outcome cfg req faulty store f.status)
    (hask : AsksFor cfg req keys) (hchecked : ∀ e, (authed keys req).2 ≠ .error e) :
    f.Unauthorized ↔ ¬CarriesKey keys req := by
  rcases hask.handle with ⟨handler, hhandle, hbad⟩
  rcases hres : (authed keys req).2 with e | _ | _
  · exact absurd hres (hchecked e)
  · have hnot : ¬CarriesKey keys req := by
      intro hkey
      rcases authed_of_carriesKey hkey with h' | h' <;> rw [hres] at h' <;> cases h'
    have hsend : (Anticheat.handle cfg req).2 = .ok (.send (.error 401 "unauthorized")) := by
      rw [hhandle, requiresAuth_of_refused handler hres]
    refine iff_of_true ⟨.error 401 "unauthorized", ?_, rfl⟩ hnot
    rw [h.eq_dispatch (by rw [hsend]; simp), hsend]
    rfl
  · refine iff_of_false ?_ (not_not_intro (carriesKey_of_authed hres))
    rintro ⟨r, hr, hcode⟩
    rw [hr] at h
    refine h.code_ne_401 ?_ hcode
    rw [hhandle, requiresAuth_of_authed handler hres]
    exact hbad

/-- The answers of an endpoint are exact precisely for the requests whose token, if there
is one, is ASCII, and so is each key that it is compared with before a match. -/
theorem authentication_exact_iff {args : ServerArgs} {cfg : ServerConfig} (h : Starts args cfg)
    {req : HttpRequest} {keys : List PyStr} (hreq : AsksFor cfg req keys) :
    AuthenticationExact cfg req keys ↔ TokenComparable keys req := by
  have hchecked := authed_not_error_iff (h.ne_nil_of_asksFor hreq) req
  constructor
  · intro hexact
    exact hchecked.1 hexact.2
  · intro hcomparable
    have hnone := hchecked.2 hcomparable
    refine ⟨?_, hnone⟩
    intro s time hallowed events f hf
    rcases Service.run_outcome hallowed events with ⟨f', hf', hout⟩
    rw [hf, Option.some.injEq] at hf'
    subst hf'
    exact hout.unauthorized_iff hreq hnone

/-- A request to look up a ban, with a token. -/
def tokenRequest (token : PyStr) : HttpRequest where
  command := .get
  path := PyStr.ofString "/banned/player"
  headers := [(PyStr.ofString "Authorization", bearerStart ++ token)]
  clientAddress := PyStr.ofString "10.0.0.1"
  body := []

theorem asksFor_tokenRequest (token : PyStr) :
    AsksFor twoKeyConfig (tokenRequest token) twoKeyConfig.adminKeys :=
  .banned (PyStr.ofString "player") rfl rfl

theorem header_tokenRequest (token : PyStr) :
    (tokenRequest token).header "Authorization" = some (bearerStart ++ token) :=
  rfl

theorem wrong_token_exact :
    AuthenticationExact twoKeyConfig (tokenRequest (PyStr.ofString "wrong"))
      twoKeyConfig.adminKeys := by
  refine (authentication_exact_iff twoKeyConfig_starts (asksFor_tokenRequest _)).2 ?_
  intro got hgot
  rw [header_tokenRequest, Option.some.injEq, List.append_cancel_left_eq] at hgot
  subst hgot
  exact ⟨by decide, by decide⟩

/-- A token of one byte that is not ASCII is answered 500, although it is no key. -/
theorem latin1_token_internal_error :
    Starts twoKeyArgs twoKeyConfig ∧
      AsksFor twoKeyConfig (tokenRequest (PyStr.latin1 [0xE9])) twoKeyConfig.adminKeys ∧
      ¬CarriesKey twoKeyConfig.adminKeys (tokenRequest (PyStr.latin1 [0xE9])) ∧
      (arrival twoKeyConfig (tokenRequest (PyStr.latin1 [0xE9])) 0 true).status =
        .answered (.error 500 "internal error") ∧
      ¬AuthenticationExact twoKeyConfig (tokenRequest (PyStr.latin1 [0xE9]))
        twoKeyConfig.adminKeys := by
  refine ⟨twoKeyConfig_starts, asksFor_tokenRequest _, ?_, rfl, ?_⟩
  · rintro ⟨k, hk, hheader⟩
    rw [header_tokenRequest, Option.some.injEq, List.append_cancel_left_eq] at hheader
    rw [← hheader] at hk
    exact absurd hk (by decide)
  · intro hexact
    exact hexact.2 .other rfl

end Anticheat
