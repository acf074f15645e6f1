import Anticheat.Server.Outcome
import Anticheat.Server.ReportWire

/-!
# Which reports can be stored

A request to {lit}`/report` with a key is to be answered 201 if its fields pass the
checks, and 400 if they do not.  The checks look at types and lengths.  What
{lit}`json.loads` returns is wider than what the database takes: integers of any size, and
text with surrogates that have no partner.  A text that is nested too deeply makes
{lit}`json.loads` raise an exception that the handler does not expect.  In each of these
cases the request is answered 500.

Main results:

- Theorem {lit}`ReportRequest.bindable_iff`: which rows the database takes.
- Theorem {lit}`report_answers_iff`: a request is answered 201 or 400 as it should be,
  exactly if its body is not nested too deeply and its row can be stored.
-/

namespace Anticheat

open Foundation PyJson

/-! ## Rows that the database takes -/

theorem encodable_of_clientIdRe {v : PyStr} (h : clientIdRe v = true) : encodable v = true := by
  apply encodable_of_ascii
  intro c hc
  rcases (clientIdRe_iff v).1 h with hform | ⟨w, hform, rfl⟩
  · exact (isIdChar_plain (hform.2.2 c hc)).2
  · rcases List.mem_append.1 hc with hc | hc
    · exact (isIdChar_plain (hform.2.2 c hc)).2
    · rw [List.mem_singleton.1 hc]
      decide

/-- The bytes of the headers were decoded as ISO-8859-1. -/
structure HttpRequest.Latin1 (req : HttpRequest) : Prop where
  headers : ∀ h ∈ req.headers, ∀ c ∈ h.2, c < 256
  peer : ∀ c ∈ req.clientAddress, c < 256

theorem encodable_of_latin1 {s : PyStr} (h : ∀ c ∈ s, c < 256) : encodable s = true :=
  encodable_of_isScalar fun c hc => Or.inl ((h c hc).trans (by decide))

/-- The address of a client is text that can be stored. -/
theorem HttpRequest.Latin1.encodable_clientIp {req : HttpRequest} (h : req.Latin1)
    (cfg : ServerConfig) : encodable (clientIp cfg req) = true := by
  have hpeer := encodable_of_latin1 h.peer
  have hline : ∀ line ∈ req.headerAll "X-Forwarded-For", ∀ c ∈ line, c < 256 := by
    intro line hline
    rcases List.mem_map.1 hline with ⟨header, hheader, rfl⟩
    exact h.headers header (List.mem_of_mem_filter hheader)
  have hcandidate : encodable (PyStr.strip (PyStr.afterLast 44
      (PyStr.join [44] (req.headerAll "X-Forwarded-For")))) = true := by
    apply encodable_of_latin1
    intro c hc
    rcases PyStr.mem_join (PyStr.afterLast_subset _ _ (PyStr.strip_subset _ hc)) with
      rfl | ⟨line, hmem, hc⟩
    · decide
    · exact hline line hmem c hc
  unfold clientIp
  split
  · exact hpeer
  · split
    · exact hpeer
    · dsimp only
      split
      · exact hcandidate
      · exact hpeer

/-- Text and time stamp of a row are of a kind that the database takes. -/
structure ReportRow.Storable (row : ReportRow) : Prop where
  eventType : encodable row.eventType = true
  detail : encodable row.detail = true
  clientTs : ∀ i, row.clientTs = .int i → -2 ^ 63 ≤ i ∧ i < 2 ^ 63

theorem bindable_clientTs_iff (v : PyVal) :
    bindable (clientTs v) = true ↔ ∀ i, clientTs v = .int i → -2 ^ 63 ≤ i ∧ i < 2 ^ 63 := by
  cases v with
  | int i => simp [clientTs, bindable]
  | none => simp [clientTs, bindable]
  | bool b => simp [clientTs, bindable]
  | float t => simp [clientTs, bindable]
  | str s => simp [clientTs, bindable]
  | list l => simp [clientTs, bindable]
  | dict d => simp [clientTs, bindable]

/-- The row of an accepted report can be bound exactly if its text has no surrogates and
its time stamp fits 64 bits. -/
theorem ReportRequest.bindable_iff {cfg : ServerConfig} {req : HttpRequest} {now : Int}
    {row : ReportRow} (h : ReportRequest cfg req now row) (hlatin : req.Latin1) :
    row.op.params.all bindable = true ↔ row.Storable := by
  cases h with
  | @report body clientId eventType detail _ _ _ hnames _ _ _ _ =>
      have hid := encodable_of_clientIdRe hnames.valid
      have haddr := hlatin.encodable_clientIp cfg
      have hts := bindable_clientTs_iff (dictGet body (PyStr.ofString "ts"))
      simp only [ReportRow.op, DbOp.params, List.all_cons, List.all_nil, bindable, hid, haddr,
        Bool.and_true, Bool.true_and, Bool.and_eq_true]
      constructor
      · rintro ⟨htype, hdetail, hbind⟩
        exact ⟨htype, hdetail, hts.1 hbind⟩
      · rintro ⟨htype, hdetail, hrange⟩
        exact ⟨htype, hdetail, hts.2 hrange⟩

/-! ## The answers -/

/-- The checks of the handler accept a request. -/
def Accepted (cfg : ServerConfig) (req : HttpRequest) : Prop :=
  ∃ row, ReportRequest cfg req row.receivedAt row

/-- A report is answered as it should be: whatever else the server does, once the database
has taken its statement it was answered 201 and its row is stored, if the checks accept it,
and 400 if they do not. -/
def ReportAnswered (cfg : ServerConfig) (req : HttpRequest) : Prop :=
  ∀ (s : Service) (time : ℚ), (s.limiter.allow (clientIp cfg req) time).1 = true →
    ∀ events, ¬Faulted s.flights.length events → ∀ now,
      let s' := s.run cfg (.arrive req time :: events ++ [.execute s.flights.length true now])
      ∃ f r, s'.flights[s.flights.length]? = some f ∧ f.status = .answered r ∧
        (Accepted cfg req → r.code = 201 ∧
          ∃ row ∈ s'.store.reports, ReportRequest cfg req row.receivedAt row) ∧
        (¬Accepted cfg req → r.code = 400)

/-- The body of a request is not nested too deeply, and if the checks accept it, its row
can be stored. -/
structure ReportStorable (cfg : ServerConfig) (req : HttpRequest) : Prop where
  nesting : loads (cfg.nesting + 1) (Utf8.decode req.body) ≠ .error .recursion
  row : ∀ row, ReportRequest cfg req row.receivedAt row → row.Storable

/-- A server that lets the next request pass. -/
def openService : Service where
  limiter := .init 1 1 0
  store := .empty
  flights := []
  statements := []

theorem openService_allows (k : PyStr) : (openService.limiter.allow k 0).1 = true := by
  rw [RateLimiter.allow_eq]
  simp [openService, RateLimiter.init, FixedWindow.hit_none]

section

variable {cfg : ServerConfig} {req : HttpRequest}

/-- The handler raises an exception only if the body is nested too deeply. -/
theorem handleReport_error_iff (hsends : req.SendsBody) (hsize : req.body.length ≤ maxBodyBytes) :
    (∃ e, handleReport cfg req = .error e) ↔
      loads (cfg.nesting + 1) (Utf8.decode req.body) = .error .recursion := by
  have hread := readJsonBody_of_sendsBody cfg hsends hsize
  unfold handleReport requireBodyClientId
  rw [hread]
  rcases loads (cfg.nesting + 1) (Utf8.decode req.body) with (- | -) | v
  · simp
  · simp
  · simp only [reduceCtorEq, iff_false, not_exists]
    intro e
    rcases v with - | - | - | - | - | - | ⟨- | ⟨m, d⟩⟩ <;> simp

/-- A request that came to a statement is answered for it, or 500 if a parameter could
not be bound. -/
theorem Outcome.answered_of_store {op : DbOp} {after : Store} {status : FlightStatus}
    (h : Outcome cfg req False after status) (hop : (handle cfg req).2 = .ok (.store op))
    (hnot : ∀ op, status ≠ .waiting op) :
    (op.params.all bindable = true ∧ ∃ (store : Store) (now : Int),
      status = .answered (store.perform now op).2 ∧
        (store.perform now op).1.reports <+: after.reports) ∨
    (op.params.all bindable = false ∧ status = .answered internalError) := by
  cases h with
  | arrived =>
      rw [hop] at hnot
      exact absurd rfl (hnot op)
  | performed store now hop' hbind hrows =>
      rw [hop] at hop'
      cases hop'
      exact Or.inl ⟨hbind, store, now, rfl, hrows⟩
  | failed hop' hfail =>
      rw [hop] at hop'
      cases hop'
      exact Or.inr ⟨hfail.resolve_right id, rfl⟩

/-- How a report is answered by a server that does nothing else. -/
theorem ReportAnswered.alone (h : ReportAnswered cfg req) :
    ∃ r after, Outcome cfg req False after (.answered r) ∧
      (Accepted cfg req → r.code = 201) ∧ (¬Accepted cfg req → r.code = 400) := by
  have hserves : ¬Faulted openService.flights.length [] := by
    rintro ⟨now, hmem⟩
    contradiction
  rcases h openService 0 (openService_allows _) [] hserves 0 with
    ⟨f, r, hf, hstatus, haccepted, hrefused⟩
  rcases Service.run_answered (openService_allows (clientIp cfg req)) hserves 0 with
    ⟨f', hf', -, hout⟩
  rw [hf, Option.some.injEq] at hf'
  subst hf'
  rw [hstatus] at hout
  exact ⟨r, _, hout, fun h => (haccepted h).1, hrefused⟩

theorem Accepted.store (h : Accepted cfg req) :
    (∃ op, (handle cfg req).2 = .ok (.store op)) ∨ (handle cfg req).2 = .error .other := by
  rcases h with ⟨row, hrow⟩
  exact hrow.handle.imp (fun hop => ⟨_, hop⟩) And.right

/-- A report whose body is nested too deeply is not answered as it should be. -/
theorem not_reportAnswered_of_error {e : PyExc} (herror : (handle cfg req).2 = .error e) :
    ¬ReportAnswered cfg req := by
  intro h
  rcases h.alone with ⟨r, after, hout, haccepted, hrefused⟩
  have hstatus := hout.eq_dispatch fun op hop => by
    rw [herror] at hop
    cases hop
  rw [herror] at hstatus
  cases e with
  | connection => cases hstatus
  | other =>
      cases hstatus
      by_cases hchecks : Accepted cfg req
      · exact absurd (haccepted hchecks) (by decide)
      · exact absurd (hrefused hchecks) (by decide)

/-- A report that the checks refuse is answered 400. -/
theorem reportAnswered_of_send {r : Response} (hsend : (handle cfg req).2 = .ok (.send r))
    (hcode : r.code = 400) : ReportAnswered cfg req := by
  intro s time hallowed events hserves now
  rcases Service.run_answered hallowed hserves now with ⟨f, hf, -, hout⟩
  have hstatus := hout.eq_dispatch fun op hop => by
    rw [hsend] at hop
    cases hop
  rw [hsend] at hstatus
  refine ⟨f, r, hf, hstatus, ?_, fun _ => hcode⟩
  intro hchecks
  rcases hchecks.store with ⟨op, hop⟩ | herror
  · rw [hsend] at hop
    cases hop
  · rw [hsend] at herror
    cases herror

/-- A report that comes to its statement is answered as it should be exactly if its row
can be bound. -/
theorem reportAnswered_iff_of_row {row : ReportRow} (hop : (handle cfg req).2 = .ok (.store row.op))
    (hrow : ∀ now, ReportRequest cfg req now { row with receivedAt := now }) :
    ReportAnswered cfg req ↔ row.op.params.all bindable = true := by
  have hchecks : Accepted cfg req := ⟨{ row with receivedAt := 0 }, hrow 0⟩
  constructor
  · intro h
    rcases h.alone with ⟨r, after, hout, haccepted, -⟩
    rcases hout.answered_of_store hop (by simp) with ⟨hbind, -⟩ | ⟨-, hstatus⟩
    · exact hbind
    · cases hstatus
      exact absurd (haccepted hchecks) (by decide)
  · intro hbind s time hallowed events hserves now
    rcases Service.run_answered hallowed hserves now with ⟨f, hf, hnot, hout⟩
    rcases hout.answered_of_store hop hnot with ⟨-, store, at', hstatus, hrows⟩ | ⟨hfalse, -⟩
    · refine ⟨f, _, hf, hstatus, fun _ => ⟨rfl, { row with receivedAt := at' }, ?_, hrow at'⟩,
        fun h => absurd hchecks h⟩
      exact hrows.subset (List.mem_append_right _ (List.mem_singleton_self _))
    · rw [hbind] at hfalse
      contradiction

/-- For every request to `/report` with a key and a complete body of a length that is
taken: it is answered 201 with its row stored if the checks accept it, and 400 if they do
not, exactly if the body is not nested too deeply, and if the row of an accepted report has
text without surrogates and a time stamp that fits 64 bits if it is an integer. -/
theorem report_answers_iff (hpost : req.command = .post)
    (hpath : req.path = PyStr.ofString "/report")
    (hkey : (authed cfg.reportKeys req).2 = .ok true) (hsends : req.SendsBody)
    (hsize : req.body.length ≤ maxBodyBytes) (hlatin : req.Latin1) :
    ReportAnswered cfg req ↔ ReportStorable cfg req := by
  have hhandle := handle_of_authed hpost hpath hkey
  have herror : (∃ e, handleReport cfg req = .error e) ↔ _ := handleReport_error_iff hsends hsize
  rcases hres : handleReport cfg req with e | r | op
  · -- the body is nested too deeply
    rw [hres] at hhandle
    refine iff_of_false (not_reportAnswered_of_error hhandle) ?_
    intro hstorable
    exact hstorable.nesting (herror.1 ⟨e, hres⟩)
  · -- the checks refuse the report
    rw [hres] at hhandle
    have hcode : r.code = 400 := handleReport_badRequest hres
    refine iff_of_true (reportAnswered_of_send hhandle hcode) ⟨?_, ?_⟩
    · intro hrecursion
      rcases herror.2 hrecursion with ⟨e, he⟩
      rw [hres] at he
      cases he
    · intro row hrow
      rcases hrow.handle with hop | ⟨-, hfail⟩
      · rw [hhandle] at hop
        cases hop
      · rw [hhandle] at hfail
        cases hfail
  · rcases handleReport_store hpost hpath (carriesKey_of_authed hkey) hres with
      ⟨clientId, eventType, detail, ts, sourceAddr, rfl, hrequest⟩
    rw [hres] at hhandle
    have hbind := (hrequest 0).bindable_iff hlatin
    let row : ReportRow := ⟨clientId, eventType, detail, ts, 0, sourceAddr⟩
    have hhandle : (handle cfg req).2 = .ok (.store row.op) := hhandle
    rw [reportAnswered_iff_of_row hhandle hrequest]
    constructor
    · intro hall
      refine ⟨?_, ?_⟩
      · intro hrecursion
        rcases herror.2 hrecursion with ⟨e, he⟩
        rw [hres] at he
        cases he
      · intro row hreq
        refine (hreq.bindable_iff hlatin).1 ?_
        rw [hreq.op_eq hhandle]
        exact hall
    · intro hstorable
      exact hbind.2 (hstorable.row _ (hrequest 0))

end

/-! ## Time stamps of more than 64 bits -/

/-- A report with no text and a time stamp, as the daemon writes it. -/
def stampedRequest (ts : Int) : HttpRequest :=
  wireRequest (CStr.ascii "localhost") (CStr.ascii "report") (PyStr.ofString "10.0.0.1")
    (reportText (CStr.ascii "p") (CStr.ascii "ALERT") [] ts)

def stampedRow (ts : Int) : ReportRow where
  clientId := PyStr.ofString "p"
  eventType := PyStr.ofString "ALERT"
  detail := []
  clientTs := .int ts
  receivedAt := 0
  sourceAddr := PyStr.ofString "10.0.0.1"

section

variable {ts : Int} (hts : ts.natAbs < 10 ^ 19)
include hts

theorem length_stampedRequest_le : (stampedRequest ts).body.length ≤ maxBodyBytes :=
  (length_reportText_le (by decide) (by decide) (by decide) hts).trans (by decide)

theorem loads_stampedRequest : loads (twoKeyConfig.nesting + 1)
    (Utf8.decode (stampedRequest ts).body) =
      .ok (.dict (reportObject (PyStr.ofString "p") (PyStr.ofString "ALERT") [] ts)) := by
  have htype := (eventType_plain (Or.inl rfl : CStr.ascii "ALERT" = _ ∨ _)).2.2
  exact loads_reportText twoKeyConfig.nesting [] (List.all_iff_forall_prop.1 (by decide)) htype
    ((length_decimal_le hts).1.trans (by decide))

theorem handle_stampedRequest :
    (handle twoKeyConfig (stampedRequest ts)).2 = .ok (.store (stampedRow ts).op) := by
  have hread := readJsonBody_wireRequest twoKeyConfig (CStr.ascii "localhost")
    (CStr.ascii "report") (PyStr.ofString "10.0.0.1") (length_stampedRequest_le hts)
    (loads_stampedRequest hts)
  have hid : IdForm (PyStr.ofString "p") := by decide
  have htype : (PyStr.ofString "ALERT").length ≤ 64 := by decide
  rw [handle_of_authed rfl rfl rfl]
  exact handleReport_reportObject hread hid htype (Nat.zero_le _)

theorem reportRequest_stamped (now : Int) :
    ReportRequest twoKeyConfig (stampedRequest ts) now { stampedRow ts with receivedAt := now } := by
  rcases handleReport_store rfl rfl (carriesKey_of_authed rfl)
    ((handle_of_authed rfl rfl rfl).symm.trans (handle_stampedRequest hts)) with
    ⟨clientId, eventType, detail, ts', source, hop, hrow⟩
  cases hop
  exact hrow now

theorem sendsBody_stampedRequest : (stampedRequest ts).SendsBody :=
  sendsBody_wireRequest _ _ _ (length_stampedRequest_le hts)

end

theorem latin1_wireRequest (host key : CStr) (body : CStr) {peer : PyStr}
    (hpeer : ∀ c ∈ peer, c < 256) : (wireRequest host key peer body).Latin1 where
  headers := by
    intro h hmem c hc
    rcases List.mem_map.1 hmem with ⟨header, -, rfl⟩
    rcases List.mem_map.1 hc with ⟨b, -, rfl⟩
    exact b.toNat_lt
  peer := hpeer

theorem stamped_report_answered : ReportAnswered twoKeyConfig (stampedRequest 1700000000) := by
  have hts : (1700000000 : Int).natAbs < 10 ^ 19 := by decide
  refine (report_answers_iff rfl rfl rfl (sendsBody_stampedRequest hts)
    (length_stampedRequest_le hts) (latin1_wireRequest _ _ _ (by decide))).2 ⟨?_, ?_⟩
  · rw [loads_stampedRequest hts]
    simp
  · intro row hrow
    have hop := hrow.op_eq (handle_stampedRequest hts)
    simp only [ReportRow.op, stampedRow, DbOp.addReport.injEq] at hop
    rcases hop with ⟨-, htype, hdetail, hstamp, -⟩
    refine ⟨by rw [htype]; decide, by rw [hdetail]; decide, ?_⟩
    intro i hi
    rw [hstamp, PyVal.int.injEq] at hi
    omega

/-- A time stamp of 2 to the 63 passes the checks and cannot be stored. -/
theorem huge_stamp_internal_error :
    Accepted twoKeyConfig (stampedRequest (2 ^ 63)) ∧
      (authed twoKeyConfig.reportKeys (stampedRequest (2 ^ 63))).2 = .ok true ∧
      (stampedRequest (2 ^ 63)).SendsBody ∧
      (stampedRequest (2 ^ 63)).body.length ≤ maxBodyBytes ∧
      ¬ReportAnswered twoKeyConfig (stampedRequest (2 ^ 63)) := by
  have hts : (2 ^ 63 : Int).natAbs < 10 ^ 19 := by decide
  refine ⟨⟨stampedRow (2 ^ 63), reportRequest_stamped hts 0⟩, rfl, sendsBody_stampedRequest hts,
    length_stampedRequest_le hts, ?_⟩
  rw [reportAnswered_iff_of_row (handle_stampedRequest hts) (reportRequest_stamped hts)]
  decide

end Anticheat
