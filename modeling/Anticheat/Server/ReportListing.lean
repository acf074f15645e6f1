import Anticheat.Foundation.PyJsonDumps
import Anticheat.Server.ReportStorage

/-!
# Listing the reports of a client

An admin is shown the newest 200 reports of a client as a JSON document.  The time stamp
of a report is any number that {lit}`json.loads` returns, which can be infinite: by the
constant `Infinity`, or by a decimal number that is too large.  SQLite keeps an infinite
number, and {lit}`json.dumps` writes it as `Infinity`.  A listing with such a row is no
JSON document.

Main results:

- Theorem {lit}`Service.rows_submitted`: the rows of the table are those of reports that
  passed the checks.
- Theorem {lit}`Service.Accounts.length_acceptedReports`: there is a row for every request that
  was answered 201.
- Theorem {lit}`dumps_listing`: a listing without infinite time stamps is a document that
  describes its rows.
- Theorem {lit}`listing_faithful_iff`: what an admin receives is such a document exactly if
  none of the rows shown has an infinite time stamp.
-/

namespace Anticheat

open Foundation PyJson Json

/-! ## The rows of the table -/

/-- The row was asked for by a report that passed the checks, and could be stored. -/
structure Submitted (cfg : ServerConfig) (row : ReportRow) : Prop where
  bound : row.op.params.all bindable = true
  request : ∃ req, ReportRequest cfg req row.receivedAt row

/-- One step adds only rows of reports. -/
theorem Service.step_submitted {cfg : ServerConfig} {store : Store} {s : Service}
    (haccounts : s.Accounts cfg store) (h : ∀ row ∈ s.store.reports, Submitted cfg row)
    (e : ServiceEvent) : ∀ row ∈ (s.step cfg e).store.reports, Submitted cfg row := by
  rcases s.step_cases cfg e with
    ⟨req, now, rfl, hstep⟩ | ⟨i, ok, now, f, op, rfl, hf, hop, hstep⟩ | ⟨-, hstep⟩
  · rw [hstep]
    exact h
  · rw [hstep, Service.perform]
    split
    · rename_i hok
      rw [Bool.and_eq_true] at hok
      cases handle_store (haccounts.waiting i f op hf hop).1 with
      | addReport hrow =>
          intro row hmem
          rcases List.mem_append.1 hmem with hmem | hmem
          · exact h row hmem
          · rw [List.mem_singleton.1 hmem]
            exact ⟨hok.2, _, hrow now⟩
      | ban => exact h
      | unban => exact h
      | banStatus => exact h
      | listReports => exact h
    · exact h
  · rw [hstep]
    exact h

/-- All rows of a database that was empty belong to reports. -/
theorem Service.rows_submitted (cfg : ServerConfig) (start : ℚ) (events : List ServiceEvent) :
    ∀ row ∈ ((Service.start cfg start .empty).run cfg events).store.reports,
      Submitted cfg row := by
  induction events using List.reverseRecOn with
  | nil =>
      intro row hmem
      contradiction
  | append_singleton events e ih =>
      rw [Service.run_concat]
      exact Service.step_submitted (Service.accounts cfg start .empty events) ih e

/-- Bytes that are decoded give code points that Python has. -/
theorem codes_decode (bytes : List UInt8) : Codes (Utf8.decode bytes) := by
  intro c hc
  rcases Utf8.isScalar_of_mem_decode c hc with h | h
  · omega
  · exact h.2

/-- The body that a handler gets was read from decoded bytes. -/
theorem loads_of_readJsonBody {cfg : ServerConfig} {req : HttpRequest} {v : PyVal}
    (h : readJsonBody cfg req = .ok (some v)) :
    ∃ bytes, loads (cfg.nesting + 1) (Utf8.decode bytes) = .ok v := by
  unfold readJsonBody at h
  extract_lets text text' at h
  split at h
  · simp at h
  · split_ifs at h
    · simp at h
    · split at h
      · contradiction
      · rename_i raw hraw
        split at h
        · rename_i v' hloads
          simp only [Except.ok.injEq, Option.some.injEq] at h
          exact ⟨raw, by rw [hloads, h]⟩
        · simp at h
        · contradiction

/-- The texts of a row denote what they are written as. -/
theorem Submitted.texts {cfg : ServerConfig} {row : ReportRow} (h : Submitted cfg row) :
    (dumpsString row.eventType).decode = row.eventType ∧
      (dumpsString row.detail).decode = row.detail := by
  have hno {s : PyStr} (hs : encodable s = true) : ∀ c ∈ s, NoSurrogate c := by
    intro c hc
    have hscalar := List.all_eq_true.mp hs c hc
    rintro ⟨hlow, hhigh⟩
    simp [hlow, hhigh] at hscalar
  have hbound := h.bound
  simp only [ReportRow.op, DbOp.params, List.all_cons, List.all_nil, bindable, Bool.and_true,
    Bool.and_eq_true] at hbound
  rcases h.request with ⟨req, hrequest⟩
  generalize hnow : row.receivedAt = now at hrequest
  cases hrequest with
  | report _ _ _ hnames htype _ hdetail _ =>
      rcases loads_of_readJsonBody hnames.read with ⟨bytes, hloads⟩
      exact ⟨decode_dumpsString (loads_codes (codes_decode bytes) hloads htype) (hno hbound.2.1),
        decode_dumpsString (loads_codes (codes_decode bytes) hloads hdetail) (hno hbound.2.2.1)⟩

/-! ## The document -/

/-- `_send_json`: the body that is sent -/
def Response.body (w : FloatWriter) (r : Response) : List UInt8 :=
  dumps w.write r.obj

/-- The object that a listing is made of. -/
def listing (rows : List ReportRow) : PyVal :=
  .dict [(PyStr.ofString "reports", .list (rows.map ReportRow.toVal))]

/-- A time stamp that is infinite. -/
def infiniteTs : PyVal → Bool
  | .float text => isInfinite text
  | _ => false

/-- An entry of a document shows the event type and the detail of a row. -/
structure Describes (v : Value Number) (row : ReportRow) : Prop where
  eventType : ∃ s, v.get? (PyStr.ofString "event_type") = some (.string s) ∧
    s.decode = row.eventType
  detail : ∃ s, v.get? (PyStr.ofString "detail") = some (.string s) ∧ s.decode = row.detail

/-- The list in a document shows the rows, in their order, and nothing else. -/
def ListsRows (t : Text) (rows : List ReportRow) : Prop :=
  ∃ es close, t.value.get? (PyStr.ofString "reports") = some (.array es close) ∧
    List.Forall₂ Describes es.toList rows

/-- The numbers of an entry are the times of the row. -/
theorem mem_numbers_toVal (row : ReportRow) (n : PyNumber) :
    n ∈ (dumpsValue row.toVal).numbers ↔
      n ∈ (dumpsValue (columnInteger row.clientTs)).numbers ∨ n = .int row.receivedAt := by
  rw [ReportRow.toVal, dumpsValue, Value.numbers, mem_numbers_dumpsMembers]
  simp [dumpsValue, Value.numbers]

theorem mem_numbers_listing (rows : List ReportRow) (n : PyNumber) :
    n ∈ (dumpsValue (listing rows)).numbers ↔
      ∃ row ∈ rows, n ∈ (dumpsValue row.toVal).numbers := by
  rw [listing, dumpsValue, Value.numbers, mem_numbers_dumpsMembers]
  simp only [List.mem_singleton, exists_eq_left]
  rw [dumpsValue, Value.numbers, mem_numbers_dumpsElements]
  simp

/-- The time stamp of a stored row is written as a number, if at all, unless it is
infinite. -/
theorem isNumber_columnInteger (w : FloatWriter) {ts : PyVal} (hts : bindable ts = true)
    (hfinite : infiniteTs ts = false) {n : PyNumber}
    (hn : n ∈ (dumpsValue (columnInteger ts)).numbers) : IsNumber (n.repr w.write) := by
  cases ts with
  | none => simp [columnInteger, dumpsValue, Value.numbers] at hn
  | bool b =>
      rw [columnInteger, dumpsValue, Value.numbers, List.mem_singleton] at hn
      rw [hn]
      exact isNumber_decimal _
  | int i =>
      rw [columnInteger, dumpsValue, Value.numbers, List.mem_singleton] at hn
      · rw [hn]
        exact isNumber_decimal _
      all_goals simp
  | float text =>
      rw [columnInteger] at hn
      split_ifs at hn with hnan
      · simp [dumpsValue, Value.numbers] at hn
      · rw [dumpsValue, Value.numbers, List.mem_singleton] at hn
        rw [hn]
        exact w.finite text hnan hfinite
  | str t => simp [columnInteger, dumpsValue, Value.numbers] at hn
  | list l => contradiction
  | dict d => contradiction

/-- An entry that is written describes its row. -/
theorem Submitted.describes {cfg : ServerConfig} {row : ReportRow} (h : Submitted cfg row)
    (f : PyNumber → Number) : Describes ((dumpsValue row.toVal).map f) row := by
  have hget (key : PyStr) := get?_dumpsValue f key (d := [
      (PyStr.ofString "event_type", .str row.eventType),
      (PyStr.ofString "detail", .str row.detail),
      (PyStr.ofString "client_ts", columnInteger row.clientTs),
      (PyStr.ofString "received_at", .int row.receivedAt),
      (PyStr.ofString "source_addr", .str row.sourceAddr)]) (by
    simp only [List.forall_mem_cons]
    decide)
  constructor
  · refine ⟨dumpsString row.eventType, ?_, h.texts.1⟩
    rw [ReportRow.toVal, hget]
    rfl
  · refine ⟨dumpsString row.detail, ?_, h.texts.2⟩
    rw [ReportRow.toVal, hget]
    rfl

/-- A listing without infinite time stamps is a document that describes its rows. -/
theorem dumps_listing (w : FloatWriter) {cfg : ServerConfig} {rows : List ReportRow}
    (hrows : ∀ row ∈ rows, Submitted cfg row)
    (hfinite : ∀ row ∈ rows, infiniteTs row.clientTs = false) :
    ∃ t : Text, dumps w.write (listing rows) = t.render ∧ ListsRows t rows := by
  have hnumbers : ∀ n ∈ (dumpsValue (listing rows)).numbers, IsNumber (n.repr w.write) := by
    intro n hn
    rcases (mem_numbers_listing rows n).1 hn with ⟨row, hrow, hn⟩
    rcases (mem_numbers_toVal row n).1 hn with hn | rfl
    · have hbound := (hrows row hrow).bound
      simp only [ReportRow.op, DbOp.params, List.all_cons, Bool.and_eq_true] at hbound
      exact isNumber_columnInteger w hbound.2.2.2.1 (hfinite row hrow) hn
    · exact isNumber_decimal _
  rcases dumps_valid hnumbers with ⟨f, hrender⟩
  refine ⟨_, hrender, ?_⟩
  have hname : (dumpsString (PyStr.ofString "reports")).decode = PyStr.ofString "reports" := by
    decide
  refine ⟨(dumpsElements .none (rows.map ReportRow.toVal)).map f, .none, ?_, ?_⟩
  · rw [listing, get?_dumpsValue f _ (List.forall_mem_singleton.mpr hname)]
    rfl
  · rw [Elements.toList_map, toList_dumpsElements, List.map_map, List.map_map,
      List.forall₂_map_left_iff, List.forall₂_same]
    exact fun row hrow => (hrows row hrow).describes f

theorem infiniteTs_iff (ts : PyVal) :
    infiniteTs ts = true ↔ ∃ text, ts = .float text ∧ isInfinite text = true := by
  cases ts with
  | float text => simp [infiniteTs]
  | none | bool _ | int _ | str _ | list _ | dict _ => simp [infiniteTs]

/-- A listing with an infinite time stamp is no document. -/
theorem dumps_listing_ne (w : FloatWriter) {rows : List ReportRow} {row : ReportRow}
    (hrow : row ∈ rows) (hinfinite : infiniteTs row.clientTs = true) (t : Text) :
    dumps w.write (listing rows) ≠ t.render := by
  rcases (infiniteTs_iff _).1 hinfinite with ⟨text, hts, hinf⟩
  apply dumps_infinite w hinf
  rw [mem_numbers_listing]
  refine ⟨row, hrow, (mem_numbers_toVal row _).2 (Or.inl ?_)⟩
  rw [hts, columnInteger, if_neg (ne_nan_of_isInfinite hinf), dumpsValue, Value.numbers]
  exact List.mem_singleton_self _

/-! ## The reports that were accepted -/

/-- The request was answered 201. -/
def Flight.created (f : Flight) : Bool :=
  match f.status with
  | .answered r => r.code == 201
  | _ => false

/-- The rows of the reports that were answered 201, in the order of their statements. -/
noncomputable def Service.acceptedReports (cfg : ServerConfig) (s : Service) : List ReportRow :=
  s.statements.filterMap fun st =>
    if s.flights[st.flight]?.any Flight.created then
      theOne (ReportRequest cfg st.request st.time)
    else none

section Accepted

variable {cfg : ServerConfig} {store : Store} {s : Service}

/-- The request of a statement was answered 201 exactly if the statement succeeded and the request
is a report. -/
theorem Service.Accounts.created_iff (h : s.Accounts cfg store) {st : Statement}
    (hst : st ∈ s.statements) :
    s.flights[st.flight]?.any Flight.created = true ↔
      st.ok = true ∧ (theOne (ReportRequest cfg st.request st.time)).isSome = true := by
  rcases List.getElem?_of_mem hst with ⟨n, hn⟩
  rcases h.logged hn with ⟨f, op, before, hf, hreq, hop, -, hstatus⟩
  rw [hf, Option.any_some, Flight.created, hstatus]
  rw [hreq] at hop
  cases hok : st.ok with
  | false => simp [internalError, Response.error]
  | true =>
      have hnone (hother : ∀ row : ReportRow, row.op ≠ op) :
          theOne (ReportRequest cfg st.request st.time) = none :=
        theOne_eq_none fun row hrow => hother row (hrow.op_eq hop)
      cases handle_store hop with
      | addReport hrow =>
          rw [theOne_reportRequest hop (hrow st.time)]
          simp [Store.perform]
      | ban | unban | banStatus | listReports =>
          rw [hnone (by simp [ReportRow.op])]
          simp [Store.perform]

/-- What was accepted are the reports among the statements that succeeded. -/
theorem Service.Accounts.acceptedReports_eq (h : s.Accounts cfg store) :
    s.acceptedReports cfg = reportLog cfg s.statements := by
  apply List.filterMap_congr
  intro st hst
  have hcreated := h.created_iff hst
  by_cases hrow : theOne (ReportRequest cfg st.request st.time) = none
  · rw [hrow, ite_self, ite_self]
  · rw [← ne_eq, ← Option.isSome_iff_ne_none] at hrow
    rw [and_iff_left hrow, ← Bool.eq_iff_iff] at hcreated
    rw [hcreated]

/-- There is one row for every request that was answered 201. -/
theorem Service.Accounts.length_acceptedReports (h : s.Accounts cfg store) :
    (s.acceptedReports cfg).length = s.flights.countP Flight.created := by
  have hrow : ∀ st ∈ s.statements,
      (if s.flights[st.flight]?.any Flight.created then
        theOne (ReportRequest cfg st.request st.time) else none).isSome =
          s.flights[st.flight]?.any Flight.created := by
    intro st hst
    cases hcreated : s.flights[st.flight]?.any Flight.created with
    | true => exact ((h.created_iff hst).1 hcreated).2
    | false => rfl
  have hall : ∀ i f, s.flights[i]? = some f → f.created = true →
      i ∈ s.statements.map Statement.flight := by
    intro i f hf hcreated
    unfold Flight.created at hcreated
    split at hcreated
    · rename_i r hr
      rcases h.created hf hr (by simpa using hcreated) with ⟨st, hst, rfl, -⟩
      exact List.mem_map_of_mem hst
    · cases hcreated
  rw [Service.acceptedReports, List.length_filterMap_eq_countP,
    List.countP_congr fun st hst => by rw [hrow st hst], ← countP_positions h.distinct hall,
    List.countP_map]
  rfl

end Accepted

/-! ## A listing in a run -/

/-- A run on an empty database, up to the answer to an admin who asks for the reports of a
client.  Other requests come and are answered before and after the request arrives. -/
structure ListingRun (cfg : ServerConfig) where
  start : ℚ
  before : List ServiceEvent
  request : HttpRequest
  clientId : PyStr
  time : ℚ
  between : List ServiceEvent
  now : Int
  get : request.command = .get
  path : request.path = reportsPath ++ clientId
  valid : clientIdRe clientId = true
  admin : (authed cfg.adminKeys request).2 = .ok true
  /-- the request is not rate limited -/
  allowed : (((Service.start cfg start .empty).run cfg before).limiter.allow
    (clientIp cfg request) time).1 = true
  /-- the rows are read at the end of the run, and not before -/
  pending : ∀ ok t, .execute ((Service.start cfg start .empty).run cfg before).flights.length ok t
    ∉ between

namespace ListingRun

variable {cfg : ServerConfig} (run : ListingRun cfg)

/-- The server when the request arrives. -/
def prior : Service :=
  (Service.start cfg run.start .empty).run cfg run.before

/-- The server when the rows are read. -/
def state : Service :=
  run.prior.run cfg (.arrive run.request run.time :: run.between)

/-- The server when the request has been answered. -/
def final : Service :=
  run.state.step cfg (.execute run.prior.flights.length true run.now)

/-- The reports that were accepted for the client, the last ones first, up to the limit. -/
noncomputable def newest : List ReportRow :=
  ((run.state.acceptedReports cfg).filter
    (fun row => row.clientId == run.clientId)).reverse.take listLimit

/-- The admin receives a JSON document that shows these reports and no others. -/
def Faithful (w : FloatWriter) : Prop :=
  ∃ f r t, run.final.flights[run.prior.flights.length]? = some f ∧ f.status = .answered r ∧
    r.code = 200 ∧ r.body w = t.render ∧ ListsRows t run.newest

theorem state_eq : run.state = (Service.start cfg run.start .empty).run cfg
    (run.before ++ .arrive run.request run.time :: run.between) := by
  rw [state, prior, Service.run_append]

theorem accounts_state : run.state.Accounts cfg .empty := by
  rw [state_eq]
  exact Service.accounts cfg run.start .empty _

theorem reports_state : run.state.store.reports = run.state.acceptedReports cfg := by
  rw [run.accounts_state.acceptedReports_eq]
  exact run.accounts_state.reports

/-- What is read are the reports that were accepted. -/
theorem listReports_state :
    run.state.store.listReports run.clientId = run.newest.map ReportRow.toVal := by
  rw [Store.listReports, newest, reports_state, List.filter_reverse]

theorem newest_submitted : ∀ row ∈ run.newest, Submitted cfg row := by
  intro row hrow
  have hmem := List.mem_of_mem_filter (List.mem_reverse.1 (List.mem_of_mem_take hrow))
  rw [← reports_state, state_eq] at hmem
  exact Service.rows_submitted cfg run.start _ row hmem

/-- The request waits for its statement until it is carried out. -/
theorem waiting_state : ∃ f, run.state.flights[run.prior.flights.length]? = some f ∧
    f.status = .waiting (.listReports run.clientId) := by
  have hhandle : (handle cfg run.request).2 = .ok (.store (.listReports run.clientId)) := by
    rw [handle_reports run.get run.path, requiresAuth_of_authed _ run.admin, handleReports,
      requireValidClientId, validClientId, if_pos run.valid]
  exact ⟨_, Service.run_keeps (Service.step_arrive run.allowed) run.pending,
    arrival_waiting run.time hhandle⟩

/-- The request is answered with the rows. -/
theorem answered_final : ∃ f, run.final.flights[run.prior.flights.length]? = some f ∧
    f.status = .answered ⟨200, listing run.newest, []⟩ := by
  rcases run.waiting_state with ⟨f, hf, hwaiting⟩
  have hbind : (DbOp.listReports run.clientId).params.all bindable = true := by
    simp [DbOp.params, bindable, encodable_of_clientIdRe run.valid]
  refine ⟨_, Service.step_execute hf hwaiting hbind run.now, ?_⟩
  rw [Store.perform, listReports_state]
  rfl

/-- It depends on the rows alone whether the answer is faithful. -/
theorem faithful_iff (w : FloatWriter) : run.Faithful w ↔
    ∃ t : Text, dumps w.write (listing run.newest) = t.render ∧ ListsRows t run.newest := by
  rcases run.answered_final with ⟨f, hf, hanswered⟩
  constructor
  · rintro ⟨f', r, t, hf', hstatus, -, hbody, hlists⟩
    rw [hf, Option.some.injEq] at hf'
    rw [← hf', hanswered, FlightStatus.answered.injEq] at hstatus
    rw [← hstatus] at hbody
    exact ⟨t, hbody, hlists⟩
  · rintro ⟨t, hbody, hlists⟩
    exact ⟨f, _, t, hf, hanswered, rfl, hbody, hlists⟩

end ListingRun

/-- **Report listing.**  The reports that were accepted are as many as the requests that were
answered 201.  The admin receives a JSON document with the newest of them exactly if none of these
has an infinite time stamp. -/
theorem listing_faithful_iff (w : FloatWriter) (cfg : ServerConfig) (run : ListingRun cfg) :
    (run.state.acceptedReports cfg).length = run.state.flights.countP Flight.created ∧
      (run.Faithful w ↔ ∀ row ∈ run.newest, infiniteTs row.clientTs = false) := by
  refine ⟨run.accounts_state.length_acceptedReports, ?_⟩
  rw [run.faithful_iff]
  constructor
  · rintro ⟨t, hrender, -⟩ row hrow
    by_contra hinfinite
    rw [Bool.not_eq_false] at hinfinite
    exact dumps_listing_ne w hrow hinfinite t hrender
  · exact dumps_listing w run.newest_submitted

/-! ## A report with an infinite time stamp -/

/-- A writer that writes all finite numbers alike. -/
def coarseWriter : FloatWriter where
  write text :=
    if text = PyStr.ofString "NaN" then CStr.ascii "NaN"
    else if isInfinite text then CStr.ascii "Infinity" else CStr.ascii "0"
  nan := if_pos rfl
  infinite := by
    intro text hinf
    left
    rw [if_neg (ne_nan_of_isInfinite hinf), if_pos hinf]
  finite := by
    intro text hnan hfinite
    rw [if_neg hnan, if_neg (by rw [hfinite]; decide)]
    exact isNumber_decimal 0

/-- A report whose time stamp is a number by the standard, but too large for a `float`. -/
def overflowRequest : HttpRequest :=
  wireRequest (CStr.ascii "localhost") (CStr.ascii "report") (PyStr.ofString "10.0.0.1")
    (CStr.ascii
      "\x7b\"client_id\":\"p\",\"event_type\":\"ALERT\",\"detail\":\"\",\"ts\":1e309\x7d")

def listRequest : HttpRequest where
  command := .get
  path := PyStr.ofString "/reports/p"
  headers := [(PyStr.ofString "Authorization", PyStr.ofString "Bearer admin")]
  clientAddress := PyStr.ofString "10.0.0.2"
  body := []

def overflowRun : ListingRun twoKeyConfig where
  start := 0
  before := [.arrive overflowRequest 0, .execute 0 true 5]
  request := listRequest
  clientId := PyStr.ofString "p"
  time := 1
  between := []
  now := 6
  get := rfl
  path := rfl
  valid := by decide
  admin := rfl
  allowed := by decide +kernel
  pending := fun _ _ => List.not_mem_nil

/-- The bodies that have been sent. -/
def Service.sent (w : FloatWriter) (s : Service) : List (List UInt8) :=
  s.flights.filterMap fun f =>
    match f.status with
    | .answered r => some (r.body w)
    | _ => none

theorem overflowRun_row : ∃ row ∈ overflowRun.newest, infiniteTs row.clientTs = true := by
  have hrows : overflowRun.state.store.reports.map
      (fun row => (row.clientId, infiniteTs row.clientTs)) = [(PyStr.ofString "p", true)] := by
    decide +kernel
  rcases List.map_eq_singleton_iff.1 hrows with ⟨row, hreports, hrow⟩
  rw [Prod.mk.injEq] at hrow
  have hid : (row.clientId == overflowRun.clientId) = true := beq_iff_eq.2 hrow.1
  refine ⟨row, ?_, hrow.2⟩
  rw [ListingRun.newest, ← ListingRun.reports_state, hreports, List.filter_singleton, hid]
  exact List.mem_singleton_self row

/-- A report with the time stamp `1e309` is accepted, and the listing is no JSON document. -/
theorem overflow_listing_unparsable :
    overflowRun.final.sent coarseWriter =
        [CStr.ascii "\x7b\"ok\": true\x7d",
          CStr.ascii "\x7b\"reports\": [\x7b\"event_type\": \"ALERT\", \"detail\": \"\", " ++
          CStr.ascii "\"client_ts\": Infinity, \"received_at\": 5, " ++
          CStr.ascii "\"source_addr\": \"10.0.0.1\"\x7d]\x7d"] ∧
      ¬overflowRun.Faithful coarseWriter := by
  refine ⟨by decide +kernel, ?_⟩
  rw [ListingRun.faithful_iff]
  rintro ⟨t, hrender, -⟩
  rcases overflowRun_row with ⟨row, hrow, hinfinite⟩
  exact dumps_listing_ne coarseWriter hrow hinfinite t hrender

end Anticheat
