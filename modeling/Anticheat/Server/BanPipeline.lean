import Anticheat.Server.Throttling

/-!
# Who can change the tables, and who can read them

Reports accumulate; only an administrator bans.  Over whole runs of the server, with the
statements of concurrent requests in any order, the two tables are what the authorised
requests make of them, and nobody without a key of the admin tier learns anything of
their content.

Main results:

- Theorem {lit}`Service.accounts`: the tables, the statements and the answers of a run.
- Theorem {lit}`Service.reads_nothing`: two runs on different databases look alike to
  everybody without a key of the admin tier.
- Theorem {lit}`ban_pipeline_authority`: both, for each configuration that the server
  starts with.
-/

namespace Anticheat

open Foundation PyJson

/-! ## Requests as commands -/

/-- The statement that carries out a command. -/
def BanCommand.op : BanCommand → DbOp
  | ban clientId reason => .ban clientId reason
  | unban clientId => .unban clientId

/-- The statement that adds a row. -/
def ReportRow.op (r : ReportRow) : DbOp :=
  .addReport r.clientId r.eventType r.detail r.clientTs r.sourceAddr

/-- A valid `/ban` or `/unban` request comes to its statement, unless the comparison of
its token raises an exception. -/
theorem BanRequest.handle {cfg : ServerConfig} {req : HttpRequest} {c : BanCommand}
    (h : BanRequest cfg req c) :
    (handle cfg req).2 = .ok (.store c.op) ∨
      ((authed cfg.adminKeys req).2 = .error .other ∧ (handle cfg req).2 = .error .other) := by
  cases h with
  | @ban body clientId reason hpost hpath hkey hnames hreason hpos hle =>
      have hhandler : handleBan cfg req = .ok (.store (.ban clientId reason)) := by
        rw [handleBan, hnames.requireBodyClientId]
        simp only [hreason, if_pos (And.intro hpos hle)]
      rw [handle_ban hpost hpath, hhandler]
      exact requiresAuth_of_carriesKey _ hkey
  | @unban body clientId hpost hpath hkey hnames =>
      have hhandler : handleUnban cfg req = .ok (.store (.unban clientId)) := by
        rw [handleUnban, hnames.requireBodyClientId]
      rw [handle_unban hpost hpath, hhandler]
      exact requiresAuth_of_carriesKey _ hkey

theorem ReportRequest.handle {cfg : ServerConfig} {req : HttpRequest} {now : Int}
    {row : ReportRow} (h : ReportRequest cfg req now row) :
    (handle cfg req).2 = .ok (.store row.op) ∨
      ((authed cfg.reportKeys req).2 = .error .other ∧ (handle cfg req).2 = .error .other) := by
  cases h with
  | @report body clientId eventType detail hpost hpath hkey hnames htype hlen hdetail hlen' =>
      have hhandler : handleReport cfg req = .ok (.store (.addReport clientId eventType detail
          (clientTs (dictGet body (PyStr.ofString "ts"))) (clientIp cfg req))) := by
        rw [handleReport, hnames.requireBodyClientId]
        simp only [htype, hdetail, if_neg (not_lt.2 hlen), if_neg (not_lt.2 hlen')]
      rw [handle_report hpost hpath, hhandler]
      exact requiresAuth_of_carriesKey _ hkey

theorem BanCommand.op_injective {c c' : BanCommand} (h : c.op = c'.op) : c = c' := by
  cases c <;> cases c' <;> simp_all [BanCommand.op]

theorem ReportRequest.receivedAt {cfg : ServerConfig} {req : HttpRequest} {now : Int}
    {row : ReportRow} (h : ReportRequest cfg req now row) : row.receivedAt = now := by
  cases h
  rfl

section Statement

variable {cfg : ServerConfig} {req : HttpRequest} {op : DbOp}

/-- What a request that comes to a statement asks for is that statement. -/
theorem BanRequest.op_eq (hop : (Anticheat.handle cfg req).2 = .ok (.store op)) {c : BanCommand}
    (h : BanRequest cfg req c) : c.op = op := by
  rcases h.handle with heq | ⟨-, heq⟩
  · simpa using heq.symm.trans hop
  · simp [heq] at hop

theorem ReportRequest.op_eq (hop : (Anticheat.handle cfg req).2 = .ok (.store op)) {now : Int}
    {row : ReportRow} (h : ReportRequest cfg req now row) : row.op = op := by
  rcases h.handle with heq | ⟨-, heq⟩
  · simpa using heq.symm.trans hop
  · simp [heq] at hop

theorem theOne_banRequest (hop : (Anticheat.handle cfg req).2 = .ok (.store op)) {c : BanCommand}
    (h : BanRequest cfg req c) : theOne (BanRequest cfg req) = some c :=
  theOne_eq_some h fun _ hb => BanCommand.op_injective ((hb.op_eq hop).trans (h.op_eq hop).symm)

theorem theOne_reportRequest (hop : (Anticheat.handle cfg req).2 = .ok (.store op)) {now : Int}
    {row : ReportRow} (h : ReportRequest cfg req now row) :
    theOne (ReportRequest cfg req now) = some row := by
  refine theOne_eq_some h fun b hb => ?_
  have heq := (hb.op_eq hop).trans (h.op_eq hop).symm
  simp only [ReportRow.op, DbOp.addReport.injEq] at heq
  rcases b with ⟨clientId, eventType, detail, ts, at', source⟩
  rcases row with ⟨clientId', eventType', detail', ts', at'', source'⟩
  have hat := hb.receivedAt.trans h.receivedAt.symm
  simp_all

end Statement

/-! ## The tables that the authorised requests make -/

/-- A command applied to the table of bans. -/
def applyBan (bans : PyStr → Option BanRow) (c : BanCommand × Int) : PyStr → Option BanRow :=
  match c.1 with
  | .ban clientId reason => Function.update bans clientId (some ⟨reason, c.2⟩)
  | .unban clientId => Function.update bans clientId none

/-- The `/ban` and `/unban` commands among the statements that succeeded: those of valid
requests with a key of the admin tier. -/
noncomputable def banLog (cfg : ServerConfig) (log : List Statement) : List (BanCommand × Int) :=
  log.filterMap fun st =>
    if st.ok then (theOne (BanRequest cfg st.request)).map (·, st.time) else none

/-- The rows of the `/report` requests among the statements that succeeded: those of valid
requests with a key of the report tier. -/
noncomputable def reportLog (cfg : ServerConfig) (log : List Statement) : List ReportRow :=
  log.filterMap fun st =>
    if st.ok then theOne (ReportRequest cfg st.request st.time) else none

/-- The bans after some statements. -/
noncomputable def bansAfter (cfg : ServerConfig) (store : Store) (log : List Statement) :
    PyStr → Option BanRow :=
  (banLog cfg log).foldl applyBan store.bans

/-- The answer to an `/unban` request. -/
def unbanAnswer (wasBanned : Bool) : Response :=
  ⟨200, .dict [(PyStr.ofString "ok", .bool true),
    (PyStr.ofString "was_banned", .bool wasBanned)], []⟩

/-- The answer to a `/ban` or `/unban` request whose statement is carried out on a table. -/
def BanCommand.answer (bans : PyStr → Option BanRow) : BanCommand → Response
  | ban _ _ => ⟨200, .dict [(PyStr.ofString "ok", .bool true)], []⟩
  | unban clientId => unbanAnswer (bans clientId).isSome

theorem BanCommand.perform_answer (c : BanCommand) (store : Store) (now : Int) :
    (store.perform now c.op).2 = c.answer store.bans := by
  cases c with
  | ban => rfl
  | unban => rfl

theorem banLog_concat (cfg : ServerConfig) (log : List Statement) (st : Statement) :
    banLog cfg (log ++ [st]) = banLog cfg log ++ banLog cfg [st] :=
  List.filterMap_append

theorem bansAfter_concat (cfg : ServerConfig) (store : Store) (log : List Statement)
    (st : Statement) :
    bansAfter cfg store (log ++ [st]) =
      (banLog cfg [st]).foldl applyBan (bansAfter cfg store log) := by
  rw [bansAfter, banLog_concat, List.foldl_append]
  rfl

theorem reportLog_concat (cfg : ServerConfig) (log : List Statement) (st : Statement) :
    reportLog cfg (log ++ [st]) = reportLog cfg log ++ reportLog cfg [st] :=
  List.filterMap_append

theorem banLog_failed {cfg : ServerConfig} {st : Statement} (h : st.ok = false) :
    banLog cfg [st] = [] := by
  simp [banLog, h]

theorem reportLog_failed {cfg : ServerConfig} {st : Statement} (h : st.ok = false) :
    reportLog cfg [st] = [] := by
  simp [reportLog, h]

/-- A statement that succeeds changes the tables as its request asks for. -/
theorem Store.perform_spec {cfg : ServerConfig} {req : HttpRequest} {op : DbOp}
    (hop : (handle cfg req).2 = .ok (.store op)) (store : Store) (i : Nat) (now : Int) :
    (store.perform now op).1.bans =
        (banLog cfg [⟨i, req, true, now⟩]).foldl applyBan store.bans ∧
      (store.perform now op).1.reports =
        store.reports ++ reportLog cfg [⟨i, req, true, now⟩] := by
  have hban : ∀ c, BanRequest cfg req c → banLog cfg [⟨i, req, true, now⟩] = [(c, now)] := by
    intro c hc
    simp [banLog, theOne_banRequest hop hc]
  have hnoBan : (∀ c : BanCommand, c.op ≠ op) → banLog cfg [⟨i, req, true, now⟩] = [] := by
    intro hno
    simp [banLog, theOne_eq_none fun c (hc : BanRequest cfg req c) => hno c (hc.op_eq hop)]
  have hnoReport : (∀ row : ReportRow, row.op ≠ op) →
      reportLog cfg [⟨i, req, true, now⟩] = [] := by
    intro hno
    simp [reportLog,
      theOne_eq_none fun row (hrow : ReportRequest cfg req now row) => hno row (hrow.op_eq hop)]
  cases handle_store hop with
  | addReport hrow =>
      have hreport := theOne_reportRequest hop (hrow now)
      rw [hnoBan fun c => by cases c <;> simp [BanCommand.op]]
      exact ⟨rfl, by simp [reportLog, hreport, Store.perform, Store.addReport]⟩
  | ban hc =>
      rw [hban _ hc, hnoReport fun row => by simp [ReportRow.op]]
      exact ⟨rfl, (List.append_nil _).symm⟩
  | unban hc =>
      rw [hban _ hc, hnoReport fun row => by simp [ReportRow.op]]
      exact ⟨rfl, (List.append_nil _).symm⟩
  | banStatus =>
      rw [hnoBan fun c => by cases c <;> simp [BanCommand.op],
        hnoReport fun row => by simp [ReportRow.op]]
      exact ⟨rfl, (List.append_nil _).symm⟩
  | listReports =>
      rw [hnoBan fun c => by cases c <;> simp [BanCommand.op],
        hnoReport fun row => by simp [ReportRow.op]]
      exact ⟨rfl, (List.append_nil _).symm⟩

/-! ## The accounts of a run -/

/-- What has become of the request at a position of a run: it stands as it arrived and has
no statement, or its statement was made on a database, and is what it was answered by. -/
inductive FlightAccount (cfg : ServerConfig) (store : Store) (log : List Statement) (i : Nat)
    (f : Flight) : Prop where
  | arrived (allowed : Bool) : f.status = (arrival cfg f.request f.time allowed).status →
      i ∉ log.map Statement.flight → FlightAccount cfg store log i f
  | made (n : Nat) (st : Statement) (op : DbOp) (before : Store) : log[n]? = some st →
      st.flight = i → st.request = f.request → (handle cfg f.request).2 = .ok (.store op) →
      before.bans = bansAfter cfg store (log.take n) →
      f.status = .answered (if st.ok then (before.perform st.time op).2 else internalError) →
      FlightAccount cfg store log i f

/-- The statement of another request changes nothing. -/
theorem FlightAccount.concat {cfg : ServerConfig} {store : Store} {log : List Statement} {i : Nat}
    {f : Flight} (h : FlightAccount cfg store log i f) {st : Statement} (hne : i ≠ st.flight) :
    FlightAccount cfg store (log ++ [st]) i f := by
  cases h with
  | arrived allowed hstatus hnone =>
      apply FlightAccount.arrived allowed hstatus
      rw [List.map_append, List.mem_append, List.map_singleton, List.mem_singleton]
      exact not_or.2 ⟨hnone, hne⟩
  | made n old op before hold hflight hreq hop hbans hstatus =>
      have hn := (List.getElem?_eq_some_iff.1 hold).1
      apply FlightAccount.made n old op before (getElem?_concat_some hold st) hflight hreq hop
      · rw [List.take_append_of_le_length hn.le]
        exact hbans
      · exact hstatus

/-- The tables, the statements and the answers of a run that began with a database. -/
structure Service.Accounts (cfg : ServerConfig) (store : Store) (s : Service) : Prop where
  /-- each request is accounted for -/
  flight : ∀ (i : Nat) (f : Flight), s.flights[i]? = some f →
    FlightAccount cfg store s.statements i f
  /-- each statement belongs to a request -/
  known : ∀ st ∈ s.statements, st.flight < s.flights.length
  /-- no request has two statements -/
  distinct : (s.statements.map Statement.flight).Nodup
  bans : s.store.bans = bansAfter cfg store s.statements
  reports : s.store.reports = store.reports ++ reportLog cfg s.statements

/-- What a request that arrives is answered at once, or waits for. -/
theorem arrival_status (cfg : ServerConfig) (req : HttpRequest) (now : ℚ) (allowed : Bool) :
    (∀ op, (arrival cfg req now allowed).status = .waiting op →
      (handle cfg req).2 = .ok (.store op)) ∧
    ∀ r, (arrival cfg req now allowed).status = .answered r → r.code ≠ 200 ∧ r.code ≠ 201 := by
  cases allowed with
  | false =>
      refine ⟨fun op h => by simp [arrival] at h, fun r h => ?_⟩
      simp only [arrival, Bool.false_eq_true, if_false, FlightStatus.answered.injEq] at h
      rw [← h]
      exact of_decide_eq_true rfl
  | true =>
      simp only [arrival, if_true]
      rcases hres : (handle cfg req).2 with e | r | op
      · cases e <;> simp [dispatch, internalError, Response.error]
      · refine ⟨fun op h => by simp [dispatch] at h, fun r' h => ?_⟩
        simp only [dispatch, FlightStatus.answered.injEq] at h
        subst h
        rcases handle_refuses hres with h | h | h <;> omega
      · simp [dispatch]

@[simp]
theorem arrival_request (cfg : ServerConfig) (req : HttpRequest) (now : ℚ) (allowed : Bool) :
    (arrival cfg req now allowed).request = req := by
  cases allowed <;> rfl

@[simp]
theorem arrival_time (cfg : ServerConfig) (req : HttpRequest) (now : ℚ) (allowed : Bool) :
    (arrival cfg req now allowed).time = now := by
  cases allowed <;> rfl

theorem Service.Accounts.arrive {cfg : ServerConfig} {store : Store} {s : Service}
    (h : s.Accounts cfg store) (req : HttpRequest) (now : ℚ) (allowed : Bool)
    (l : RateLimiter PyStr ℚ) :
    Service.Accounts cfg store
      { s with limiter := l, flights := s.flights ++ [arrival cfg req now allowed] } := by
  refine ⟨?_, ?_, h.distinct, h.bans, h.reports⟩
  · intro i f hf
    rcases getElem?_concat_cases hf with hf | ⟨rfl, rfl⟩
    · exact h.flight i f hf
    · apply FlightAccount.arrived allowed
      · rw [arrival_request, arrival_time]
      · intro hmem
        rcases List.mem_map.1 hmem with ⟨st, hst, hlen⟩
        exact absurd (h.known st hst) (by rw [hlen]; exact lt_irrefl _)
  · intro st hst
    rw [List.length_append]
    exact (h.known st hst).trans_le (Nat.le_add_right _ _)

/-- A request that waits does so for the statement that its handler came to. -/
theorem Service.Accounts.waiting {cfg : ServerConfig} {store : Store} {s : Service}
    (h : s.Accounts cfg store) (i : Nat) (f : Flight) (op : DbOp) (hf : s.flights[i]? = some f)
    (hop : f.status = .waiting op) :
    (handle cfg f.request).2 = .ok (.store op) ∧ i ∉ s.statements.map Statement.flight := by
  cases h.flight i f hf with
  | arrived allowed hstatus hnone =>
      exact ⟨(arrival_status cfg f.request f.time allowed).1 op (hstatus ▸ hop), hnone⟩
  | made _ _ _ _ _ _ _ _ _ hstatus =>
      rw [hstatus] at hop
      contradiction

/-- A statement succeeds or fails; either way its request is answered. -/
theorem Service.perform_cases (s : Service) (i : Nat) (f : Flight) (op : DbOp) (ok : Bool)
    (now : Int) :
    (s.perform i f op ok now =
      { s with
        store := (s.store.perform now op).1
        flights := s.flights.set i { f with status := .answered (s.store.perform now op).2 }
        statements := s.statements ++ [⟨i, f.request, true, now⟩] }) ∨
    s.perform i f op ok now =
      { s with
        flights := s.flights.set i { f with status := .answered internalError }
        statements := s.statements ++ [⟨i, f.request, false, now⟩] } := by
  unfold Service.perform
  split
  · exact Or.inl rfl
  · exact Or.inr rfl

/-- The tables and answers after a statement, given what it does to the tables. -/
theorem Service.Accounts.answer {cfg : ServerConfig} {store : Store} {s : Service}
    (h : s.Accounts cfg store) {i : Nat} {f : Flight} {op : DbOp} (hf : s.flights[i]? = some f)
    (hop : f.status = .waiting op) {ok : Bool} {now : Int} {r : Response} {after : Store}
    (hr : r = if ok then (s.store.perform now op).2 else internalError)
    (hbans : after.bans = (banLog cfg [⟨i, f.request, ok, now⟩]).foldl applyBan s.store.bans)
    (hreports : after.reports = s.store.reports ++ reportLog cfg [⟨i, f.request, ok, now⟩]) :
    Service.Accounts cfg store
      { s with
        store := after
        flights := s.flights.set i { f with status := .answered r }
        statements := s.statements ++ [⟨i, f.request, ok, now⟩] } := by
  rcases h.waiting i f op hf hop with ⟨hhandle, hfresh⟩
  have hi : i < s.flights.length := (List.getElem?_eq_some_iff.1 hf).1
  refine ⟨?_, ?_, ?_, ?_, ?_⟩
  · intro j g hg
    rcases getElem?_set_cases hg with ⟨rfl, rfl⟩ | ⟨hj, hg⟩
    · -- the new statement: the table before it is the present one
      apply FlightAccount.made s.statements.length ⟨j, f.request, ok, now⟩ op s.store
      · exact List.getElem?_concat_length
      · rfl
      · rfl
      · exact hhandle
      · rw [List.take_left]
        exact h.bans
      · rw [hr]
    · exact (h.flight j g hg).concat hj
  · intro st hst
    rw [List.length_set]
    rcases List.mem_append.1 hst with hst | hst
    · exact h.known st hst
    · rw [List.mem_singleton.1 hst]
      exact hi
  · rw [List.map_append, List.nodup_append]
    refine ⟨h.distinct, List.nodup_singleton _, ?_⟩
    intro a ha b hb
    rw [List.map_singleton, List.mem_singleton] at hb
    rintro rfl
    rw [hb] at ha
    exact hfresh ha
  · rw [hbans, h.bans, ← bansAfter_concat]
  · rw [hreports, h.reports, reportLog_concat, List.append_assoc]

theorem Service.Accounts.step {cfg : ServerConfig} {store : Store} {s : Service}
    (h : s.Accounts cfg store) (e : ServiceEvent) : (s.step cfg e).Accounts cfg store := by
  rcases s.step_cases cfg e with
    ⟨req, now, rfl, hstep⟩ | ⟨i, ok, now, f, op, rfl, hf, hop, hstep⟩ | ⟨-, hstep⟩
  · rw [hstep]
    exact h.arrive req now _ _
  · rw [hstep]
    rcases s.perform_cases i f op ok now with heq | heq
    · rw [heq]
      rcases Store.perform_spec (h.waiting i f op hf hop).1 s.store i now with ⟨hbans, hreports⟩
      exact h.answer hf hop rfl hbans hreports
    · rw [heq]
      have hbans : s.store.bans =
          (banLog cfg [⟨i, f.request, false, now⟩]).foldl applyBan s.store.bans := by
        rw [banLog_failed rfl]
        rfl
      have hreports : s.store.reports =
          s.store.reports ++ reportLog cfg [⟨i, f.request, false, now⟩] := by
        rw [reportLog_failed rfl, List.append_nil]
      exact h.answer hf hop rfl hbans hreports
  · rw [hstep]
    exact h

theorem Service.accounts (cfg : ServerConfig) (start : ℚ) (store : Store)
    (events : List ServiceEvent) :
    ((Service.start cfg start store).run cfg events).Accounts cfg store := by
  induction events using List.reverseRecOn with
  | nil =>
      refine ⟨?_, ?_, List.nodup_nil, rfl, (List.append_nil _).symm⟩
      · simp [Service.run, Service.start]
      · simp [Service.run, Service.start]
  | append_singleton events e ih =>
      rw [Service.run_concat]
      exact ih.step e

/-! ## What the accounts say of one request -/

section Requests

variable {cfg : ServerConfig} {store : Store} {s : Service}

/-- The request of a statement, and what it was answered. -/
theorem Service.Accounts.logged (h : s.Accounts cfg store) {n : Nat} {st : Statement}
    (hst : s.statements[n]? = some st) :
    ∃ f op, ∃ before : Store, s.flights[st.flight]? = some f ∧ f.request = st.request ∧
      (handle cfg f.request).2 = .ok (.store op) ∧
      before.bans = bansAfter cfg store (s.statements.take n) ∧
      f.status = .answered (if st.ok then (before.perform st.time op).2 else internalError) := by
  have hmem := List.mem_of_getElem? hst
  have hf := List.getElem?_eq_getElem (h.known st hmem)
  cases h.flight _ _ hf with
  | arrived allowed hstatus hnone => exact absurd (List.mem_map_of_mem hmem) hnone
  | made n' st' op before hst' hflight hreq hop hbans hstatus =>
      -- no request has two statements, so it is the same one
      have hn : n = n' := by
        have hlt := (List.getElem?_eq_some_iff.1 hst).1
        apply (List.getElem?_inj (by rwa [List.length_map]) h.distinct).1
        rw [List.getElem?_map, List.getElem?_map, hst, hst', Option.map_some, Option.map_some,
          hflight]
      subst hn
      rw [hst, Option.some.injEq] at hst'
      subst hst'
      exact ⟨_, op, before, hf, hreq.symm, hop, hbans, hstatus⟩

/-- An `/unban` request is told whether there was a row. -/
theorem Service.Accounts.unbanned (h : s.Accounts cfg store) (n : Nat) (st : Statement)
    (clientId : PyStr) (hst : s.statements[n]? = some st) (hok : st.ok = true)
    (hreq : BanRequest cfg st.request (.unban clientId)) :
    ∃ f : Flight, s.flights[st.flight]? = some f ∧ f.status = .answered
      (unbanAnswer (bansAfter cfg store (s.statements.take n) clientId).isSome) := by
  rcases h.logged hst with ⟨f, op, before, hf, hsame, hop, hbans, hstatus⟩
  rw [← hsame] at hreq
  refine ⟨f, hf, ?_⟩
  rw [hstatus, if_pos hok, ← hreq.op_eq hop, BanCommand.perform_answer, hbans]
  rfl

/-- Who is answered 200 or 201 had its statement carried out. -/
theorem Service.Accounts.succeeded (h : s.Accounts cfg store) {i : Nat} {f : Flight}
    {r : Response} (hf : s.flights[i]? = some f) (hr : f.status = .answered r)
    (hcode : r.code = 200 ∨ r.code = 201) :
    ∃ n st op, ∃ before : Store, s.statements[n]? = some st ∧ st.flight = i ∧
      st.request = f.request ∧ st.ok = true ∧ (handle cfg f.request).2 = .ok (.store op) ∧
      before.bans = bansAfter cfg store (s.statements.take n) ∧
      r = (before.perform st.time op).2 := by
  cases h.flight i f hf with
  | arrived allowed hstatus hnone =>
      have hno := (arrival_status cfg f.request f.time allowed).2 r (hstatus ▸ hr)
      exact absurd hcode (not_or.2 hno)
  | made n st op before hst hflight hreq hop hbans hstatus =>
      rw [hr, FlightStatus.answered.injEq] at hstatus
      cases hok : st.ok with
      | true =>
          rw [hok, if_pos rfl] at hstatus
          exact ⟨n, st, op, before, hst, hflight, hreq, hok, hop, hbans, hstatus⟩
      | false =>
          rw [hok, if_neg Bool.false_ne_true] at hstatus
          rw [hstatus] at hcode
          exact absurd hcode (by decide)

/-- Who is answered 201 has added a row. -/
theorem Service.Accounts.created (h : s.Accounts cfg store) {i : Nat} {f : Flight}
    {r : Response} (hf : s.flights[i]? = some f) (hr : f.status = .answered r)
    (hcode : r.code = 201) :
    ∃ st ∈ s.statements, st.flight = i ∧ st.ok = true ∧
      ∃ row, theOne (ReportRequest cfg st.request st.time) = some row := by
  rcases h.succeeded hf hr (Or.inr hcode) with
    ⟨n, st, op, before, hst, hflight, hreq, hok, hop, -, rfl⟩
  refine ⟨st, List.mem_of_getElem? hst, hflight, hok, ?_⟩
  rw [hreq]
  cases handle_store hop with
  | addReport hrow => exact ⟨_, theOne_reportRequest hop (hrow st.time)⟩
  | ban => exact absurd hcode (of_decide_eq_true rfl)
  | unban => exact absurd hcode (of_decide_eq_true rfl)
  | banStatus => exact absurd hcode (of_decide_eq_true rfl)
  | listReports => exact absurd hcode (of_decide_eq_true rfl)

/-- What can become of a valid `/ban` or `/unban` request with a key of the admin tier. -/
inductive BanStands (cfg : ServerConfig) (store : Store) (log : List Statement) (i : Nat)
    (f : Flight) (c : BanCommand) : Prop where
  | waiting : f.status = .waiting c.op → i ∉ log.map Statement.flight →
      BanStands cfg store log i f c
  | made (n : Nat) (st : Statement) : log[n]? = some st → st.flight = i →
      st.request = f.request →
      f.status = .answered
        (if st.ok then c.answer (bansAfter cfg store (log.take n)) else internalError) →
      BanStands cfg store log i f c
  /-- `compare_digest` has raised an exception -/
  | raised : (authed cfg.adminKeys f.request).2 = .error .other →
      f.status = .answered internalError → i ∉ log.map Statement.flight →
      BanStands cfg store log i f c
  | limited : f.status = .answered (rateLimitedAnswer cfg) → i ∉ log.map Statement.flight →
      BanStands cfg store log i f c

theorem Service.Accounts.banStands (h : s.Accounts cfg store) {i : Nat} {f : Flight}
    {c : BanCommand} (hf : s.flights[i]? = some f) (hreq : BanRequest cfg f.request c) :
    BanStands cfg store s.statements i f c := by
  cases h.flight i f hf with
  | arrived allowed hstatus hnone =>
      cases allowed with
      | false => exact .limited hstatus hnone
      | true =>
          simp only [arrival, if_true] at hstatus
          rcases hreq.handle with heq | ⟨hraised, heq⟩
          · rw [heq] at hstatus
            exact .waiting hstatus hnone
          · rw [heq] at hstatus
            exact .raised hraised hstatus hnone
  | made n st op before hst hflight hsame hop hbans hstatus =>
      apply BanStands.made n st hst hflight hsame
      rw [hstatus, ← hreq.op_eq hop, BanCommand.perform_answer, hbans]

/-- A POST request that is answered 200 has banned or unbanned: its one statement was
carried out, and the answer says what it found. -/
theorem Service.Accounts.post_answered (h : s.Accounts cfg store) {i : Nat} {f : Flight}
    {r : Response} (hf : s.flights[i]? = some f) (hpost : f.request.command = .post)
    (hr : f.status = .answered r) (hcode : r.code = 200) :
    ∃ c n st, BanRequest cfg f.request c ∧ s.statements[n]? = some st ∧ st.ok = true ∧
      (s.statements.filter fun st => st.flight = i) = [st] ∧
      r = c.answer (bansAfter cfg store (s.statements.take n)) := by
  rcases h.succeeded hf hr (Or.inl hcode) with
    ⟨n, st, op, before, hst, hflight, -, hok, hop, hbans, rfl⟩
  have hone : (s.statements.filter fun st => st.flight = i) = [st] := by
    rw [← hflight]
    exact filter_eq_singleton h.distinct (List.mem_of_getElem? hst)
  have hanswer : ∀ c : BanCommand, (before.perform st.time c.op).2 =
      c.answer (bansAfter cfg store (s.statements.take n)) := by
    intro c
    rw [c.perform_answer, hbans]
  cases handle_store hop with
  | addReport => exact absurd hcode (of_decide_eq_true rfl)
  | ban hreq => exact ⟨_, n, st, hreq, hst, hok, hone, hanswer (.ban _ _)⟩
  | unban hreq => exact ⟨_, n, st, hreq, hst, hok, hone, hanswer (.unban _)⟩
  | banStatus hget =>
      rw [hpost] at hget
      contradiction
  | listReports hget =>
      rw [hpost] at hget
      contradiction

end Requests

/-- Rows of the table of reports are only added. -/
theorem Service.run_reports (cfg : ServerConfig) (s : Service) (events : List ServiceEvent) :
    s.store.reports <+: (s.run cfg events).store.reports := by
  induction events using List.reverseRecOn with
  | nil => exact List.prefix_refl _
  | append_singleton events e ih =>
      rw [Service.run_concat]
      refine ih.trans ?_
      rcases (s.run cfg events).step_cases cfg e with
        ⟨req, now, rfl, hstep⟩ | ⟨i, ok, now, f, op, rfl, hf, hop, hstep⟩ | ⟨-, hstep⟩
      · rw [hstep]
      · rw [hstep]
        rcases (s.run cfg events).perform_cases i f op ok now with heq | heq
        · rw [heq]
          cases op with
          | addReport => exact List.prefix_append _ _
          | listReports => exact List.prefix_refl _
          | ban => exact List.prefix_refl _
          | unban => exact List.prefix_refl _
          | banStatus => exact List.prefix_refl _
        · rw [heq]
      · rw [hstep]

/-! ## What an outsider sees -/

/-- Two requests that are the same up to the answer, which may differ only if the request
carries a key of the admin tier. -/
structure SameView (cfg : ServerConfig) (f g : Flight) : Prop where
  request : f.request = g.request
  status : f.status = g.status ∨ (CarriesKey cfg.adminKeys f.request ∧
    (∃ r, f.status = .answered r) ∧ ∃ r, g.status = .answered r)

theorem SameView.answered {cfg : ServerConfig} {f g : Flight} (h : SameView cfg f g)
    {r r' : Response} (hr : r = r' ∨ CarriesKey cfg.adminKeys f.request) :
    SameView cfg { f with status := .answered r } { g with status := .answered r' } := by
  refine ⟨h.request, ?_⟩
  rcases hr with rfl | hkey
  · exact Or.inl rfl
  · exact Or.inr ⟨hkey, ⟨r, rfl⟩, ⟨r', rfl⟩⟩

/-- Two servers that look alike to everybody without a key of the admin tier. -/
structure Service.LooksLike (cfg : ServerConfig) (s t : Service) : Prop where
  limiter : s.limiter = t.limiter
  length : s.flights.length = t.flights.length
  flights : ∀ (i : Nat) (f g : Flight), s.flights[i]? = some f → t.flights[i]? = some g →
    SameView cfg f g

theorem Service.LooksLike.arrive {cfg : ServerConfig} {s t : Service} (h : s.LooksLike cfg t)
    (l : RateLimiter PyStr ℚ) (x : Flight) :
    Service.LooksLike cfg { s with limiter := l, flights := s.flights ++ [x] }
      { t with limiter := l, flights := t.flights ++ [x] } := by
  refine ⟨rfl, by simp [h.length], ?_⟩
  intro i f g hf hg
  dsimp only at hf hg
  rw [List.getElem?_append] at hf hg
  rw [← h.length] at hg
  by_cases hi : i < s.flights.length
  · rw [if_pos hi] at hf hg
    exact h.flights i f g hf hg
  · rw [if_neg hi] at hf hg
    rw [hf, Option.some.injEq] at hg
    subst hg
    exact ⟨rfl, Or.inl rfl⟩

/-- One request is answered in both servers. -/
theorem Service.LooksLike.set {cfg : ServerConfig} {s t : Service} (h : s.LooksLike cfg t)
    {i : Nat} {x y : Flight} (hxy : SameView cfg x y) {a b : Store} {p q : List Statement} :
    Service.LooksLike cfg { s with store := a, flights := s.flights.set i x, statements := p }
      { t with store := b, flights := t.flights.set i y, statements := q } := by
  refine ⟨h.limiter, by simp [h.length], ?_⟩
  intro j f g hf hg
  dsimp only at hf hg
  rw [List.getElem?_set] at hf hg
  rw [← h.length] at hg
  split_ifs at hf hg
  · rw [← Option.some.inj hf, ← Option.some.inj hg]
    exact hxy
  · exact h.flights j f g hf hg

/-- The answer to a request without a key of the admin tier does not depend on the
database. -/
theorem Store.perform_answer_eq {cfg : ServerConfig} {req : HttpRequest} {op : DbOp}
    (hop : (handle cfg req).2 = .ok (.store op)) (a b : Store) (now : Int) :
    (a.perform now op).2 = (b.perform now op).2 ∨ CarriesKey cfg.adminKeys req := by
  cases handle_store hop with
  | addReport => exact Or.inl rfl
  | ban hreq =>
      cases hreq with
      | ban _ _ hkey => exact Or.inr hkey
  | unban hreq =>
      cases hreq with
      | unban _ _ hkey => exact Or.inr hkey
  | banStatus _ _ hkey => exact Or.inr hkey
  | listReports _ _ hkey => exact Or.inr hkey

theorem Service.LooksLike.step {cfg : ServerConfig} {s t : Service} {a : Store}
    (hs : s.Accounts cfg a) (h : s.LooksLike cfg t) (e : ServiceEvent) :
    (s.step cfg e).LooksLike cfg (t.step cfg e) := by
  cases e with
  | arrive req now =>
      have harrive := h.arrive (s.limiter.allow (clientIp cfg req) now).2
        (arrival cfg req now (s.limiter.allow (clientIp cfg req) now).1)
      simpa only [Service.step, ← h.limiter] using harrive
  | execute i ok now =>
      simp only [Service.step]
      cases hf : s.flights[i]? with
      | none =>
          have hg : t.flights[i]? = none := by
            rw [List.getElem?_eq_none_iff] at hf ⊢
            rwa [← h.length]
          rw [hg]
          exact h
      | some f =>
          have hi : i < t.flights.length := h.length ▸ (List.getElem?_eq_some_iff.1 hf).1
          have hg := List.getElem?_eq_getElem hi
          set g := t.flights[i]
          rw [hg]
          have hview := h.flights i f g hf hg
          dsimp only
          rcases hview.status with hstatus | ⟨-, ⟨r, hr⟩, ⟨r', hr'⟩⟩
          · rw [← hstatus]
            cases hop : f.status with
            | answered r => exact h
            | dropped => exact h
            | waiting op =>
                have hhandle := (hs.waiting i f op hf hop).1
                simp only [Service.perform]
                by_cases hok : (ok && op.params.all bindable) = true
                · rw [if_pos hok, if_pos hok]
                  refine h.set (hview.answered ?_)
                  exact Store.perform_answer_eq hhandle s.store t.store now
                · rw [if_neg hok, if_neg hok]
                  exact h.set (hview.answered (Or.inl rfl))
          · rw [hr, hr']
            exact h

/-- Two runs on different databases look alike. -/
theorem Service.reads_nothing (cfg : ServerConfig) (start : ℚ) (a b : Store)
    (events : List ServiceEvent) :
    ((Service.start cfg start a).run cfg events).LooksLike cfg
      ((Service.start cfg start b).run cfg events) := by
  induction events using List.reverseRecOn with
  | nil => exact ⟨rfl, rfl, by simp [Service.run, Service.start]⟩
  | append_singleton events e ih =>
      rw [Service.run_concat, Service.run_concat]
      exact ih.step (Service.accounts cfg start a events) e

/-! ## The keys of a configuration -/

theorem ne_nil_of_mem_keyTier {key k : PyStr} {old : Option PyStr} (hkey : key ≠ [])
    (h : k ∈ keyTier key old) : k ≠ [] := by
  unfold keyTier at h
  split at h
  · rw [Finset.mem_singleton.1 h]
    exact hkey
  · rw [Finset.mem_singleton.1 h]
    exact hkey
  · rename_i old' hold
    rcases Finset.mem_insert.1 h with rfl | h
    · exact hkey
    · rw [Finset.mem_singleton.1 h]
      exact hold

/-- The tiers that the server starts with have no key in common and no empty key. -/
theorem Starts.keys {args : ServerArgs} {cfg : ServerConfig} (h : Starts args cfg) :
    (∀ k ∈ cfg.reportKeys, k ∉ cfg.adminKeys) ∧
      (∀ k ∈ cfg.reportKeys, k ≠ []) ∧ ∀ k ∈ cfg.adminKeys, k ≠ [] := by
  rcases h with ⟨setup, hmain, hreport, hadmin, -⟩
  unfold serverMain at hmain
  split at hmain
  · dsimp only at hmain
    split_ifs at hmain with hoverlap
    rw [← Except.ok.inj hmain] at hreport hadmin
    simp only [← List.mem_toFinset, hreport, hadmin]
    refine ⟨fun k hr ha => hoverlap ⟨k, Finset.mem_inter.2 ⟨hr, ha⟩⟩, ?_, ?_⟩
    · exact fun k => ne_nil_of_mem_keyTier (List.cons_ne_nil _ _)
    · exact fun k => ne_nil_of_mem_keyTier (List.cons_ne_nil _ _)
  · contradiction

/-- The authority over the tables.  For every configuration that the server starts with,
every database, and every run:

- the bans are those that the successful statements of valid `/ban` and `/unban` requests
  with a key of the admin tier make, in their order;
- a valid `/ban` or `/unban` request with such a key that the rate limiter lets pass waits for
  its statement, has made it, or was answered 500 because the comparison of its token raised
  an exception; a POST request that is answered 200 has made exactly one statement, which
  succeeded, and the answer says what it found;
- the reports grow by one row for each successful statement of a valid `/report` request
  with a key of the report tier, and no request has two statements;
- an `/unban` request is told whether a row was removed, and a request that is answered
  201 has added exactly one row;
- no token is accepted by both tiers, and a token that is accepted is there and not empty;
- requests without a key of the admin tier are answered alike whatever the database
  contains. -/
theorem ban_pipeline_authority {args : ServerArgs} {cfg : ServerConfig} (h : Starts args cfg)
    (start : ℚ) (store : Store) (events : List ServiceEvent) :
    let s := (Service.start cfg start store).run cfg events
    s.store.bans = (banLog cfg s.statements).foldl applyBan store.bans ∧
    s.store.reports = store.reports ++ reportLog cfg s.statements ∧
    (∀ more, s.store.reports <+: (s.run cfg more).store.reports) ∧
    (s.statements.map Statement.flight).Nodup ∧
    (∀ st ∈ s.statements, ∃ f, s.flights[st.flight]? = some f ∧ f.request = st.request) ∧
    s.flights.map Flight.entry =
      (RateLimiter.init cfg.limit (cfg.window : ℚ) start).answers (limiterCalls cfg events) ∧
    (∀ (i : Nat) (f : Flight) (c : BanCommand), s.flights[i]? = some f →
      BanRequest cfg f.request c → BanStands cfg store s.statements i f c) ∧
    (∀ (i : Nat) (f : Flight) (r : Response), s.flights[i]? = some f → f.request.command = .post →
      f.status = .answered r → r.code = 200 →
      ∃ c n st, BanRequest cfg f.request c ∧ s.statements[n]? = some st ∧ st.ok = true ∧
        (s.statements.filter fun st => st.flight = i) = [st] ∧
        r = c.answer ((banLog cfg (s.statements.take n)).foldl applyBan store.bans)) ∧
    (∀ (n : Nat) (st : Statement) (clientId : PyStr), s.statements[n]? = some st → st.ok = true →
      BanRequest cfg st.request (.unban clientId) →
      ∃ f, s.flights[st.flight]? = some f ∧ f.status = .answered (unbanAnswer
        ((banLog cfg (s.statements.take n)).foldl applyBan store.bans clientId).isSome)) ∧
    (∀ (i : Nat) (f : Flight) (r : Response), s.flights[i]? = some f → f.status = .answered r →
      r.code = 201 →
      (reportLog cfg (s.statements.filter fun st => st.flight = i)).length = 1) ∧
    (∀ req, ¬((authed cfg.reportKeys req).2 = .ok true ∧ (authed cfg.adminKeys req).2 = .ok true)) ∧
    (∀ req, (authed cfg.reportKeys req).2 = .ok true ∨ (authed cfg.adminKeys req).2 = .ok true →
      ∃ token, token ≠ [] ∧ req.header "Authorization" = some (bearerStart ++ token)) ∧
    ∀ (store' : Store) (i : Nat) (f f' : Flight), s.flights[i]? = some f →
      ((Service.start cfg start store').run cfg events).flights[i]? = some f' →
      f.request = f'.request ∧ (¬CarriesKey cfg.adminKeys f.request → f.status = f'.status) := by
  intro s
  have hacc := Service.accounts cfg start store events
  rcases h.keys with ⟨hdisjoint, hreport, hadmin⟩
  refine ⟨hacc.bans, hacc.reports, fun more => s.run_reports cfg more, hacc.distinct, ?_,
    (Service.throttle_inv cfg start store events).entries,
    fun _ _ _ hf hreq => hacc.banStands hf hreq,
    fun _ _ _ hf hpost hr hcode => hacc.post_answered hf hpost hr hcode,
    hacc.unbanned, ?_, ?_, ?_, ?_⟩
  · intro st hst
    rcases List.mem_iff_getElem?.1 hst with ⟨n, hn⟩
    rcases hacc.logged hn with ⟨f, -, -, hf, hreq, -⟩
    exact ⟨f, hf, hreq⟩
  · intro i f r hf hr hcode
    rcases hacc.created hf hr hcode with ⟨st, hst, rfl, hok, row, hrow⟩
    rw [filter_eq_singleton hacc.distinct hst]
    simp [reportLog, hok, hrow]
  · rintro req ⟨hr, ha⟩
    rcases carriesKey_of_authed hr with ⟨k, hk, hheader⟩
    rcases carriesKey_of_authed ha with ⟨k', hk', hheader'⟩
    rw [hheader, Option.some.injEq, List.append_cancel_left_eq] at hheader'
    subst hheader'
    exact hdisjoint k hk hk'
  · rintro req (hr | ha)
    · rcases carriesKey_of_authed hr with ⟨k, hk, hheader⟩
      exact ⟨k, hreport k hk, hheader⟩
    · rcases carriesKey_of_authed ha with ⟨k, hk, hheader⟩
      exact ⟨k, hadmin k hk, hheader⟩
  · intro store' i f f' hf hf'
    have hview := (Service.reads_nothing cfg start store store' events).flights i f f' hf hf'
    exact ⟨hview.request, fun hkey => hview.status.resolve_right fun h => hkey h.1⟩

/-- A request that bans a player. -/
def banRequest : HttpRequest where
  command := .post
  path := PyStr.ofString "/ban"
  headers := [(PyStr.ofString "Authorization", PyStr.ofString "Bearer admin"),
    (PyStr.ofString "Content-Length", PyStr.ofString "40")]
  clientAddress := PyStr.ofString "10.0.0.1"
  body := CStr.ascii "\x7b\"client_id\":\"player\",\"reason\":\"aimbot\"\x7d"

/-- A request that lifts the ban. -/
def unbanRequest : HttpRequest where
  command := .post
  path := PyStr.ofString "/unban"
  headers := [(PyStr.ofString "Authorization", PyStr.ofString "Bearer admin"),
    (PyStr.ofString "Content-Length", PyStr.ofString "22")]
  clientAddress := PyStr.ofString "10.0.0.1"
  body := CStr.ascii "\x7b\"client_id\":\"player\"\x7d"

/-- What an `/unban` request was told. -/
def Flight.wasBanned (f : Flight) : Option Bool :=
  match f.status with
  | .answered ⟨200, .dict d, _⟩ =>
      match dictGet d (PyStr.ofString "was_banned") with
      | .bool b => some b
      | _ => none
  | _ => none

/-- A ban, and two requests that lift it: the first finds a row, the second does not. -/
def bannedAndLifted : List ServiceEvent :=
  [.arrive banRequest 0, .arrive unbanRequest 1, .execute 0 true 5, .execute 1 true 6,
    .arrive unbanRequest 2, .execute 2 true 7]

theorem two_key_server_bans :
    let s := (Service.start twoKeyConfig 0 .empty).run twoKeyConfig bannedAndLifted
    Starts twoKeyArgs twoKeyConfig ∧
      s.flights.map Flight.wasBanned = [none, some true, some false] ∧
      s.store.bans (PyStr.ofString "player") = none ∧
      s.store.bans = (banLog twoKeyConfig s.statements).foldl applyBan Store.empty.bans := by
  refine ⟨twoKeyConfig_starts, by decide +kernel, by decide +kernel, ?_⟩
  exact (ban_pipeline_authority twoKeyConfig_starts 0 .empty bannedAndLifted).1

end Anticheat
