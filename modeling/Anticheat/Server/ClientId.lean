import Anticheat.Server.BanPipeline

/-!
# Client ids

A client id is meant to have 1 to 128 characters of {lit}`[A-Za-z0-9._-]`.  The pattern
that is checked ends in {lit}`$`, which in Python also matches in front of a newline that
ends the text.

Main results:

- Theorem {lit}`clientIdRe_iff`: the texts that the pattern accepts.
- Theorem {lit}`client_id_invariant_iff`: the tables hold proper ids along a run exactly if
  no id with a newline was stored.
-/

namespace Anticheat

open Foundation PyJson

/-! ## The texts that are accepted -/

/-- The form that a client id should have. -/
def IdForm (v : PyStr) : Prop :=
  1 ≤ v.length ∧ v.length ≤ 128 ∧ ∀ c ∈ v, isIdChar c = true

instance (v : PyStr) : Decidable (IdForm v) :=
  inferInstanceAs (Decidable (_ ∧ _ ∧ _))

/-- The text ends in a newline. -/
def EndsInNewline (v : PyStr) : Prop :=
  ∃ w, v = w ++ [10]

theorem IdForm.not_endsInNewline {v : PyStr} (h : IdForm v) : ¬EndsInNewline v := by
  rintro ⟨w, rfl⟩
  exact absurd (h.2.2 10 (by simp)) (by decide)

/-- The pattern matches a beginning of the text, after which the anchor holds. -/
theorem clientIdRe_iff_split (v : PyStr) :
    clientIdRe v = true ↔ ∃ w rest, v = w ++ rest ∧ IdForm w ∧ atDollar rest = true := by
  simp only [clientIdRe, List.any_eq_true, List.mem_range]
  constructor
  · rintro ⟨n, hn, hdollar⟩
    have hstart : v.take (n + 1) = ((v.takeWhile isIdChar).take 128).take (n + 1) := by
      rw [List.length_take] at hn
      rw [List.take_take, Nat.min_eq_left (by omega)]
      conv_lhs => rw [← List.takeWhile_append_dropWhile (p := isIdChar) (l := v)]
      rw [List.take_append_of_le_length (by omega)]
    refine ⟨v.take (n + 1), v.drop (n + 1), (List.take_append_drop _ _).symm, ?_, hdollar⟩
    rw [hstart]
    rw [List.length_take] at hn
    refine ⟨?_, ?_, ?_⟩
    · rw [List.length_take, List.length_take]
      omega
    · rw [List.length_take, List.length_take]
      omega
    · intro c hc
      have hmem := List.mem_of_mem_take (List.mem_of_mem_take hc)
      exact List.all_eq_true.1 List.all_takeWhile c hmem
  · rintro ⟨w, rest, rfl, ⟨hpos, hle, hchars⟩, hdollar⟩
    refine ⟨w.length - 1, ?_, ?_⟩
    · rw [List.takeWhile_append_of_pos hchars, List.length_take, List.length_append]
      omega
    · rw [Nat.sub_add_cancel hpos, List.drop_left]
      exact hdollar

/-- The texts that the pattern accepts: proper ids, and these with a newline after them. -/
theorem clientIdRe_iff (v : PyStr) :
    clientIdRe v = true ↔ IdForm v ∨ ∃ w, IdForm w ∧ v = w ++ [10] := by
  rw [clientIdRe_iff_split]
  constructor
  · rintro ⟨w, rest, rfl, hw, hdollar⟩
    simp only [atDollar, Bool.or_eq_true, beq_iff_eq] at hdollar
    rcases hdollar with rfl | rfl
    · exact Or.inl (by rwa [List.append_nil])
    · exact Or.inr ⟨w, hw, rfl⟩
  · rintro (hv | ⟨w, hw, rfl⟩)
    · exact ⟨v, [], (List.append_nil v).symm, hv, rfl⟩
    · exact ⟨w, [10], rfl, hw, rfl⟩

/-- An id that is accepted is proper unless it ends in a newline. -/
theorem idForm_iff_of_clientIdRe {v : PyStr} (h : clientIdRe v = true) :
    IdForm v ↔ ¬EndsInNewline v := by
  constructor
  · exact IdForm.not_endsInNewline
  · intro hend
    rcases (clientIdRe_iff v).1 h with hv | ⟨w, -, hw⟩
    · exact hv
    · exact absurd ⟨w, hw⟩ hend

/-! ## The ids in the tables -/

/-- All ids in the tables have the form that they should have. -/
def Store.IdsProper (s : Store) : Prop :=
  (∀ r ∈ s.reports, IdForm r.clientId) ∧ ∀ clientId, (s.bans clientId).isSome → IdForm clientId

/-- A statement that succeeded has put an id into a table: with a report or with a ban. -/
def Statement.Stores (cfg : ServerConfig) (st : Statement) (clientId : PyStr) : Prop :=
  st.ok = true ∧ ((∃ reason, BanRequest cfg st.request (.ban clientId reason)) ∨
    ∃ row, ReportRequest cfg st.request st.time row ∧ row.clientId = clientId)

/-- The id that a statement puts into a table. -/
def DbOp.stored : DbOp → Option PyStr
  | .addReport clientId .. => some clientId
  | .ban clientId _ => some clientId
  | .listReports _ | .unban _ | .banStatus _ => none

theorem stores_iff {cfg : ServerConfig} {req : HttpRequest} {op : DbOp}
    (hop : (handle cfg req).2 = .ok (.store op)) (i : Nat) (now : Int) (clientId : PyStr) :
    Statement.Stores cfg ⟨i, req, true, now⟩ clientId ↔ op.stored = some clientId := by
  constructor
  · rintro ⟨-, ⟨reason, hreq⟩ | ⟨row, hreq, rfl⟩⟩
    · rw [← hreq.op_eq hop]
      rfl
    · rw [← hreq.op_eq hop]
      rfl
  · intro hstored
    cases handle_store hop with
    | addReport hrow => exact ⟨rfl, Or.inr ⟨_, hrow now, Option.some.inj hstored⟩⟩
    | @ban id reason hreq =>
        rw [DbOp.stored, Option.some.injEq] at hstored
        subst hstored
        exact ⟨rfl, Or.inl ⟨reason, hreq⟩⟩
    | unban => contradiction
    | banStatus => contradiction
    | listReports => contradiction

/-- Every id that a request puts into a table has passed the check. -/
theorem Authorised.clientIdRe {cfg : ServerConfig} {req : HttpRequest} {op : DbOp}
    (h : Authorised cfg req op) {clientId : PyStr} (hstored : op.stored = some clientId) :
    clientIdRe clientId = true := by
  cases h with
  | addReport hrow =>
      rw [DbOp.stored, Option.some.injEq] at hstored
      subst hstored
      cases hrow 0 with
      | report _ _ _ hnames => exact hnames.valid
  | ban hreq =>
      rw [DbOp.stored, Option.some.injEq] at hstored
      subst hstored
      cases hreq with
      | ban _ _ _ hnames => exact hnames.valid
  | unban => contradiction
  | banStatus => contradiction
  | listReports => contradiction

/-- A statement keeps the tables proper exactly if the id that it stores is. -/
theorem Store.IdsProper.perform_iff {s : Store} (h : s.IdsProper) (now : Int) (op : DbOp) :
    (s.perform now op).1.IdsProper ↔ ∀ clientId, op.stored = some clientId → IdForm clientId := by
  cases op with
  | addReport clientId eventType detail ts source =>
      simp only [DbOp.stored, Option.some.injEq, forall_eq']
      constructor
      · intro hproper
        exact hproper.1 ⟨clientId, eventType, detail, ts, now, source⟩
          (by simp [Store.perform, Store.addReport])
      · intro hid
        refine ⟨?_, h.2⟩
        intro r hr
        rcases List.mem_append.1 hr with hr | hr
        · exact h.1 r hr
        · rw [List.mem_singleton.1 hr]
          exact hid
  | ban clientId reason =>
      simp only [DbOp.stored, Option.some.injEq, forall_eq']
      constructor
      · intro hproper
        exact hproper.2 clientId (by simp [Store.perform, Store.ban])
      · intro hid
        refine ⟨h.1, ?_⟩
        intro id hsome
        by_cases heq : id = clientId
        · rw [heq]
          exact hid
        · simp only [Store.perform, Store.ban, Function.update_of_ne heq] at hsome
          exact h.2 id hsome
  | unban clientId =>
      refine ⟨fun _ _ hstored => by contradiction, fun _ => ⟨h.1, ?_⟩⟩
      intro id hsome
      by_cases heq : id = clientId
      · simp [Store.perform, Store.unban, heq] at hsome
      · simp only [Store.perform, Store.unban, Function.update_of_ne heq] at hsome
        exact h.2 id hsome
  | listReports clientId => exact ⟨fun _ _ hstored => by contradiction, fun _ => h⟩
  | banStatus clientId => exact ⟨fun _ _ hstored => by contradiction, fun _ => h⟩

/-! ## Runs -/

/-- No statement has stored an id that ends in a newline. -/
def NoNewlineStored (cfg : ServerConfig) (log : List Statement) : Prop :=
  ∀ st ∈ log, ∀ clientId, st.Stores cfg clientId → ¬EndsInNewline clientId

theorem noNewlineStored_concat (cfg : ServerConfig) (log : List Statement) (st : Statement) :
    NoNewlineStored cfg (log ++ [st]) ↔
      NoNewlineStored cfg log ∧ ∀ clientId, st.Stores cfg clientId → ¬EndsInNewline clientId := by
  simp [NoNewlineStored, or_imp, forall_and]

/-- One step: tables that were proper stay so exactly if no id with a newline is stored. -/
theorem Service.step_idsProper_iff {cfg : ServerConfig} {store : Store} {s : Service}
    (hacc : s.Accounts cfg store) (hlog : NoNewlineStored cfg s.statements)
    (h : s.store.IdsProper) (e : ServiceEvent) :
    (s.step cfg e).store.IdsProper ↔ NoNewlineStored cfg (s.step cfg e).statements := by
  rcases s.step_cases cfg e with
    ⟨req, now, rfl, hstep⟩ | ⟨i, ok, now, f, op, rfl, hf, hop, hstep⟩ | ⟨-, hstep⟩
  · rw [hstep]
    exact iff_of_true h hlog
  · rw [hstep]
    have hhandle := (hacc.waiting i f op hf hop).1
    rcases s.perform_cases i f op ok now with heq | heq
    · rw [heq, noNewlineStored_concat, and_iff_right hlog, h.perform_iff]
      refine forall_congr' fun clientId => ?_
      rw [stores_iff hhandle]
      exact imp_congr_right fun hstored =>
        idForm_iff_of_clientIdRe ((handle_store hhandle).clientIdRe hstored)
    · rw [heq, noNewlineStored_concat]
      exact iff_of_true h ⟨hlog, fun clientId hst => absurd hst.1 Bool.false_ne_true⟩
  · rw [hstep]
    exact iff_of_true h hlog

/-- Statements are only added. -/
theorem Service.step_statements (cfg : ServerConfig) (s : Service) (e : ServiceEvent) :
    s.statements <+: (s.step cfg e).statements := by
  rcases s.step_cases cfg e with
    ⟨req, now, rfl, hstep⟩ | ⟨i, ok, now, f, op, rfl, hf, hop, hstep⟩ | ⟨-, hstep⟩
  · rw [hstep]
  · rw [hstep]
    rcases s.perform_cases i f op ok now with heq | heq
    · rw [heq]
      exact List.prefix_append _ _
    · rw [heq]
      exact List.prefix_append _ _
  · rw [hstep]

/-- The tables are proper in every state of a run. -/
def AlwaysProper (cfg : ServerConfig) (start : ℚ) (events : List ServiceEvent) : Prop :=
  ∀ n, ((Service.start cfg start .empty).run cfg (events.take n)).store.IdsProper

theorem alwaysProper_concat (cfg : ServerConfig) (start : ℚ) (events : List ServiceEvent)
    (e : ServiceEvent) :
    AlwaysProper cfg start (events ++ [e]) ↔ AlwaysProper cfg start events ∧
      ((Service.start cfg start .empty).run cfg (events ++ [e])).store.IdsProper := by
  constructor
  · intro h
    refine ⟨fun n => ?_, ?_⟩
    · have hn := h (min n events.length)
      rwa [List.take_append_of_le_length (Nat.min_le_right _ _), ← List.take_take,
        List.take_length] at hn
    · have hn := h (events.length + 1)
      rwa [List.take_of_length_le (by simp)] at hn
  · rintro ⟨hevents, hlast⟩ n
    by_cases hn : n ≤ events.length
    · rw [List.take_append_of_le_length hn]
      exact hevents n
    · rw [List.take_of_length_le (by simp; omega)]
      exact hlast

theorem alwaysProper_iff (cfg : ServerConfig) (start : ℚ) (events : List ServiceEvent) :
    AlwaysProper cfg start events ↔
      NoNewlineStored cfg ((Service.start cfg start .empty).run cfg events).statements := by
  induction events using List.reverseRecOn with
  | nil =>
      refine iff_of_true (fun n => ?_) ?_
      · rw [List.take_nil]
        simp [Store.IdsProper, Service.run, Service.start, Store.empty]
      · simp [NoNewlineStored, Service.run, Service.start]
  | append_singleton events e ih =>
      rw [alwaysProper_concat, Service.run_concat]
      have hacc := Service.accounts cfg start .empty events
      by_cases hlog : NoNewlineStored cfg
          ((Service.start cfg start .empty).run cfg events).statements
      · have hproper := ih.2 hlog events.length
        rw [List.take_length] at hproper
        rw [and_iff_right (ih.2 hlog), Service.step_idsProper_iff hacc hlog hproper]
      · refine iff_of_false (fun h => hlog (ih.1 h.1)) fun h => hlog ?_
        exact fun st hst => h st ((Service.step_statements cfg _ e).subset hst)

/-- The invariant of the client ids.  A run stores only proper ids, and a text is accepted
exactly if it is a proper id, if and only if no statement of the run stores an id that
ends in a newline, and the text is no proper id with a newline after it. -/
theorem client_id_invariant_iff (cfg : ServerConfig) (start : ℚ) (events : List ServiceEvent)
    (v : PyStr) :
    (AlwaysProper cfg start events ∧ (validClientId (.str v) = true ↔ IdForm v)) ↔
      (NoNewlineStored cfg ((Service.start cfg start .empty).run cfg events).statements ∧
        ¬∃ w, IdForm w ∧ v = w ++ [10]) := by
  refine and_congr (alwaysProper_iff cfg start events) ?_
  rw [validClientId, clientIdRe_iff]
  constructor
  · rintro h ⟨w, hw, rfl⟩
    exact (h.1 (Or.inr ⟨w, hw, rfl⟩)).not_endsInNewline ⟨w, rfl⟩
  · intro h
    exact or_iff_left h

/-- A request that bans an id with a newline after it. -/
def newlineBanRequest : HttpRequest where
  command := .post
  path := PyStr.ofString "/ban"
  headers := [(PyStr.ofString "Authorization", PyStr.ofString "Bearer admin"),
    (PyStr.ofString "Content-Length", PyStr.ofString "42")]
  clientAddress := PyStr.ofString "10.0.0.1"
  body := CStr.ascii "\x7b\"client_id\":\"player\\n\",\"reason\":\"aimbot\"\x7d"

/-- The pattern accepts an id with a newline after it, and a ban is filed under it. -/
theorem newline_id_is_banned :
    ¬(AlwaysProper twoKeyConfig 0 [.arrive newlineBanRequest 0, .execute 0 true 5] ∧
      (validClientId (.str (PyStr.ofString "player\n")) = true ↔
        IdForm (PyStr.ofString "player\n"))) := by
  rintro ⟨hproper, -⟩
  have hbanned : (((Service.start twoKeyConfig 0 .empty).run twoKeyConfig
      [.arrive newlineBanRequest 0, .execute 0 true 5]).store.bans
        (PyStr.ofString "player\n")).isSome = true := by
    decide +kernel
  exact absurd ((hproper 2).2 _ hbanned) (by decide)

end Anticheat
