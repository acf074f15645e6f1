import Anticheat.Daemon.Report
import Anticheat.Server.ClientId

/-!
# From the daemon to the server

What the daemon writes is what the server reads.  The bytes of a report's text come from
process names and file paths, so they are chosen by an attacker; the daemon escapes them,
may cut the escaped text in the middle of a character, and the server replaces what is
not UTF-8 before it reads the JSON.

Main results:

- Theorem {lit}`reads_escapeChar`: every escape is read back as its character.
- Theorem {lit}`loads_reportChars`: the object that a report denotes.
- Theorem {lit}`report_wire_agreement`: the server reads that object from the request that
  the daemon sends, and accepts it.
-/

namespace Anticheat

open Foundation PyJson

/-! ## Reading the escapes -/

/-- An escape of one letter. -/
theorem reads_simpleEscape {c e : Nat} (he : e ≠ 117) (h : simpleEscape e = some c) :
    Reads c [92, e] := by
  refine ⟨.raw c, rfl, by simp, ?_⟩
  intro rest
  simp [scanUnits, he, h]

/-- An escape of four digits, below the first surrogate. -/
theorem reads_unicodeEscape {c d e f g p q r t : Nat} (hd : hexValue d = some p)
    (he : hexValue e = some q) (hf : hexValue f = some r) (hg : hexValue g = some t)
    (hc : c = ((p * 16 + q) * 16 + r) * 16 + t) (hlt : c < 0xD800) :
    Reads c [92, 117, d, e, f, g] := by
  refine ⟨.escaped c, rfl, ?_, ?_⟩
  · rintro h heq
    rw [← StrUnit.escaped.inj heq]
    simp only [isHighSurrogate, Bool.and_eq_false_iff, decide_eq_false_iff_not]
    omega
  · intro rest
    simp [scanUnits, hd, he, hf, hg, hc]

theorem escapeChar_raw {c : Nat} (h32 : 32 ≤ c) (h34 : c ≠ 34) (h92 : c ≠ 92) :
    escapeChar c = [c] := by
  by_cases hascii : c < 0x80
  · have hall : ∀ n : Fin 128, 32 ≤ n.val → n.val ≠ 34 → n.val ≠ 92 → escapeChar n = [n.val] := by
      decide
    exact hall ⟨c, hascii⟩ h32 h34 h92
  · rw [escapeChar, if_neg hascii]

/-- Every escape is read back as its character. -/
theorem reads_escapeChar (c : Nat) : Reads c (escapeChar c) := by
  by_cases hcontrol : c < 32
  · interval_cases c
    case «9» => exact reads_simpleEscape (by decide) rfl
    case «10» => exact reads_simpleEscape (by decide) rfl
    case «13» => exact reads_simpleEscape (by decide) rfl
    all_goals exact reads_unicodeEscape rfl rfl rfl rfl (by decide) (by decide)
  · by_cases hquote : c = 34
    · subst hquote
      exact reads_simpleEscape (by decide) rfl
    · by_cases hslash : c = 92
      · subst hslash
        exact reads_simpleEscape (by decide) rfl
      · rw [escapeChar_raw (not_lt.1 hcontrol) hquote hslash]
        exact reads_raw (not_lt.1 hcontrol) hquote hslash

/-! ## The object that a report denotes -/

/-- The object that the server should read from a report. -/
def reportObject (clientId eventType detail : PyStr) (ts : Int) : List (PyStr × PyVal) :=
  [(PyStr.ofString "client_id", .str clientId), (PyStr.ofString "event_type", .str eventType),
    (PyStr.ofString "detail", .str detail), (PyStr.ofString "ts", .int ts)]

/-- One member whose value is a string, with another member after it. -/
theorem parseMembers_str {fuel depth : Nat} {d : List (PyStr × PyVal)} {key text rest : PyStr}
    {enc : Nat → PyStr} (hkey : ∀ c ∈ key, 32 ≤ c ∧ c ≠ 34 ∧ c ≠ 92)
    (htext : ∀ c ∈ text, Reads c (enc c)) :
    parseMembers (fuel + 2) depth d
        (34 :: (key ++ 34 :: 58 :: 34 :: (text.flatMap enc ++ 34 :: 44 :: 34 :: rest))) =
      parseMembers (fuel + 1) depth (dictSet d key (.str text)) (34 :: rest) := by
  have hvalue : scanOnce (fuel + 1) depth
      (34 :: (text.flatMap enc ++ 34 :: 44 :: 34 :: rest)) = .ok (.str text, 44 :: 34 :: rest) := by
    rw [scanOnce, if_pos rfl, scanString_reads htext]
    rfl
  rw [parseMembers_item (scanString_raw hkey _) rfl hvalue]
  rfl

/-- The same for a string without escapes. -/
theorem parseMembers_raw {fuel depth : Nat} {d : List (PyStr × PyVal)} {key text rest : PyStr}
    (hkey : ∀ c ∈ key, 32 ≤ c ∧ c ≠ 34 ∧ c ≠ 92) (htext : ∀ c ∈ text, 32 ≤ c ∧ c ≠ 34 ∧ c ≠ 92) :
    parseMembers (fuel + 2) depth d
        (34 :: (key ++ 34 :: 58 :: 34 :: (text ++ 34 :: 44 :: 34 :: rest))) =
      parseMembers (fuel + 1) depth (dictSet d key (.str text)) (34 :: rest) := by
  have hraw : ∀ c ∈ text, Reads c ((fun c => [c]) c) := fun c hc =>
    reads_raw (htext c hc).1 (htext c hc).2.1 (htext c hc).2.2
  have hmember := @parseMembers_str fuel depth d key text rest _ hkey hraw
  rwa [List.flatMap_singleton'] at hmember

/-- An object that is not empty. -/
theorem scanOnce_object (fuel depth : Nat) (s : PyStr) :
    scanOnce (fuel + 1) (depth + 1) (123 :: 34 :: s) = parseMembers fuel depth [] (34 :: s) := by
  rw [scanOnce, if_neg (by decide), if_pos rfl]
  rfl

/-- A number in decimal, as `%lld` writes it. -/
theorem decimal_toNat (i : Int) :
    (CStr.decimal i).map UInt8.toNat =
      (if (decide (i < 0)) then [45] else []) ++ PyStr.digits i.natAbs := by
  unfold CStr.decimal
  by_cases hneg : i < 0
  · simp [hneg, PyStr.digits, PyStr.latin1]
  · simp [hneg, PyStr.digits, PyStr.latin1]

theorem signed_natAbs (i : Int) : PyStr.signed (decide (i < 0)) i.natAbs = i := by
  unfold PyStr.signed
  by_cases hneg : i < 0
  · simp only [hneg, decide_true, if_true]
    omega
  · simp only [hneg, decide_false, Bool.false_eq_true, if_false]
    omega

/-- A number begins with a sign or a digit. -/
theorem decimal_cons (i : Int) : ∃ c t, (CStr.decimal i).map UInt8.toNat = c :: t ∧
    (c = 45 ∨ (48 ≤ c ∧ c ≤ 57)) := by
  rw [decimal_toNat]
  by_cases hneg : i < 0
  · exact ⟨45, PyStr.digits i.natAbs, by simp [hneg], Or.inl rfl⟩
  · rcases hd : PyStr.digits i.natAbs with - | ⟨c, t⟩
    · exact absurd hd (PyStr.digits_ne_nil _)
    · have hc : PyStr.isDigit c = true :=
        PyStr.isDigit_of_mem_digits (n := i.natAbs) (by rw [hd]; exact List.mem_cons_self)
      simp only [PyStr.isDigit, Bool.and_eq_true, decide_eq_true_eq] at hc
      exact ⟨c, t, by simp [hneg], Or.inr hc⟩

/-- The last member, whose value is the time. -/
theorem parseMembers_ts {fuel depth : Nat} {d : List (PyStr × PyVal)} {i : Int}
    (hi : (PyStr.digits i.natAbs).length ≤ PyStr.maxStrDigits) :
    parseMembers (fuel + 2) depth d
        (34 :: (PyStr.ofString "ts" ++ 34 :: 58 :: ((CStr.decimal i).map UInt8.toNat ++ [125]))) =
      .ok (.dict (dictSet d (PyStr.ofString "ts") (.int i)), []) := by
  have hscalar := scanScalar_int (decide (i < 0)) hi (c := 125) (by decide) (by decide)
    (by decide) (by decide) []
  rw [← decimal_toNat, signed_natAbs] at hscalar
  rcases decimal_cons i with ⟨c, t, hct, hc⟩
  rw [hct, List.cons_append] at hscalar ⊢
  have hvalue : scanOnce (fuel + 1) depth (c :: (t ++ [125])) = .ok (.int i, [125]) := by
    rw [scanOnce, if_neg (by omega), if_neg (by omega), if_neg (by omega), hscalar]
  have hws : skipWs (c :: (t ++ [125])) = c :: (t ++ [125]) :=
    List.dropWhile_cons_of_neg (by simp [isWs]; omega)
  have hkey : ∀ c ∈ PyStr.ofString "ts", 32 ≤ c ∧ c ≠ 34 ∧ c ≠ 92 := by decide
  rw [parseMembers_item (scanString_raw hkey _) hws hvalue]
  rfl

/-- A report as the text that the server decodes. -/
def reportChars (clientId eventType detail : PyStr) (ts : Int) : PyStr :=
  123 :: 34 :: (PyStr.ofString "client_id" ++ 34 :: 58 :: 34 :: (clientId ++ 34 :: 44 :: 34 ::
    (PyStr.ofString "event_type" ++ 34 :: 58 :: 34 :: (eventType ++ 34 :: 44 :: 34 ::
    (PyStr.ofString "detail" ++ 34 :: 58 :: 34 :: (detail.flatMap escapeChar ++ 34 :: 44 :: 34 ::
    (PyStr.ofString "ts" ++ 34 :: 58 :: ((CStr.decimal ts).map UInt8.toNat ++ [125]))))))))

theorem decimal_ascii (i : Int) : ∀ b ∈ CStr.decimal i, b < 0x80 := by
  have hdigit : ∀ n, ∀ b ∈ CStr.digits 10 n, b < 0x80 := by
    intro n b hb
    have hmem : b.toNat ∈ PyStr.digits n := List.mem_map_of_mem hb
    have hd := PyStr.isDigit_of_mem_digits hmem
    simp only [PyStr.isDigit, Bool.and_eq_true, decide_eq_true_eq] at hd
    rw [UInt8.lt_iff_toNat_lt]
    exact hd.2.trans_lt (by decide)
  unfold CStr.decimal
  split
  · intro b hb
    rcases List.mem_cons.1 hb with rfl | hb
    · decide
    · exact hdigit _ b hb
  · exact hdigit _

/-- What the server decodes from a report: the text of the report decodes on its own,
whatever its last bytes are. -/
theorem decode_reportText {clientId eventType : CStr} (hid : ∀ b ∈ clientId, b < 0x80)
    (htype : ∀ b ∈ eventType, b < 0x80) (kept : CStr) (ts : Int) :
    Utf8.decode (reportText clientId eventType (kept.flatMap escapeByte) ts) =
      reportChars (clientId.map UInt8.toNat) (eventType.map UInt8.toNat) (Utf8.decode kept) ts := by
  have hlit : ∀ s ∈ [CStr.ascii "\x7b\"client_id\":\"", CStr.ascii "\",\"event_type\":\"",
      CStr.ascii "\",\"detail\":\"", CStr.ascii ",\"ts\":", CStr.ascii "\x7d"],
      s.all (· < 0x80) = true := by decide
  simp only [List.mem_cons, List.not_mem_nil, or_false, forall_eq_or_imp, forall_eq,
    List.all_iff_forall_prop] at hlit
  rcases hlit with ⟨h1, h2, h3, h4, h5⟩
  have hclose : CStr.ascii "\",\"ts\":" = 34 :: CStr.ascii ",\"ts\":" := by decide
  have hend : ∀ b ∈ CStr.ascii ",\"ts\":" ++ CStr.decimal ts ++ CStr.ascii "\x7d", b < 0x80 := by
    intro b hb
    rcases List.mem_append.1 hb with hb | hb
    · rcases List.mem_append.1 hb with hb | hb
      · exact h4 b hb
      · exact decimal_ascii ts b hb
    · exact h5 b hb
  have hdecodeEnd := Utf8.decode_ascii_append hend []
  rw [reportText, hclose]
  simp only [List.append_assoc, List.cons_append] at hdecodeEnd ⊢
  rw [Utf8.decode_ascii_append h1, Utf8.decode_ascii_append hid, Utf8.decode_ascii_append h2,
    Utf8.decode_ascii_append htype, Utf8.decode_ascii_append h3,
    decode_escape kept (by decide : (34 : UInt8) < 0x80)]
  rw [List.append_nil] at hdecodeEnd
  rw [hdecodeEnd]
  simp only [List.map_append, reportChars, List.append_assoc]
  rfl

/-- The object that a report denotes. -/
theorem loads_reportChars (depth : Nat) {clientId eventType : PyStr} (detail : PyStr) {ts : Int}
    (hid : ∀ c ∈ clientId, 32 ≤ c ∧ c ≠ 34 ∧ c ≠ 92)
    (htype : ∀ c ∈ eventType, 32 ≤ c ∧ c ≠ 34 ∧ c ≠ 92)
    (hts : (PyStr.digits ts.natAbs).length ≤ PyStr.maxStrDigits) :
    loads (depth + 1) (reportChars clientId eventType detail ts) =
      .ok (.dict (reportObject clientId eventType detail ts)) := by
  have hfuel : ∃ f, 2 * (reportChars clientId eventType detail ts).length + 1 = f + 6 :=
    ⟨2 * (reportChars clientId eventType detail ts).length - 5, by
      simp only [reportChars, List.length_cons, List.length_append]
      omega⟩
  rcases hfuel with ⟨f, hf⟩
  have hmembers : scanOnce (f + 6) (depth + 1) (reportChars clientId eventType detail ts) =
      .ok (.dict (reportObject clientId eventType detail ts), []) := by
    rw [reportChars, scanOnce_object, parseMembers_raw (by decide) hid,
      parseMembers_raw (by decide) htype,
      parseMembers_str (by decide) fun c _ => reads_escapeChar c, parseMembers_ts hts]
    rfl
  have hws : skipWs (reportChars clientId eventType detail ts) =
      reportChars clientId eventType detail ts := rfl
  rw [loads, if_neg (by simp [reportChars]), hf, hws, hmembers]
  rfl

/-! ## The request -/

/-- The daemon's request as the server's HTTP library hands it over. -/
def wireRequest (host key : CStr) (peer : PyStr) (body : CStr) : HttpRequest where
  command := .post
  path := PyStr.ofString "/report"
  headers := (reportHeaders host key body).map fun h => (PyStr.latin1 h.1, PyStr.latin1 h.2)
  clientAddress := peer
  body := body

theorem wireRequest_contentLength (host key : CStr) (peer : PyStr) (body : CStr) :
    (wireRequest host key peer body).header "Content-Length" =
      some (PyStr.digits body.length) :=
  rfl

theorem clientIp_wireRequest (cfg : ServerConfig) (host key : CStr) (peer : PyStr) (body : CStr) :
    clientIp cfg (wireRequest host key peer body) = peer := by
  unfold clientIp
  cases cfg.trustProxy <;> rfl

theorem sendsBody_wireRequest (host key : CStr) (peer : PyStr) {body : CStr}
    (hlen : body.length ≤ maxBodyBytes) : (wireRequest host key peer body).SendsBody := by
  have hlt : body.length < 10 ^ 4 := lt_of_le_of_lt hlen (by decide)
  have hdigits : (PyStr.digits body.length).length ≤ PyStr.maxStrDigits :=
    (PyStr.length_digits_le (by decide) hlt).trans (by decide)
  rw [HttpRequest.SendsBody, wireRequest_contentLength, Option.bind_some, PyStr.int_digits hdigits]
  rfl

/-- What the server reads from a body of a length that it takes. -/
theorem readJsonBody_wireRequest (cfg : ServerConfig) (host key : CStr) (peer : PyStr)
    {body : CStr} (hlen : body.length ≤ maxBodyBytes) {v : PyVal}
    (hloads : loads (cfg.nesting + 1) (Utf8.decode body) = .ok v) :
    readJsonBody cfg (wireRequest host key peer body) = .ok (some v) := by
  have hread := readJsonBody_of_sendsBody cfg (sendsBody_wireRequest host key peer hlen) hlen
  rw [show (wireRequest host key peer body).body = body from rfl, hloads] at hread
  exact hread

/-- The characters of an id are ASCII and need no escape. -/
theorem isIdChar_plain {c : Nat} (h : isIdChar c = true) :
    (32 ≤ c ∧ c ≠ 34 ∧ c ≠ 92) ∧ c < 0x80 := by
  simp only [isIdChar, Bool.or_eq_true, Bool.and_eq_true, decide_eq_true_eq, beq_iff_eq] at h
  omega

theorem length_decimal_le {ts : Int} (hts : ts.natAbs < 10 ^ 19) :
    (PyStr.digits ts.natAbs).length ≤ 19 ∧ (CStr.decimal ts).length ≤ 20 := by
  have hdigits := PyStr.length_digits_le (by decide) hts
  refine ⟨hdigits, ?_⟩
  rw [← List.length_map UInt8.toNat, decimal_toNat, List.length_append]
  split
  · rw [List.length_singleton]
    omega
  · rw [List.length_nil]
    omega

/-- A report fits its buffer. -/
theorem length_reportText_le {clientId eventType detail : CStr} {ts : Int}
    (hid : clientId.length ≤ 127) (htype : eventType.length ≤ 8) (hdetail : detail.length ≤ 598)
    (hts : ts.natAbs < 10 ^ 19) :
    (reportText clientId eventType detail ts).length ≤ 803 := by
  have hdecimal := (length_decimal_le hts).2
  have h1 : (CStr.ascii "\x7b\"client_id\":\"").length = 14 := by decide
  have h2 : (CStr.ascii "\",\"event_type\":\"").length = 16 := by decide
  have h3 : (CStr.ascii "\",\"detail\":\"").length = 12 := by decide
  have h4 : (CStr.ascii "\",\"ts\":").length = 7 := by decide
  have h5 : (CStr.ascii "\x7d").length = 1 := by decide
  simp only [reportText, List.length_append, h1, h2, h3, h4, h5]
  omega

/-- What the handler makes of a report. -/
theorem handleReport_reportObject {cfg : ServerConfig} {req : HttpRequest}
    {clientId eventType detail : PyStr} {ts : Int}
    (hbody : readJsonBody cfg req =
      .ok (some (.dict (reportObject clientId eventType detail ts))))
    (hid : IdForm clientId) (htype : eventType.length ≤ 64) (hdetail : detail.length ≤ 2000) :
    handleReport cfg req =
      .ok (.store (.addReport clientId eventType detail (.int ts) (clientIp cfg req))) := by
  have hnames : NamesClient cfg req (reportObject clientId eventType detail ts) clientId :=
    ⟨hbody, rfl, (clientIdRe_iff clientId).2 (Or.inl hid)⟩
  have hget : dictGet (reportObject clientId eventType detail ts) (PyStr.ofString "event_type") =
      .str eventType := rfl
  have hget' : dictGet (reportObject clientId eventType detail ts) (PyStr.ofString "detail") =
      .str detail := rfl
  rw [handleReport, hnames.requireBodyClientId]
  simp only [hget, hget', if_neg (not_lt.2 htype), if_neg (not_lt.2 hdetail)]
  rfl

/-- A report that gets past the limiter and carries a key is answered 201 once its
statement succeeds. -/
theorem Service.answers_created {cfg : ServerConfig} {req : HttpRequest}
    {clientId eventType detail source : PyStr} {ts : PyVal} (hpost : req.command = .post)
    (hpath : req.path = PyStr.ofString "/report")
    (hreport : handleReport cfg req =
      .ok (.store (.addReport clientId eventType detail ts source)))
    (hbind : (DbOp.addReport clientId eventType detail ts source).params.all bindable = true)
    (s : Service) (now : ℚ) (dbNow : Int)
    (hallowed : (s.limiter.allow (clientIp cfg req) now).1 = true)
    (hkey : (authed cfg.reportKeys req).2 = .ok true) :
    ∃ f, ((s.step cfg (.arrive req now)).step cfg
        (.execute s.flights.length true dbNow)).flights[s.flights.length]? = some f ∧
      f.status = .answered ⟨201, .dict [(PyStr.ofString "ok", .bool true)], []⟩ := by
  have hhandle : (handle cfg req).2 =
      .ok (.store (.addReport clientId eventType detail ts source)) :=
    (handle_of_authed hpost hpath hkey).trans hreport
  exact ⟨_, Service.step_execute (Service.step_arrive hallowed) (arrival_waiting now hhandle) hbind
    dbNow, rfl⟩

/-! ## The agreement -/

/-- Text without surrogates can be stored. -/
theorem encodable_of_isScalar {s : PyStr} (h : ∀ c ∈ s, Utf8.IsScalar c) : encodable s = true := by
  rw [encodable, List.all_eq_true]
  intro c hc
  have hscalar := h c hc
  unfold Utf8.IsScalar at hscalar
  simp only [Bool.not_eq_true', Bool.and_eq_false_iff, decide_eq_false_iff_not]
  omega

theorem encodable_of_ascii {s : PyStr} (h : ∀ c ∈ s, c < 0x80) : encodable s = true :=
  encodable_of_isScalar fun c hc => Or.inl ((h c hc).trans (by decide))

/-- The two types of events that are reported are plain text. -/
theorem eventType_plain {eventType : CStr}
    (h : eventType = CStr.ascii "ALERT" ∨ eventType = CStr.ascii "CRITICAL") :
    acJsonEscape eventType 64 = eventType ∧ eventType.length ≤ 8 ∧
      ∀ b ∈ eventType, b < 0x80 ∧ 32 ≤ b.toNat ∧ b.toNat ≠ 34 ∧ b.toNat ≠ 92 := by
  rcases h with rfl | rfl
  · exact ⟨by decide, by decide, List.all_iff_forall_prop.1 (by decide)⟩
  · exact ⟨by decide, by decide, List.all_iff_forall_prop.1 (by decide)⟩

/-- What the server reads from a body in which the text was escaped. -/
theorem loads_reportText (depth : Nat) {clientId eventType : CStr} (kept : CStr) {ts : Int}
    (hid : ∀ b ∈ clientId, isIdChar b.toNat = true)
    (htype : ∀ b ∈ eventType, b < 0x80 ∧ 32 ≤ b.toNat ∧ b.toNat ≠ 34 ∧ b.toNat ≠ 92)
    (hts : (PyStr.digits ts.natAbs).length ≤ PyStr.maxStrDigits) :
    loads (depth + 1)
        (Utf8.decode (reportText clientId eventType (kept.flatMap escapeByte) ts)) =
      .ok (.dict (reportObject (PyStr.latin1 clientId) (PyStr.latin1 eventType)
        (Utf8.decode kept) ts)) := by
  have hidAscii : ∀ b ∈ clientId, b < 0x80 := fun b hb =>
    UInt8.lt_iff_toNat_lt.2 (isIdChar_plain (hid b hb)).2
  rw [decode_reportText hidAscii fun b hb => (htype b hb).1]
  refine loads_reportChars depth _ ?_ ?_ hts
  · exact List.forall_mem_map.2 fun b hb => (isIdChar_plain (hid b hb)).1
  · exact List.forall_mem_map.2 fun b hb => (htype b hb).2

/-- A report can be stored whatever its text was. -/
theorem bindable_report {clientId eventType : CStr} (kept : CStr) {ts : Int} {peer : PyStr}
    (hid : ∀ b ∈ clientId, isIdChar b.toNat = true) (htype : ∀ b ∈ eventType, b < 0x80)
    (hts : -2 ^ 63 ≤ ts ∧ ts < 2 ^ 63) (hpeer : encodable peer = true) :
    (DbOp.addReport (PyStr.latin1 clientId) (PyStr.latin1 eventType) (Utf8.decode kept)
      (.int ts) peer).params.all bindable = true := by
  have hidStored : encodable (PyStr.latin1 clientId) = true :=
    encodable_of_ascii (List.forall_mem_map.2 fun b hb => (isIdChar_plain (hid b hb)).2)
  have htypeStored : encodable (PyStr.latin1 eventType) = true :=
    encodable_of_ascii
      (List.forall_mem_map.2 fun b hb => UInt8.lt_iff_toNat_lt.1 (htype b hb))
  have hdetailStored : encodable (Utf8.decode kept) = true :=
    encodable_of_isScalar Utf8.isScalar_of_mem_decode
  simp only [DbOp.params, List.all_cons, List.all_nil, bindable, hidStored, htypeStored,
    hdetailStored, hpeer, Bool.and_true, Bool.true_and, Bool.and_eq_true, decide_eq_true_eq]
  exact hts

/-- The agreement of daemon and server.  Whatever the bytes of a report's text are, the
body is not cut, its length is announced and taken by the server, and the server reads an
object with exactly the four keys, in which the client id, the event type and the time
are the daemon's, and the text is what the server decodes from a beginning of the bytes,
from all of them if their escaped form has at most 593.  The handler comes to the
statement that adds the row, and a server that lets the request in answers 201. -/
theorem report_wire_agreement (cfg : ServerConfig) (host key : CStr) (peer : PyStr)
    {clientId eventType : CStr} (detail : CStr) {ts : Int}
    (hid : 1 ≤ clientId.length ∧ clientId.length ≤ 127 ∧ ∀ b ∈ clientId, isIdChar b.toNat = true)
    (htype : eventType = CStr.ascii "ALERT" ∨ eventType = CStr.ascii "CRITICAL")
    (hts : -2 ^ 63 ≤ ts ∧ ts < 2 ^ 63) :
    let body := reportBody clientId eventType detail ts
    let req := wireRequest host key peer body
    body = reportText clientId (acJsonEscape eventType 64) (acJsonEscape detail 600) ts ∧
    req.header "Content-Length" = some (PyStr.digits body.length) ∧
    body.length ≤ maxBodyBytes ∧
    ∃ kept, kept <+: detail ∧ ((detail.flatMap escapeByte).length ≤ 593 → kept = detail) ∧
      readJsonBody cfg req = .ok (some (.dict (reportObject (PyStr.latin1 clientId)
        (PyStr.latin1 eventType) (Utf8.decode kept) ts))) ∧
      handleReport cfg req = .ok (.store (.addReport (PyStr.latin1 clientId)
        (PyStr.latin1 eventType) (Utf8.decode kept) (.int ts) peer)) ∧
      ∀ (s : Service) (now : ℚ) (dbNow : Int), encodable peer = true →
        (s.limiter.allow (clientIp cfg req) now).1 = true →
        (authed cfg.reportKeys req).2 = .ok true →
        ∃ f, ((s.step cfg (.arrive req now)).step cfg
            (.execute s.flights.length true dbNow)).flights[s.flights.length]? = some f ∧
          f.status = .answered ⟨201, .dict [(PyStr.ofString "ok", .bool true)], []⟩ := by
  intro body req
  rcases hid with ⟨hpos, hlen, hchars⟩
  rcases eventType_plain htype with ⟨hescape, htypeLen, htypePlain⟩
  rcases acJsonEscape_spec detail (show 2 ≤ 600 by decide) with
    ⟨kept, hkept, hkeptEscape, hescapedLen, hall⟩
  have htsAbs : ts.natAbs < 10 ^ 19 := by omega
  have htextLen :=
    length_reportText_le hlen htypeLen (Nat.le_of_add_le_add_right hescapedLen) htsAbs
  have hbody : body = reportText clientId eventType (acJsonEscape detail 600) ts := by
    change CStr.bounded 1024 _ = _
    rw [hescape]
    exact List.take_of_length_le (htextLen.trans (by decide))
  have hbodyLen : body.length ≤ maxBodyBytes := by
    rw [hbody]
    exact htextLen.trans (by decide)
  have hread := readJsonBody_wireRequest cfg host key peer hbodyLen (by
    rw [hbody, hkeptEscape]
    exact loads_reportText cfg.nesting kept hchars htypePlain
      ((length_decimal_le htsAbs).1.trans (by decide)))
  have hkeptLen : (Utf8.decode kept).length ≤ 2000 := by
    have hdecode := Utf8.length_decode_le kept
    have hescaped := length_flatMap_escapeByte kept
    rw [← hkeptEscape] at hescaped
    omega
  have hidLen : (PyStr.latin1 clientId).length = clientId.length := List.length_map _
  have htypeLatin : (PyStr.latin1 eventType).length = eventType.length := List.length_map _
  have hform : IdForm (PyStr.latin1 clientId) :=
    ⟨by omega, by omega, List.forall_mem_map.2 hchars⟩
  have hhandle := handleReport_reportObject hread hform (by omega) hkeptLen
  rw [clientIp_wireRequest] at hhandle
  refine ⟨by rw [hescape, hbody], wireRequest_contentLength .., hbodyLen, kept, hkept,
    fun hfits => hall (by omega), hread, hhandle, ?_⟩
  intro s now dbNow hpeer hallowed hauthed
  exact Service.answers_created rfl rfl hhandle
    (bindable_report kept hchars (fun b hb => (htypePlain b hb).1) hts hpeer)
    s now dbNow hallowed hauthed

/-- A path that ends in half a character, and before it tries to close the string and to
add a key of its own. -/
def hostileDetail : CStr :=
  CStr.ascii "/tmp/x\",\"client_id\":\"other\\" ++ [1, 0xE2, 0x82]

theorem hostile_report_read_back :
    let body := reportBody (CStr.ascii "player-1") (CStr.ascii "ALERT") hostileDetail 1700000000
    readJsonBody twoKeyConfig (wireRequest (CStr.ascii "localhost") (CStr.ascii "report")
        (PyStr.ofString "10.0.0.1") body) =
      .ok (some (.dict (reportObject (PyStr.ofString "player-1") (PyStr.ofString "ALERT")
        (PyStr.ofString "/tmp/x\",\"client_id\":\"other\\" ++ [1, 0xFFFD]) 1700000000))) := by
  have hid : 1 ≤ (CStr.ascii "player-1").length ∧ (CStr.ascii "player-1").length ≤ 127 ∧
      ∀ b ∈ CStr.ascii "player-1", isIdChar b.toNat = true :=
    ⟨by decide, by decide, List.all_iff_forall_prop.1 (by decide)⟩
  have hts : -2 ^ 63 ≤ (1700000000 : Int) ∧ (1700000000 : Int) < 2 ^ 63 := by
    decide
  rcases report_wire_agreement twoKeyConfig (CStr.ascii "localhost") (CStr.ascii "report")
    (PyStr.ofString "10.0.0.1") hostileDetail hid (Or.inl rfl) hts with
    ⟨_, _, _, kept, _, hall, hread, _⟩
  rw [hall (by decide)] at hread
  exact hread

end Anticheat
