import Mathlib.Data.Bool.AllAny
import Anticheat.Foundation.CScan
import Anticheat.Foundation.Utf8
import Anticheat.Daemon.Monitor

/-!
# Reports to the server

How the daemon writes a report: {lit}`ac_json_escape` and {lit}`ac_report` of
{lit}`anticheat_daemon.c`, up to the request that is sent once a connection is there.

Main results:

- Theorem {lit}`acJsonEscape_spec`: the escaped text is that of a beginning of the input,
  and of all of it if there is room.
- Theorem {lit}`decode_escape`: escaping commutes with decoding, whatever the bytes are.
-/

namespace Anticheat

open Foundation

/-! ## Escaping -/

/-- The conversion `%04x` -/
def hex04 (n : Nat) : CStr :=
  List.replicate (4 - (CStr.hex n).length) 48 ++ CStr.hex n

/-- What `ac_json_escape` writes for one byte. -/
def escapeByte (c : UInt8) : CStr :=
  if c = 34 then [92, 34]
  else if c = 92 then [92, 92]
  else if c = 10 then [92, 110]
  else if c = 13 then [92, 114]
  else if c = 9 then [92, 116]
  else if c < 0x20 then CStr.ascii "\\u" ++ hex04 c.toNat
  else [c]

/-- The loop of `ac_json_escape`: it stops when the longest escape might not fit. -/
def escapeLoop (outsz : Nat) : CStr → CStr → CStr
  | [], out => out
  | c :: s, out =>
      if out.length + 7 < outsz then escapeLoop outsz s (out ++ escapeByte c) else out

/-- `ac_json_escape` into a buffer that is not empty -/
def acJsonEscape (s : CStr) (outsz : Nat) : CStr :=
  escapeLoop outsz s []

/-! ## The request -/

/-- The text of a report, before it is cut to its buffer. -/
def reportText (clientId eventType detail : CStr) (ts : Int) : CStr :=
  CStr.ascii "\x7b\"client_id\":\"" ++ clientId ++ CStr.ascii "\",\"event_type\":\"" ++ eventType ++
    CStr.ascii "\",\"detail\":\"" ++ detail ++ CStr.ascii "\",\"ts\":" ++ CStr.decimal ts ++
    CStr.ascii "\x7d"

/-- The body that `ac_report` formats. -/
def reportBody (clientId eventType detail : CStr) (ts : Int) : CStr :=
  CStr.bounded 1024
    (reportText clientId (acJsonEscape eventType 64) (acJsonEscape detail 600) ts)

/-- The headers of the request. -/
def reportHeaders (host key body : CStr) : List (CStr × CStr) :=
  [(CStr.ascii "Host", host), (CStr.ascii "Authorization", CStr.ascii "Bearer " ++ key),
    (CStr.ascii "Content-Type", CStr.ascii "application/json"),
    (CStr.ascii "Content-Length", CStr.digits 10 body.length),
    (CStr.ascii "Connection", CStr.ascii "close")]

/-- The whole request. -/
def reportRequest (host key body : CStr) : CStr :=
  CStr.ascii "POST /report HTTP/1.1\r\n" ++
    (reportHeaders host key body).flatMap (fun h => h.1 ++ CStr.ascii ": " ++ h.2 ++ [13, 10]) ++
    [13, 10] ++ body

/-- Text without the line ends at its end. -/
def stripLineEnd (s : CStr) : CStr :=
  (s.reverse.dropWhile fun c => c == 10 || c == 13).reverse

/-- `ac_report_client_id`: the first line of `/etc/machine-id`, or else the name of the
host -/
def acReportClientId (machineId : Option (List UInt8)) (hostname : Option CStr) (outsz : Nat) :
    CStr :=
  match (machineId.bind (CStr.fgets outsz)).map stripLineEnd with
  | some (c :: s) => c :: s
  | _ =>
      match hostname with
      | some (c :: s) => c :: s
      | _ => CStr.bounded outsz (CStr.ascii "unknown")

/-- What `ac_report` reads: two variables of the environment, the machine's id and the
host's name, and the time. -/
structure ReportEnv where
  url : Option CStr
  key : Option CStr
  machineId : Option (List UInt8)
  hostname : Option CStr
  now : Int

/-- The part of an address before its last colon, if there is a colon. -/
def hostOf (url : CStr) : Option CStr :=
  (CStr.strrchr 58 url).map fun port => url.take (url.length - port.length)

/-- `ac_report`, up to the request that it sends: nothing is sent without a configuration,
without a port, or if the request does not fit its buffer. -/
def acReport (env : ReportEnv) (r : AcReport) : Option CStr :=
  match env.url, env.key with
  | some (u :: url), some (k :: key) =>
      match hostOf (CStr.bounded 256 (u :: url)) with
      | none => none
      | some host =>
          let clientId := acReportClientId env.machineId env.hostname 128
          let req := reportRequest host (k :: key)
            (reportBody clientId r.eventType r.detail env.now)
          if req.length ≥ 2048 then none else some req
  | _, _ => none

/-! ## The length of escaped text -/

/-- A character below the space that has no escape of its own takes six bytes. -/
theorem length_escapeByte (c : UInt8) :
    1 ≤ (escapeByte c).length ∧ (escapeByte c).length ≤ 6 := by
  have hcontrol : c < 0x20 → (CStr.ascii "\\u" ++ hex04 c.toNat).length = 6 := by
    intro hc
    rw [UInt8.lt_iff_toNat_lt] at hc
    generalize c.toNat = n at hc
    change n < 32 at hc
    interval_cases n <;> decide
  unfold escapeByte
  split_ifs with h1 h2 h3 h4 h5 h6
  all_goals first | decide | (rw [hcontrol h6]; decide) | simp

theorem length_flatMap_escapeByte (s : CStr) : s.length ≤ (s.flatMap escapeByte).length := by
  induction s with
  | nil => exact Nat.le_refl _
  | cons c s ih =>
      have hc := (length_escapeByte c).1
      rw [List.flatMap_cons, List.length_append, List.length_cons]
      omega

/-- The escaped text is that of a beginning of the input, fits the buffer, and is that of
the whole input if seven bytes would be left. -/
theorem escapeLoop_spec {outsz : Nat} (s out : CStr)
    (hout : out.length + 2 ≤ outsz) :
    ∃ kept, kept <+: s ∧ escapeLoop outsz s out = out ++ kept.flatMap escapeByte ∧
      (escapeLoop outsz s out).length + 2 ≤ outsz ∧
      (out.length + (s.flatMap escapeByte).length + 7 ≤ outsz → kept = s) := by
  induction s generalizing out with
  | nil => exact ⟨[], List.prefix_refl _, (List.append_nil out).symm, hout, fun _ => rfl⟩
  | cons c s ih =>
      have hc := length_escapeByte c
      rw [escapeLoop]
      by_cases hroom : out.length + 7 < outsz
      · rw [if_pos hroom]
        have hout' : (out ++ escapeByte c).length + 2 ≤ outsz := by
          rw [List.length_append]
          omega
        rcases ih (out ++ escapeByte c) hout' with ⟨kept, hkept, heq, hlen, hall⟩
        refine ⟨c :: kept, List.cons_prefix_cons.2 ⟨rfl, hkept⟩, ?_, hlen, ?_⟩
        · rw [heq, List.flatMap_cons, List.append_assoc]
        · intro hfits
          rw [List.flatMap_cons, List.length_append] at hfits
          rw [hall (by rw [List.length_append]; omega)]
      · rw [if_neg hroom]
        refine ⟨[], List.nil_prefix, (List.append_nil out).symm, hout, ?_⟩
        intro hfits
        rw [List.flatMap_cons, List.length_append] at hfits
        omega

theorem acJsonEscape_spec {outsz : Nat} (s : CStr) (houtsz : 2 ≤ outsz) :
    ∃ kept, kept <+: s ∧ acJsonEscape s outsz = kept.flatMap escapeByte ∧
      (acJsonEscape s outsz).length + 2 ≤ outsz ∧
      ((s.flatMap escapeByte).length + 7 ≤ outsz → kept = s) := by
  rcases escapeLoop_spec s [] (by simpa using houtsz) with ⟨kept, hkept, hloop, hlen, hall⟩
  exact ⟨kept, hkept, hloop, hlen, fun hfits => hall (by simpa using hfits)⟩

/-! ## Escaping and decoding -/

/-- The escape of a code point: that of its byte, if it is ASCII. -/
def escapeChar (c : Nat) : List Nat :=
  if c < 0x80 then (escapeByte (UInt8.ofNat c)).map UInt8.toNat else [c]

theorem escapeByte_ascii {c : UInt8} (h : c < 0x80) : ∀ b ∈ escapeByte c, b < 0x80 := by
  rw [UInt8.lt_iff_toNat_lt] at h
  have hall : ∀ n : Fin 128, (escapeByte (UInt8.ofNat n)).all (· < 0x80) = true := by decide
  have hc := hall ⟨c.toNat, h⟩
  rw [UInt8.ofNat_toNat] at hc
  exact List.all_iff_forall_prop.1 hc

theorem escapeByte_of_not_ascii {c : UInt8} (h : ¬c < 0x80) : escapeByte c = [c] := by
  rw [UInt8.lt_iff_toNat_lt] at h
  have hne : ∀ n : UInt8, n.toNat < 0x80 → c ≠ n := by
    rintro n hn rfl
    exact h hn
  have hlt : ¬c < 0x20 := by
    rw [UInt8.lt_iff_toNat_lt]
    exact fun hc => h (hc.trans (by decide))
  rw [escapeByte, if_neg (hne _ (by decide)), if_neg (hne _ (by decide)),
    if_neg (hne _ (by decide)), if_neg (hne _ (by decide)), if_neg (hne _ (by decide)),
    if_neg hlt]

theorem flatMap_escapeChar_of_not_ascii {l : List Nat} (h : ∀ c ∈ l, 0x80 ≤ c) :
    l.flatMap escapeChar = l := by
  induction l with
  | nil => rfl
  | cons c l ih =>
      rw [List.flatMap_cons, ih fun c' hc' => h c' (List.mem_cons_of_mem _ hc'), escapeChar,
        if_neg (not_lt.2 (h c List.mem_cons_self))]
      rfl

theorem flatMap_escapeChar_flush (st : Utf8.State) :
    (Utf8.flush st).flatMap escapeChar = Utf8.flush st := by
  refine flatMap_escapeChar_of_not_ascii ?_
  cases st with
  | start => simp [Utf8.flush]
  | pending acc need lo hi => simp [Utf8.flush, Utf8.replacement]

/-- Escaping commutes with decoding.  An escape is ASCII, so it ends whatever character was
cut off before it, just as the byte does that it stands for. -/
theorem decodeFrom_escape {st : Utf8.State} (hst : st.Ok) (s : CStr) {a : UInt8} (ha : a < 0x80)
    (rest : List UInt8) :
    Utf8.decodeFrom st (s.flatMap escapeByte ++ a :: rest) =
      (Utf8.decodeFrom st s).flatMap escapeChar ++ a.toNat :: Utf8.decode rest := by
  induction s generalizing st with
  | nil =>
      rw [List.flatMap_nil, List.nil_append, Utf8.decodeFrom_ascii hst ha, Utf8.decodeFrom,
        flatMap_escapeChar_flush]
  | cons c s ih =>
      by_cases hc : c < 0x80
      · -- the escape of an ASCII byte is not empty, and its first byte ends what was before
        rcases hesc : escapeByte c with - | ⟨e, es⟩
        · exact absurd (length_escapeByte c).1 (by simp [hesc])
        · have hascii := escapeByte_ascii hc
          rw [hesc] at hascii
          have hchar : escapeChar c.toNat = e.toNat :: es.map UInt8.toNat := by
            rw [escapeChar, if_pos (show c.toNat < 0x80 from UInt8.lt_iff_toNat_lt.1 hc),
              UInt8.ofNat_toNat, hesc]
            rfl
          have hrest := ih (show Utf8.State.start.Ok from trivial)
          rw [List.flatMap_cons, hesc, List.cons_append, List.cons_append,
            Utf8.decodeFrom_ascii hst (hascii e List.mem_cons_self), List.append_assoc,
            Utf8.decode_ascii_append fun b hb => hascii b (List.mem_cons_of_mem _ hb),
            Utf8.decode, hrest, Utf8.decodeFrom_ascii hst hc, List.flatMap_append,
            List.flatMap_cons, flatMap_escapeChar_flush, hchar]
          simp [Utf8.decode]
      · have hok := Utf8.step_ok hst c
        have hout : ((Utf8.step st c).1).flatMap escapeChar = (Utf8.step st c).1 :=
          flatMap_escapeChar_of_not_ascii fun x hx => (hok.2 x hx).1 (UInt8.not_lt.1 hc)
        rw [List.flatMap_cons, escapeByte_of_not_ascii hc, List.singleton_append,
          List.cons_append, Utf8.decodeFrom, ih hok.1, Utf8.decodeFrom, List.flatMap_append, hout,
          List.append_assoc]

theorem decode_escape (s : CStr) {a : UInt8} (ha : a < 0x80) (rest : List UInt8) :
    Utf8.decode (s.flatMap escapeByte ++ a :: rest) =
      (Utf8.decode s).flatMap escapeChar ++ a.toNat :: Utf8.decode rest :=
  decodeFrom_escape (show Utf8.State.start.Ok from trivial) s ha rest

end Anticheat
