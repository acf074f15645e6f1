import Anticheat.Daemon.ResolveRuns

/-!
# Reports under every behaviour of the network

The server may be slow, refuse, answer nonsense or not exist, and every call of the system may
fail.  What a report must not do to the daemon in any of these cases is to leave a socket or a
child behind, to keep it waiting, or to send something that looks like a request and is not.

The daemon does not ignore SIGPIPE.  Where it was not told to by the process that started it, a
server that closes the connection in the middle of a request can end it; what has gone out by then
is described as well.

Main results:

- Theorem {lit}`wp_acConnectTimeout`: a connection is waited for as long as the timeout at most.
- Theorem {lit}`wp_writeLoop`: what is written is a front part of the request.
- Theorem {lit}`reports_leave_nothing_open`: all reports of a daemon.
-/

namespace Anticheat

open Foundation

namespace Sys

/-! ## Connections -/

/-- A socket after it has been tried to connect it: if that went well it is connected, and blocks
unless it was refused to set its flags back. -/
def Os.Tried (s s' : Os) (fd : Fd) (conn : Nat) (snd rcv : Timeo) (ok : Bool) (most : Int) : Prop :=
  ∃ phase flags, (s.setFd fd (some ⟨.socket conn phase snd rcv, flags⟩)).Passed s' most ∧
    (ok = true → phase = .connected ∧ (s'.setflRefused = false → flags &&& oNonblock = 0))

section Connect

variable {conn : Nat} {snd rcv : Timeo} {D : Os → Prop}

theorem wp_restored {s t : Os} {fd : Fd} {phase : SocketPhase} {flags flags' : BitVec 32}
    {ok : Bool} {most : Int}
    (h : (s.setFd fd (some ⟨.socket conn phase snd rcv, flags'⟩)).Passed t most)
    (hok : ok = true → phase = .connected) (hflags : flags &&& oNonblock = 0) :
    machine.wp (restored fd flags ok) (fun r s' => s.Tried s' fd conn snd rcv r most) D t := by
  apply wp_bind.2
  apply wp_setfl h.fds_at
  · refine ⟨phase, flags, ?_, fun hr => ⟨hok hr, fun _ => hflags⟩⟩
    have hset := h.setFd fd (some ⟨.socket conn phase snd rcv, flags⟩)
    rw [Os.setFd_setFd] at hset
    exact hset
  · exact ⟨phase, flags', h.refuse, fun hr => ⟨hok hr, fun hrefused => Bool.noConfusion hrefused⟩⟩

theorem or_nonblock (flags : BitVec 32) : (flags ||| oNonblock) &&& oNonblock ≠ 0 := by
  intro h
  have hbit := congrArg (fun b : BitVec 32 => b.getLsbD 11) h
  simp [oNonblock] at hbit

/-- A connection is waited for as long as the timeout at most. -/
theorem wp_acConnectTimeout {s : Os} {fd : Fd} {addr : List UInt8} {timeoutSec : Nat}
    {flags : BitVec 32} (htimeout : timeoutSec * 1000 < 2 ^ 31)
    (hfd : s.fds fd = some ⟨.socket conn .fresh snd rcv, flags⟩)
    (hflags : flags &&& oNonblock = 0) :
    machine.wp (acConnectTimeout fd addr timeoutSec)
      (fun ok s' => s.Tried s' fd conn snd rcv ok (timeoutSec * 1000000000)) D s := by
  have hms : toCInt (timeoutSec * 1000) = timeoutSec * 1000 :=
    toCInt_of_lt (by omega) (by omega)
  have hhere : (s.setFd fd (some ⟨.socket conn .fresh snd rcv, flags⟩)).Passed s
      (timeoutSec * 1000000000) := by
    rw [Os.setFd_of_fds hfd]
    exact (Os.Passed.refl s).mono (by omega)
  have hset (phase : SocketPhase) (flags' : BitVec 32) :
      (s.setFd fd (some ⟨.socket conn phase snd rcv, flags'⟩)).Passed
        (s.setFd fd (some ⟨.socket conn phase snd rcv, flags'⟩)) (timeoutSec * 1000000000) :=
    (Os.Passed.refl _).mono (by omega)
  apply wp_bind.2
  apply wp_getfl hfd
  · exact ⟨.fresh, flags, hhere, fun h => Bool.noConfusion h⟩
  · apply wp_bind.2
    apply wp_setfl hfd
    · apply wp_bind.2
      apply wp_connect (Os.setFd_fds s fd _) (or_nonblock flags)
      · rw [Os.setFd_setFd]
        exact wp_restored (hset .connected _) (fun _ => rfl) hflags
      · rw [Os.setFd_setFd]
        apply wp_bind.2
        apply wp_poll_socket (Os.setFd_fds s fd _) (by omega)
        intro rc ns hns hmost
        rw [Os.setFd_clock, Os.setFd_waited]
        have hwait : (s.setFd fd (some ⟨.socket conn .connecting snd rcv,
            flags ||| oNonblock⟩)).Passed (((s.setFd fd (some ⟨.socket conn .connecting snd rcv,
              flags ||| oNonblock⟩)).hear [.polled rc]).later (s.clock + ns) (s.waited + ns))
            (timeoutSec * 1000000000) := by
          apply ((hset .connecting (flags ||| oNonblock)).hear _).later
          rw [Os.setFd_waited]
          omega
        by_cases hrc : rc ≤ 0
        · rw [if_pos hrc]
          exact wp_restored hwait (fun h => Bool.noConfusion h) hflags
        · rw [if_neg hrc]
          apply wp_bind.2
          apply wp_soError hwait.fds_at
          · have hconnected := hwait.setFd fd
              (some ⟨.socket conn .connected snd rcv, flags ||| oNonblock⟩)
            rw [Os.setFd_setFd] at hconnected
            exact wp_restored hconnected (fun _ => rfl) hflags
          · intro r hr
            refine wp_restored hwait (fun h => ?_) hflags
            exact absurd (by simpa using h) hr
      · exact wp_restored (hset .fresh _) (fun h => Bool.noConfusion h) hflags
    · exact ⟨.fresh, flags, hhere.refuse, fun h => Bool.noConfusion h⟩

end Connect

/-- There is a new connection on a descriptor that was free, and its timeouts have been asked
for. -/
structure Os.Connected (s s' : Os) (fd : Fd) (conn : Nat) (most : Int) : Prop where
  free : s.fds fd = none
  new : s.conns ≤ conn
  counted : conn < s'.conns
  passed : ∃ snd rcv flags, snd ≠ .unset ∧ rcv ≠ .unset ∧
    (s.setFd fd (some ⟨.socket conn .connected snd rcv, flags⟩)).Passed s' most ∧
    (s'.setflRefused = false → flags &&& oNonblock = 0)

theorem Os.Connected.timed {s s' : Os} {fd : Fd} {conn : Nat} {most : Int}
    (h : s.Connected s' fd conn most) : s'.Timed fd := by
  rcases h.passed with ⟨snd, rcv, flags, hsnd, hrcv, hpassed, hflags⟩
  exact ⟨conn, snd, rcv, flags, hpassed.fds_at, hsnd, hrcv, hflags⟩

theorem Os.Passed.connected {s s' s'' : Os} {fd : Fd} {conn : Nat} {m n : Int}
    (h : s.Passed s' m) (h' : s'.Connected s'' fd conn n) : s.Connected s'' fd conn (m + n) where
  free := by
    rw [← h.fds]
    exact h'.free
  new := h.conns.trans h'.new
  counted := h'.counted
  passed := by
    rcases h'.passed with ⟨snd, rcv, flags, hsnd, hrcv, hpassed, hflags⟩
    exact ⟨snd, rcv, flags, hsnd, hrcv, (h.setFd fd _).trans hpassed, hflags⟩

/-- What has come of the addresses: a connection, or nothing. -/
def Os.ConnectsTo (s s' : Os) (most : Int) : Option Fd → Prop
  | none => s.Passed s' most
  | some fd => ∃ conn, s.Connected s' fd conn most

theorem Os.Passed.connectsTo {s s' s'' : Os} {m n : Int} {r : Option Fd} (h : s.Passed s' m)
    (h' : s'.ConnectsTo s'' n r) : s.ConnectsTo s'' (m + n) r := by
  cases r with
  | none => exact h.trans h'
  | some fd =>
      rcases h' with ⟨conn, hconnected⟩
      exact ⟨conn, h.connected hconnected⟩

/-- The socket that is tried for one address. -/
theorem Os.Tried.of_numbered {s s' : Os} {fd : Fd} {conn : Nat} {snd rcv : Timeo} {ok : Bool}
    {most : Int} {d : Option Descriptor}
    (h : (s.numbered.setFd fd d).Tried s' fd conn snd rcv ok most) :
    s.Tried s' fd conn snd rcv ok most ∧ s.conns < s'.conns := by
  rcases h with ⟨phase, flags, hpassed, hok⟩
  rw [Os.setFd_setFd] at hpassed
  have hnumbered := ((Os.Passed.numbered s).setFd fd _).trans hpassed
  exact ⟨⟨phase, flags, hnumbered.mono (by omega), hok⟩, hpassed.conns⟩

/-- Every address costs the timeout at most, and a socket that did not connect is closed. -/
theorem wp_connectLoop {s : Os} {addrs : List (List UInt8)} {D : Os → Prop} :
    machine.wp (connectLoop addrs)
      (fun r s' => s.ConnectsTo s' (addrs.length * (acReportTimeoutSec * 1000000000)) r) D s := by
  induction addrs generalizing s with
  | nil => exact (Os.Passed.refl s).mono (by simp)
  | cons a addrs ih =>
      have hcost : (((a :: addrs).length : Nat) : Int) * (acReportTimeoutSec * 1000000000) =
          acReportTimeoutSec * 1000000000 + addrs.length * (acReportTimeoutSec * 1000000000) := by
        rw [List.length_cons]
        push_cast
        ring
      rw [hcost]
      -- whatever failed with this address, the loop goes on from a process as it was before
      have hrest {s' : Os} (h : s.Passed s' (acReportTimeoutSec * 1000000000)) :
          machine.wp (connectLoop addrs) (fun r s'' => s.ConnectsTo s''
            (acReportTimeoutSec * 1000000000 +
              addrs.length * (acReportTimeoutSec * 1000000000)) r) D s' :=
        wp_mono ih (fun r s'' hr => h.connectsTo hr) fun _ => id
      apply wp_bind.2
      apply wp_socket
      · exact hrest ((Os.Passed.refl s).mono (by decide))
      · intro fd hfd
        apply wp_bind.2
        apply wp_setsockopt (Os.setFd_fds _ fd _)
        intro sndGranted
        apply wp_bind.2
        apply wp_setsockopt (Os.setFd_fds _ fd _)
        intro rcvGranted
        rw [Os.setFd_setFd, Os.setFd_setFd]
        apply wp_bind_of (wp_acConnectTimeout (by decide) (Os.setFd_fds _ fd _) (by decide)) ?_
          fun _ => id
        intro ok s' htried
        rcases htried.of_numbered with ⟨⟨phase, flags, hpassed, hok⟩, hconns⟩
        cases ok with
        | true =>
            rcases hok rfl with ⟨rfl, hflags⟩
            have hmost := hpassed.mono (show (acReportTimeoutSec * 1000000000 : Int) ≤
              acReportTimeoutSec * 1000000000 + addrs.length * (acReportTimeoutSec * 1000000000) by
                rw [acReportTimeoutSec]; omega)
            exact ⟨s.conns, hfd, Nat.le_refl _, hconns, _, _, flags,
              Timeo.asked_ne_unset sndGranted, Timeo.asked_ne_unset rcvGranted, hmost, hflags⟩
        | false =>
            apply wp_bind.2
            apply wp_close hpassed.fds_at (by simp)
            exact hrest (hpassed.closed hfd)

/-! ## The report -/

theorem Os.sendOn_nil (s : Os) (conn : Nat) : s.sendOn conn [] = s := by
  simp [Os.sendOn]

theorem Os.sendOn_sendOn (s : Os) (conn : Nat) (pieces more : List (List UInt8)) :
    (s.sendOn conn pieces).sendOn conn more = s.sendOn conn (pieces ++ more) := by
  simp [Os.sendOn]

/-- The request up to the byte `n` has gone out on the connection.  The result of the loop is the
number of bytes, unless it is an error. -/
def WritesUpTo (s s' : Os) (conn : Nat) (req : CStr) (sent : Nat) (r : Except CStr Nat) : Prop :=
  ∃ pieces n, s' = s.sendOn conn pieces ∧ sent ≤ n ∧ n ≤ req.length ∧
    pieces.flatten = (req.take n).drop sent ∧ ∀ k, r = .ok k → k = n

theorem WritesUpTo.refl {s : Os} {conn sent : Nat} {req : CStr} {r : Except CStr Nat}
    (hsent : sent ≤ req.length) (hr : ∀ k, r = .ok k → k = sent) :
    WritesUpTo s s conn req sent r :=
  ⟨[], sent, (s.sendOn_nil conn).symm, Nat.le_refl _, hsent, by simp, hr⟩

theorem WritesUpTo.write {s s' : Os} {conn sent n : Nat} {req : CStr} {r : Except CStr Nat}
    (h : WritesUpTo (s.sendOn conn [(req.drop sent).take n]) s' conn req (sent + n) r) :
    WritesUpTo s s' conn req sent r := by
  rcases h with ⟨pieces, m, rfl, hm, hlength, hflatten, hr⟩
  refine ⟨(req.drop sent).take n :: pieces, m, s.sendOn_sendOn conn _ pieces, by omega, hlength, ?_,
    hr⟩
  calc
    ((req.drop sent).take n :: pieces).flatten =
        (req.drop sent).take n ++ (req.take m).drop (sent + n) := by
      rw [List.flatten_cons, hflatten]
    _ = (req.drop sent).take n ++ ((req.drop sent).drop n).take (m - (sent + n)) := by
      rw [List.drop_take, List.drop_drop]
    _ = (req.drop sent).take (n + (m - (sent + n))) := by
      rw [List.take_add]
    _ = (req.take m).drop sent := by
      rw [List.drop_take]
      congr 1
      omega

section Send

variable {snd rcv : Timeo} {flags : BitVec 32} {D : Os → Prop}

/-- The loop writes the request from the front, and stops early only with an error or without
progress.  A signal that ends the daemon is as good as an error. -/
theorem wp_writeLoop {s : Os} {fd : Fd} {conn fuel sent : Nat} {req : CStr}
    (hfd : s.fds fd = some ⟨.socket conn .connected snd rcv, flags⟩) (htimed : s.Timed fd)
    (hsent : sent ≤ req.length) (hfuel : req.length - sent < fuel)
    (hkill : s.sigpipeIgnored = false →
      ∀ s', WritesUpTo s s' conn req sent (.error []) → D s') :
    machine.wp (writeLoop fd req fuel sent) (fun r s' => WritesUpTo s s' conn req sent r) D s := by
  induction fuel generalizing s sent with
  | zero => exact absurd hfuel (Nat.not_lt_zero _)
  | succ fuel ih =>
      have hhere {s : Os} : WritesUpTo s s conn req sent (.ok sent) :=
        .refl hsent fun k hk => (Except.ok.inj hk).symm
      have hfailed (text : CStr) : WritesUpTo s s conn req sent (.error text) :=
        .refl hsent fun k hk => by cases hk
      unfold writeLoop
      by_cases hmore : sent < req.length
      · rw [if_pos hmore]
        have hbytes : req.drop sent ≠ [] := by
          simp [hmore]
        apply wp_bind.2
        apply wp_write_socket htimed hfd hbytes
        · intro hignored
          exact hkill hignored s (hfailed [])
        · exact hfailed
        · intro n hn
          rw [List.length_drop] at hn
          -- a write of nothing ends the loop; any other leaves less to write than there is fuel
          cases n with
          | zero =>
              apply WritesUpTo.write
              exact hhere
          | succ n =>
              refine wp_mono (ih hfd htimed (by omega) (by omega) fun hignored s' hs' =>
                hkill hignored s' hs'.write) ?_ fun _ => id
              intro r s' hr
              exact hr.write
      · rw [if_neg hmore]
        exact hhere

theorem Os.print_nil (s : Os) : s.print [] = s := by
  simp [Os.print]

/-- What has come of the request on a connection, which has been closed: a front part of it has
gone out, and nothing of one that is too long.  Unless a line says something else, all of it
has. -/
def SendsOn (s s' : Os) (fd : Fd) (conn : Nat) (req : CStr) : Prop :=
  ∃ pieces messages, s' = ((s.setFd fd none).sendOn conn pieces).print messages ∧
    messages.length ≤ 1 ∧ pieces.flatten <+: req ∧ (2048 ≤ req.length → pieces = []) ∧
    (messages = [] → req.length < 2048 ∧ pieces.flatten = req)

theorem wp_readResponse {s : Os} {fd : Fd} (htimed : s.Timed fd)
    (hkill : s.sigpipeIgnored = false → D s) :
    machine.wp (readResponse fd)
      (fun _ s' => ∃ messages : List CStr, messages.length ≤ 1 ∧ s' = s.print messages) D s := by
  have hsilent : ∃ messages : List CStr, messages.length ≤ 1 ∧ s = s.print messages :=
    ⟨[], Nat.zero_le _, s.print_nil.symm⟩
  apply wp_bind.2
  apply wp_read_socket htimed (by decide)
  intro r
  match r with
  | none => exact hsilent
  | some [] => exact hsilent
  | some (b :: bytes) =>
      dsimp only
      split
      · apply wp_fprintf hkill
        exact ⟨[_], Nat.le_refl _, rfl⟩
      · exact hsilent

/-- The ways out with a line. -/
theorem wp_fprintf_close {s : Os} {fd : Fd} {conn : Nat} {req : CStr}
    (pieces : List (List UInt8)) (text : CStr)
    (hfd : s.fds fd = some ⟨.socket conn .connected snd rcv, flags⟩)
    (hfront : pieces.flatten <+: req) (hlarge : 2048 ≤ req.length → pieces = [])
    (hkill : s.sigpipeIgnored = false → D (s.sendOn conn pieces)) :
    machine.wp (do fprintf text; close fd) (fun _ s' => SendsOn s s' fd conn req) D
      (s.sendOn conn pieces) := by
  apply wp_bind.2
  apply wp_fprintf hkill
  apply wp_close (show ((s.sendOn conn pieces).print [text]).fds fd = _ from hfd) (by simp)
  exact ⟨pieces, [text], rfl, Nat.le_refl _, hfront, hlarge, by simp⟩

theorem wp_sendRequest {s : Os} {fd : Fd} {conn : Nat} {req : CStr}
    (hfd : s.fds fd = some ⟨.socket conn .connected snd rcv, flags⟩) (htimed : s.Timed fd)
    (hkill : s.sigpipeIgnored = false → ∀ pieces, pieces.flatten <+: req →
      (2048 ≤ req.length → pieces = []) → D (s.sendOn conn pieces)) :
    machine.wp (sendRequest fd req) (fun _ s' => SendsOn s s' fd conn req) D s := by
  unfold sendRequest
  by_cases hlarge : req.length ≥ 2048
  · rw [if_pos hlarge]
    have hclose (text : CStr) : machine.wp (do fprintf text; close fd)
        (fun _ s' => SendsOn s s' fd conn req) D (s.sendOn conn []) :=
      wp_fprintf_close [] text hfd List.nil_prefix (fun _ => rfl) fun hignored =>
        hkill hignored [] List.nil_prefix fun _ => rfl
    rw [Os.sendOn_nil] at hclose
    exact hclose _
  · rw [if_neg hlarge]
    have hfront {pieces : List (List UInt8)} {n : Nat}
        (hflatten : pieces.flatten = (req.take n).drop 0) : pieces.flatten <+: req := by
      rw [hflatten, List.drop_zero]
      exact List.take_prefix n req
    have hsmall (pieces : List (List UInt8)) (h : 2048 ≤ req.length) : pieces = [] :=
      absurd h hlarge
    apply wp_bind_of (wp_writeLoop hfd htimed (Nat.zero_le _) (by omega) ?_) ?_ fun _ => id
    · rintro hignored s' ⟨pieces, n, rfl, -, hn, hflatten, hr⟩
      exact hkill hignored pieces (hfront hflatten) (hsmall pieces)
    rintro r s' ⟨pieces, n, rfl, -, hn, hflatten, hr⟩
    have hended (hignored : s.sigpipeIgnored = false) : D (s.sendOn conn pieces) :=
      hkill hignored pieces (hfront hflatten) (hsmall pieces)
    cases r with
    | error text =>
        exact wp_fprintf_close pieces _ hfd (hfront hflatten) (hsmall pieces) hended
    | ok sent =>
        have hsent := hr sent rfl
        dsimp only
        by_cases hshort : sent ≠ req.length
        · rw [if_pos hshort]
          exact wp_fprintf_close pieces _ hfd (hfront hflatten) (hsmall pieces) hended
        · rw [if_neg hshort]
          apply wp_bind_of (wp_readResponse (show (s.sendOn conn pieces).Timed fd from htimed)
            hended) ?_ fun _ => id
          rintro _ s'' ⟨messages, hcount, rfl⟩
          apply wp_close (show ((s.sendOn conn pieces).print messages).fds fd = _ from hfd)
            (by simp)
          refine ⟨pieces, messages, rfl, hcount, hfront hflatten, hsmall pieces,
            fun _ => ⟨by omega, ?_⟩⟩
          rw [hflatten, List.drop_zero, ← hsent, not_not.1 hshort, List.take_length]

end Send

/-- The report is to go to a server. -/
def Os.Configured (s : Os) : Prop :=
  (∃ u url, s.url = some (u :: url)) ∧ ∃ k key, s.key = some (k :: key)

/-- What has become of a report: what has gone out on which connection, and what was printed. -/
structure Transmission where
  conn : Nat
  pieces : List (List UInt8)
  messages : List CStr

/-- What has gone out is a front part of the request.  It is all of it unless the report is not
configured or a line was printed. -/
def Transmission.Carries (s : Os) (r : AcReport) (t : Transmission) : Prop :=
  t.messages.length ≤ 1 ∧
    ∃ env : ReportEnv, env.url = s.url ∧ env.key = s.key ∧
      t.pieces.flatten <+: (Anticheat.acReport env r).getD [] ∧
      (t.messages = [] → s.Configured → Anticheat.acReport env r = some t.pieces.flatten)

/-- A report is being dealt with: this has been sent and printed, on a connection that is new. -/
structure Underway (s s' : Os) (t : Transmission) : Prop where
  url : s'.url = s.url
  key : s'.key = s.key
  sigpipe : s'.sigpipeIgnored = s.sigpipeIgnored
  children : s'.children = s.children
  waited : s'.waited ≤ s.waited + 27000999999
  conns : s.conns ≤ s'.conns
  new : t.pieces ≠ [] → s.conns ≤ t.conn ∧ t.conn < s'.conns
  wire : s'.wire = s.wire ++ t.pieces.map fun piece => (t.conn, piece)
  stderr : s'.stderr = s.stderr ++ t.messages

/-- The process is as it was, apart from the time that has passed and what was sent and printed. -/
structure Reported (s s' : Os) (t : Transmission) : Prop extends Underway s s' t where
  fds : s'.fds = s.fds

/-- A report has been dealt with. -/
def Reports (r : AcReport) (s s' : Os) : Prop :=
  ∃ t : Transmission, Reported s s' t ∧ t.Carries s r

/-- A signal has ended the daemon while it dealt with a report.  A front part of the request has
gone out, and no line says what has become of it. -/
def Interrupted (r : AcReport) (s s' : Os) : Prop :=
  s.sigpipeIgnored = false ∧
    ∃ t : Transmission, Underway s s' t ∧ t.messages = [] ∧
      ∃ env : ReportEnv, env.url = s.url ∧ env.key = s.key ∧
        t.pieces.flatten <+: (Anticheat.acReport env r).getD []

/-- Time has passed, and then this was sent and printed. -/
theorem Os.Passed.reported {s s' : Os} {m : Int} (h : s.Passed s' m) (hm : m ≤ 27000999999)
    (t : Transmission) (hnew : t.pieces ≠ [] → s.conns ≤ t.conn ∧ t.conn < s'.conns) :
    Reported s ((s'.sendOn t.conn t.pieces).print t.messages) t where
  url := h.url
  key := h.key
  sigpipe := h.sigpipe
  fds := h.fds
  children := h.children
  waited := (h.mono hm).waited
  conns := h.conns
  new := hnew
  wire := by
    rw [← h.wire]
    rfl
  stderr := by
    rw [← h.stderr]
    rfl

/-- Whether a descriptor is still open makes no difference. -/
theorem Underway.of_setFd {s s' : Os} {t : Transmission} {fd : Fd} {d : Option Descriptor}
    (h : Underway s (s'.setFd fd d) t) : Underway s s' t :=
  { h with }

/-- Nothing was sent, and a line says so or the report is not configured. -/
theorem Os.Passed.reports {s s' : Os} {m : Int} {r : AcReport} {messages : List CStr}
    (h : s.Passed s' m) (hm : m ≤ 27000999999) (honce : messages.length ≤ 1)
    (hsaid : messages = [] → ¬s.Configured) : Reports r s (s'.print messages) := by
  have hreported := h.reported hm ⟨0, [], messages⟩ fun hne => absurd rfl hne
  rw [Os.sendOn_nil] at hreported
  refine ⟨_, hreported, honce, ⟨s.url, s.key, none, none, 0⟩, rfl, rfl, List.nil_prefix, ?_⟩
  intro hnone hconf
  exact absurd hconf (hsaid hnone)

/-- The daemon was ended before there was a connection. -/
theorem Os.Passed.interrupted {s s' : Os} {m : Int} {r : AcReport} (h : s.Passed s' m)
    (hm : m ≤ 27000999999) (hignored : s'.sigpipeIgnored = false) : Interrupted r s s' := by
  have hreported := h.reported hm ⟨0, [], []⟩ fun hne => absurd rfl hne
  rw [Os.sendOn_nil, Os.print_nil] at hreported
  exact ⟨h.sigpipe.symm.trans hignored, _, hreported.toUnderway, rfl,
    ⟨s.url, s.key, none, none, 0⟩, rfl, rfl, List.nil_prefix⟩

section Request

variable {s s' : Os} {fd : Fd} {conn : Nat} {m : Int} {r : AcReport} {req : CStr} {env : ReportEnv}

theorem front_of_request {pieces : List (List UInt8)}
    (hreq : Anticheat.acReport env r = if req.length ≥ 2048 then none else some req)
    (hfront : pieces.flatten <+: req) (hlarge : 2048 ≤ req.length → pieces = []) :
    pieces.flatten <+: (Anticheat.acReport env r).getD [] := by
  rw [hreq]
  split
  · rename_i h
    rw [hlarge h]
    exact List.nil_prefix
  · exact hfront

/-- A connection was made, and used for the request. -/
theorem SendsOn.reports {s'' : Os} (hsend : SendsOn s' s'' fd conn req)
    (hconnected : s.Connected s' fd conn m) (hm : m ≤ 27000999999) (hurl : env.url = s.url)
    (hkey : env.key = s.key)
    (hreq : Anticheat.acReport env r = if req.length ≥ 2048 then none else some req) :
    Reports r s s'' := by
  rcases hsend with ⟨pieces, messages, rfl, honce, hfront, hlarge, hall⟩
  rcases hconnected.passed with ⟨snd, rcv, flags, -, -, hpassed, -⟩
  have hreported := (hpassed.closed hconnected.free).reported hm ⟨conn, pieces, messages⟩
    fun _ => ⟨hconnected.new, hconnected.counted⟩
  refine ⟨_, hreported, honce, env, hurl, hkey, front_of_request hreq hfront hlarge, ?_⟩
  intro hnone _
  rcases hall hnone with ⟨hsmall, hflatten⟩
  rw [hreq, if_neg (by omega), hflatten]

/-- The daemon was ended while it used a connection. -/
theorem Os.Connected.interrupted {pieces : List (List UInt8)}
    (hconnected : s.Connected s' fd conn m) (hm : m ≤ 27000999999)
    (hignored : s'.sigpipeIgnored = false) (hurl : env.url = s.url) (hkey : env.key = s.key)
    (hreq : Anticheat.acReport env r = if req.length ≥ 2048 then none else some req)
    (hfront : pieces.flatten <+: req) (hlarge : 2048 ≤ req.length → pieces = []) :
    Interrupted r s (s'.sendOn conn pieces) := by
  rcases hconnected.passed with ⟨snd, rcv, flags, -, -, hpassed, -⟩
  have hreported := (hpassed.closed hconnected.free).reported hm ⟨conn, pieces, []⟩
    fun _ => ⟨hconnected.new, hconnected.counted⟩
  rw [Os.print_nil] at hreported
  have hunderway : Underway s ((s'.sendOn conn pieces).setFd fd none) ⟨conn, pieces, []⟩ :=
    hreported.toUnderway
  exact ⟨hpassed.sigpipe.symm.trans hignored, _, hunderway.of_setFd, rfl, env, hurl, hkey,
    front_of_request hreq hfront hlarge⟩

end Request

theorem acReport_of_host (env : ReportEnv) (r : AcReport) {u k : UInt8} {url key host : CStr}
    (hurl : env.url = some (u :: url)) (hkey : env.key = some (k :: key))
    (hhost : hostOf (CStr.bounded 256 (u :: url)) = some host) :
    Anticheat.acReport env r =
      let req := reportRequest host (k :: key) (reportBody
        (Anticheat.acReportClientId env.machineId env.hostname 128) r.eventType r.detail env.now)
      if req.length ≥ 2048 then none else some req := by
  simp only [Anticheat.acReport, hurl, hkey, hhost]

theorem wp_reportAt {s : Os} {buf : CharArray acResolvedAddrSize} {r : AcReport}
    {u k : UInt8} {url key host port : CStr} (hurl : s.url = some (u :: url))
    (hkey : s.key = some (k :: key)) (hhost : hostOf (CStr.bounded 256 (u :: url)) = some host) :
    machine.wp (reportAt buf r host port (k :: key)) (fun _ s' => Reports r s s')
      (Interrupted r s) s := by
  -- the ways out before there is a connection
  have hsaid {s' : Os} {m : Int} {text : CStr} (h : s.Passed s' m) (hm : m ≤ 27000999999) :
      machine.wp (fprintf text) (fun _ s' => Reports r s s') (Interrupted r s) s' := by
    apply wp_fprintf (h.interrupted hm)
    exact h.reports hm (Nat.le_refl _) (by simp)
  apply wp_bind.2
  apply wp_acReportClientId
  intro machineId hostname
  apply wp_bind.2
  apply wp_time
  intro now
  apply wp_bind_of (wp_acResolveTimeout (by decide)) ?_ fun _ => id
  rintro addrs s₁ ⟨hpassed, heard, -, hresolves⟩
  match addrs, hresolves with
  | none, _ => exact hsaid hpassed (by decide)
  | some [], _ => exact hsaid hpassed (by decide)
  | some (a :: addrs), hresolves =>
      have hcount : (((a :: addrs).length : Nat) : Int) ≤ 8 := Int.ofNat_le.2 hresolves.length_le
      have hmost : (acReportTimeoutSec * 1000000000 + 999999 : Int) +
          (a :: addrs).length * (acReportTimeoutSec * 1000000000) ≤ 27000999999 := by
        rw [acReportTimeoutSec]
        push_cast
        omega
      apply wp_bind_of wp_connectLoop ?_ fun _ => id
      intro fd s₂ hconnects
      cases fd with
      | none => exact hsaid (hpassed.trans hconnects) hmost
      | some fd =>
          rcases hconnects with ⟨conn, hconnected⟩
          rcases hconnected.passed with ⟨snd, rcv, flags, -, -, hsocket, -⟩
          have hwhole := hpassed.connected hconnected
          have hreq := acReport_of_host ⟨s.url, s.key, machineId, hostname, now⟩ r hurl hkey hhost
          refine wp_mono (wp_sendRequest hsocket.fds_at hconnected.timed ?_) ?_ fun _ => id
          · intro hignored pieces hfront hlarge
            exact hwhole.interrupted hmost hignored rfl rfl hreq hfront hlarge
          · intro _ s₃ hsend
            exact hsend.reports hwhole hmost rfl rfl hreq

theorem wp_reportTo {s : Os} {buf : CharArray acResolvedAddrSize} {r : AcReport} {u k : UInt8}
    {url key : CStr} (hurl : s.url = some (u :: url)) (hkey : s.key = some (k :: key)) :
    machine.wp (reportTo buf r (u :: url) (k :: key)) (fun _ s' => Reports r s s')
      (Interrupted r s) s := by
  unfold reportTo
  split
  · rename_i host port hhost hport
    exact wp_reportAt hurl hkey hhost
  · have hhere := Os.Passed.refl s
    apply wp_fprintf (hhere.interrupted (by decide))
    exact hhere.reports (by decide) (Nat.le_refl _) (by simp)

/-- The report as a whole. -/
theorem wp_acReport {s : Os} {buf : CharArray acResolvedAddrSize} {r : AcReport} :
    machine.wp (acReport buf r) (fun _ s' => Reports r s s') (Interrupted r s) s := by
  apply wp_bind.2
  apply wp_getenv
  apply wp_bind.2
  apply wp_getenv
  split
  · rename_i u url k key hurl hkey
    exact wp_reportTo hurl hkey
  · rename_i hunset
    have hsilent : Reports r s (s.print []) := by
      apply (Os.Passed.refl s).reports (by decide) (Nat.zero_le _)
      rintro - ⟨⟨u, url, hurl⟩, k, key, hkey⟩
      exact hunset u url k key hurl hkey
    rw [Os.print_nil] at hsilent
    exact hsilent

/-! ## All reports of a daemon -/

theorem Transmission.Carries.congr {s s' : Os} {r : AcReport} {t : Transmission}
    (h : t.Carries s' r) (hurl : s'.url = s.url) (hkey : s'.key = s.key) : t.Carries s r := by
  rcases h with ⟨honce, env, henvUrl, henvKey, hfront, hall⟩
  refine ⟨honce, env, henvUrl.trans hurl, henvKey.trans hkey, hfront, fun hnone hconf => ?_⟩
  apply hall hnone
  rw [Os.Configured, hurl, hkey]
  exact hconf

/-- What has become of reports that were sent one after the other.  Each has a connection of its
own. -/
structure ReportsSent (reports : List AcReport) (s s' : Os) (ts : List Transmission) : Prop where
  url : s'.url = s.url
  key : s'.key = s.key
  sigpipe : s'.sigpipeIgnored = s.sigpipeIgnored
  fds : s'.fds = s.fds
  children : s'.children = s.children
  waited : s'.waited ≤ s.waited + reports.length * 27000999999
  conns : s.conns ≤ s'.conns
  wire : s'.wire = s.wire ++ ts.flatMap fun t => t.pieces.map fun piece => (t.conn, piece)
  stderr : s'.stderr = s.stderr ++ ts.flatMap Transmission.messages
  carries : List.Forall₂ (fun r t => t.Carries s r) reports ts
  new : ∀ t ∈ ts, t.pieces ≠ [] → s.conns ≤ t.conn ∧ t.conn < s'.conns
  separate : ts.Pairwise fun t t' => t.pieces ≠ [] → t'.pieces ≠ [] → t.conn < t'.conn

theorem ReportsSent.nil (s : Os) : ReportsSent [] s s [] where
  url := rfl
  key := rfl
  sigpipe := rfl
  fds := rfl
  children := rfl
  waited := by simp
  conns := Nat.le_refl _
  wire := (List.append_nil _).symm
  stderr := (List.append_nil _).symm
  carries := .nil
  new := by simp
  separate := .nil

theorem ReportsSent.cons {s s' s'' : Os} {r : AcReport} {reports : List AcReport}
    {t : Transmission} {ts : List Transmission} (h : Reported s s' t) (hcarries : t.Carries s r)
    (hrest : ReportsSent reports s' s'' ts) : ReportsSent (r :: reports) s s'' (t :: ts) where
  url := hrest.url.trans h.url
  key := hrest.key.trans h.key
  sigpipe := hrest.sigpipe.trans h.sigpipe
  fds := hrest.fds.trans h.fds
  children := hrest.children.trans h.children
  waited := by
    have hfirst := h.waited
    have hthen := hrest.waited
    rw [List.length_cons]
    push_cast
    omega
  conns := h.conns.trans hrest.conns
  wire := by
    rw [hrest.wire, h.wire, List.flatMap_cons, List.append_assoc]
  stderr := by
    rw [hrest.stderr, h.stderr, List.flatMap_cons, List.append_assoc]
  carries := .cons hcarries (hrest.carries.imp fun _ _ hr => hr.congr h.url h.key)
  new := by
    intro t' ht' hne
    rcases List.mem_cons.1 ht' with rfl | ht'
    · exact ⟨(h.new hne).1, (h.new hne).2.trans_le hrest.conns⟩
    · exact ⟨h.conns.trans (hrest.new t' ht' hne).1, (hrest.new t' ht' hne).2⟩
  separate := by
    refine List.pairwise_cons.2 ⟨fun t' ht' hne hne' => ?_, hrest.separate⟩
    exact (h.new hne).2.trans_le (hrest.new t' ht' hne').1

/-- The daemon was ended in one of the reports, after those before it had been dealt with. -/
def ReportsCut (reports : List AcReport) (s s' : Os) : Prop :=
  s.sigpipeIgnored = false ∧
    ∃ before r rest ts s₁, reports = before ++ r :: rest ∧ ReportsSent before s s₁ ts ∧
      Interrupted r s₁ s'

theorem Interrupted.cut {s s' : Os} {r : AcReport} (h : Interrupted r s s')
    (reports : List AcReport) : ReportsCut (r :: reports) s s' :=
  ⟨h.1, [], r, reports, [], s, rfl, .nil s, h⟩

theorem ReportsCut.cons {s s' s'' : Os} {r : AcReport} {reports : List AcReport}
    {t : Transmission} (h : Reported s s' t) (hcarries : t.Carries s r)
    (hrest : ReportsCut reports s' s'') : ReportsCut (r :: reports) s s'' := by
  rcases hrest with ⟨hignored, before, r', rest, ts, s₁, rfl, hsent, hcut⟩
  exact ⟨h.sigpipe.symm.trans hignored, r :: before, r', rest, t :: ts, s₁, rfl,
    .cons h hcarries hsent, hcut⟩

theorem wp_acReports {s : Os} {reports : List (CharArray acResolvedAddrSize × AcReport)} :
    machine.wp (acReports reports)
      (fun _ s' => ∃ ts, ReportsSent (reports.map Prod.snd) s s' ts)
      (ReportsCut (reports.map Prod.snd) s) s := by
  induction reports generalizing s with
  | nil => exact ⟨[], ReportsSent.nil s⟩
  | cons report reports ih =>
      apply wp_bind_of wp_acReport ?_ fun _ hcut => hcut.cut (reports.map Prod.snd)
      rintro _ s' ⟨t, hreported, hcarries⟩
      refine wp_mono ih ?_ fun _ hcut => hcut.cons hreported hcarries
      rintro _ s'' ⟨ts, hsent⟩
      exact ⟨t :: ts, .cons hreported hcarries hsent⟩

/-- Whatever the system, the resolver and the server do, a daemon that reports uses only what it
has open, waits for no child that is not its own and never without a bound, and asks for the
timeouts of a connection before it uses it.  After any number of reports it has the descriptors and
the children it had before, so that none is lost.  It has waited in `poll` for 27 seconds a report
at most.  Each report that went out has a connection of its own, which carries a front part of the
request, and nothing else; if it is not all of the request, a line says so.

If SIGPIPE is not ignored, the daemon can be ended while it deals with a report.  Then the reports
before it have been dealt with, and of this one a front part has gone out and no line says so. -/
theorem reports_leave_nothing_open (s : Os)
    (reports : List (CharArray acResolvedAddrSize × AcReport)) :
    machine.Correct (acReports reports) s
      (fun _ s' => ∃ ts, ReportsSent (reports.map Prod.snd) s s' ts)
      (ReportsCut (reports.map Prod.snd) s) :=
  Machine.correct_of_wp wp_acReports

end Sys

end Anticheat
