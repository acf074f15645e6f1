import Anticheat.Daemon.Syscalls

/-!
# Sending a report

`ac_report` with the functions it calls: `ac_report_client_id`, `ac_resolve_timeout` and
`ac_connect_timeout`, call by call.
-/

namespace Anticheat

open Foundation

namespace Sys

/-- `AC_REPORT_TIMEOUT_SEC` -/
def acReportTimeoutSec : Nat := 3

/-- `AC_RESOLVE_MAX` -/
def acResolveMax : Nat := 8

/-- The conversion `(int)` of a `long`. -/
def toCInt (x : Int) : Int :=
  (BitVec.ofInt 32 x).toInt

/-! ## The client -/

/-- The end of `ac_report_client_id`. -/
def hostClientId (outsz : Nat) : Prog CStr := do
  match ← gethostname outsz with
  | some (c :: s) => pure (c :: s)
  | _ => pure (CStr.bounded outsz (CStr.ascii "unknown"))

/-- `ac_report_client_id` after a line of the file has been read. -/
def lineClientId (f : Fd) (outsz : Nat) (line : Option CStr) : Prog CStr := do
  match line.map stripLineEnd with
  | some (c :: s) =>
      fclose f
      pure (c :: s)
  | _ =>
      fclose f
      hostClientId outsz

/-- `ac_report_client_id` -/
def acReportClientId (outsz : Nat) : Prog CStr := do
  match ← fopen (CStr.ascii "/etc/machine-id") with
  | none => hostClientId outsz
  | some f => lineClientId f outsz (← fgets f outsz)

/-! ## Addresses -/

/-- The loop of the child over the addresses. -/
def childWrites (wr : Fd) : List AddrInfo → Prog Unit
  | [] => pure ()
  | a :: infos =>
      if a.addr.length > sockaddrStorageSize then childWrites wr infos
      else do
        match ← write wr a.record with
        | .ok n => if n = acResolvedAddrSize then childWrites wr infos else pure ()
        | .error _ => pure ()

/-- `if (dev_fd >= 0) close(dev_fd)` -/
def closeDevice : Option Fd → Prog Unit
  | some devFd => close devFd
  | none => pure ()

/-- What the child writes about the result of `getaddrinfo`. -/
def childReports (wr : Fd) : Option (List AddrInfo) → Prog Unit
  | some infos => childWrites wr infos
  | none => pure ()

/-- The child of `ac_resolve_timeout`, up to its `_exit`. -/
def resolveChild (devFd : Option Fd) (rd wr : Fd) (host port : CStr) : Prog Unit := do
  close rd
  closeDevice devFd
  childReports wr (← getaddrinfo host port)
  close wr

/-- The variables of the parent's loop: what is stored in `out`, the buffer and the number of bytes
it has. -/
structure ResolveBuf where
  out : List (List UInt8)
  buf : CharArray acResolvedAddrSize
  filled : Nat

/-- The bytes that `read` has put behind those in the buffer. -/
def ResolveBuf.take (st : ResolveBuf) (bytes : List UInt8) : ResolveBuf :=
  let buf := st.buf.writeFrom st.filled bytes
  if st.filled + bytes.length = acResolvedAddrSize then ⟨st.out ++ [buf.slots], buf, 0⟩
  else ⟨st.out, buf, st.filled + bytes.length⟩

/-- The loop of the parent.  Every turn but the last reads a byte, so that the bytes for which
there is room are fuel enough. -/
def readRecords (rd : Fd) (max : Nat) (deadline : Timespec) :
    Nat → ResolveBuf → Prog (List (List UInt8))
  | 0, st => pure st.out
  | fuel + 1, st =>
      if st.out.length < max then do
        let now ← clockGettime
        if remainingMs deadline now ≤ 0 then pure st.out
        else if (← poll rd .pollin (toCInt (remainingMs deadline now))) ≤ 0 then pure st.out
        else
          match ← read rd (acResolvedAddrSize - st.filled) with
          | none | some [] => pure st.out
          | some (b :: bytes) => readRecords rd max deadline fuel (st.take (b :: bytes))
      else pure st.out

/-- `deadline.tv_sec += timeout_sec` -/
def deadlineAfter (start : Timespec) (timeoutSec : Nat) : Timespec where
  sec := start.sec + timeoutSec
  nsec := start.nsec

/-- The rest of `ac_resolve_timeout` in the parent, after `fork`.  `buf` is what the buffer holds
before it is used. -/
def resolveParent (buf : CharArray acResolvedAddrSize) (max timeoutSec : Nat) (rd wr : Fd)
    (pid : Pid) : Prog (List (List UInt8)) := do
  close wr
  let start ← clockGettime
  let out ← readRecords rd max (deadlineAfter start timeoutSec) (max * acResolvedAddrSize + 1)
    ⟨[], buf, 0⟩
  close rd
  kill pid
  waitpid pid
  pure out

/-- `ac_resolve_timeout`; `none` is the result -1. -/
def acResolveTimeout (buf : CharArray acResolvedAddrSize) (max timeoutSec : Nat) :
    Prog (Option (List (List UInt8))) := do
  match ← pipe with
  | none => pure none
  | some (rd, wr) =>
      match ← fork with
      | none => do
          close rd
          close wr
          pure none
      | some pid => do
          let out ← resolveParent buf max timeoutSec rd wr pid
          pure (some out)

/-! ## Connections -/

/-- The end of `ac_connect_timeout`.  The result of setting the flags back is not looked at. -/
def restored (fd : Fd) (flags : BitVec 32) (ok : Bool) : Prog Bool := do
  let _ ← setfl fd flags
  pure ok

/-- `ac_connect_timeout`; true is the result 0. -/
def acConnectTimeout (fd : Fd) (addr : List UInt8) (timeoutSec : Nat) : Prog Bool := do
  match ← getfl fd with
  | none => pure false
  | some flags =>
      if !(← setfl fd (flags ||| oNonblock)) then pure false
      else
        match ← connect fd addr with
        | .ok => restored fd flags true
        | .failed => restored fd flags false
        | .inProgress =>
            if (← poll fd .pollout (toCInt (timeoutSec * 1000))) ≤ 0 then restored fd flags false
            else restored fd flags ((← soError fd) == some 0)

/-- The loop over the addresses.  Whether the timeouts could be set is not looked at. -/
def connectLoop : List (List UInt8) → Prog (Option Fd)
  | [] => pure none
  | a :: addrs => do
      match ← socket (Bytes.le32 a 0) (Bytes.le32 a 4) (Bytes.le32 a 8) with
      | none => connectLoop addrs
      | some fd => do
          let _ ← setsockopt fd .snd acReportTimeoutSec
          let _ ← setsockopt fd .rcv acReportTimeoutSec
          let addr := (a.drop 16).take (Bytes.le32 a 12).toNat
          if ← acConnectTimeout fd addr acReportTimeoutSec then
            pure (some fd)
          else do
            close fd
            connectLoop addrs

/-! ## The report -/

/-- The loop that writes the request, from the byte `sent` on; an error is returned with its
text.  Every turn but the last writes a byte, so that the length of the request is fuel enough. -/
def writeLoop (fd : Fd) (req : CStr) : Nat → Nat → Prog (Except CStr Nat)
  | 0, sent => pure (.ok sent)
  | fuel + 1, sent =>
      if sent < req.length then do
        match ← write fd (req.drop sent) with
        | .error text => pure (.error text)
        | .ok 0 => pure (.ok sent)
        | .ok w => writeLoop fd req fuel (sent + w)
      else pure (.ok sent)

/-- `strstr(resp, w)`, as a test -/
def contains (resp w : CStr) : Bool :=
  resp.tails.any fun t => CStr.startsWith t w

/-- What is done with the response. -/
def readResponse (fd : Fd) : Prog Unit := do
  match ← read fd 63 with
  | none | some [] => pure ()
  | some (b :: bytes) =>
      let resp := (b :: bytes).takeWhile (· ≠ 0)
      if !contains resp (CStr.ascii " 200") && !contains resp (CStr.ascii " 201") then
        fprintf (CStr.ascii "ac_report: server response: " ++ resp.take 60 ++ CStr.ascii "\n")
      else pure ()

/-- What is done on a connection. -/
def sendRequest (fd : Fd) (req : CStr) : Prog Unit := do
  if req.length ≥ 2048 then
    fprintf (CStr.ascii
      "ac_report: request too large to send (AC_REPORT_KEY/AC_REPORT_URL too long?)\n")
    close fd
  else
    match ← writeLoop fd req (req.length + 1) 0 with
    | .error text => do
        fprintf (CStr.ascii "ac_report: send failed: " ++ text ++ CStr.ascii "\n")
        close fd
    | .ok sent =>
        if sent ≠ req.length then do
          fprintf (CStr.ascii "ac_report: short write (" ++ CStr.digits 10 sent ++
            CStr.ascii " of " ++ CStr.digits 10 req.length ++ CStr.ascii " bytes)\n")
          close fd
        else do
          readResponse fd
          close fd

/-- `ac_report` after the host and the port have been found.  `buf` is what the buffer of
`ac_resolve_timeout` holds before it is used. -/
def reportAt (buf : CharArray acResolvedAddrSize) (r : AcReport) (host port key : CStr) :
    Prog Unit := do
  let clientId ← acReportClientId 128
  let now ← time
  match ← acResolveTimeout buf acResolveMax acReportTimeoutSec with
  | none | some [] =>
      fprintf (CStr.ascii "ac_report: could not resolve " ++ host ++ CStr.ascii ":" ++ port ++
        CStr.ascii "\n")
  | some (a :: addrs) =>
      match ← connectLoop (a :: addrs) with
      | none =>
          fprintf (CStr.ascii "ac_report: could not connect to " ++ host ++ CStr.ascii ":" ++
            port ++ CStr.ascii "\n")
      | some fd =>
          sendRequest fd
            (reportRequest host key (reportBody clientId r.eventType r.detail now))

/-- `ac_report` when the address of the server and the key are given. -/
def reportTo (buf : CharArray acResolvedAddrSize) (r : AcReport) (url key : CStr) : Prog Unit :=
  match hostOf (CStr.bounded 256 url), CStr.strrchr 58 (CStr.bounded 256 url) with
  | some host, some port => reportAt buf r host (port.drop 1) key
  | _, _ => fprintf (CStr.ascii "ac_report: AC_REPORT_URL must be host:port\n")

/-- `ac_report` -/
def acReport (buf : CharArray acResolvedAddrSize) (r : AcReport) : Prog Unit := do
  let url ← getenv .acReportUrl
  let key ← getenv .acReportKey
  match url, key with
  | some (u :: url), some (k :: key) => reportTo buf r (u :: url) (k :: key)
  | _, _ => pure ()

/-- The reports of the daemon, one after the other. -/
def acReports : List (CharArray acResolvedAddrSize × AcReport) → Prog Unit
  | [] => pure ()
  | (buf, r) :: reports => do
      acReport buf r
      acReports reports

end Sys

end Anticheat
