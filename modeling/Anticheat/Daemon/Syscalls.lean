import Anticheat.Foundation.Interaction
import Anticheat.Daemon.Report
import Anticheat.Daemon.Resolve

/-!
# System calls of the daemon

The calls that the daemon makes to send a report, and what they do to its process: the open
descriptors, the children that it has not waited for, the time, and what has gone out on
connections and on the standard error.

A call may have any answer that its interface allows, so every failure is among them, and a write
to what nobody reads any more can end the process.  What a program must not do is not allowed: to
use or close a descriptor that is not open, to signal or await a process that is not its child, to
wait for a pipe, a child or a connection without a bound, to use a connection without having asked
for its timeouts, and to resolve a host while it holds the device.

Main results:

- Theorem {lit}`Sys.Answers.exists`: every call has an answer.
-/

namespace Anticheat

open Foundation

namespace Sys

abbrev Fd := Nat

abbrev Pid := Nat

/-- The variables of the environment that `ac_report` reads. -/
inductive EnvVar where
  | acReportUrl
  | acReportKey
deriving DecidableEq, Repr

inductive PollEvent where
  | pollin
  | pollout
deriving DecidableEq, Repr

/-- `SO_SNDTIMEO` and `SO_RCVTIMEO` -/
inductive SockTimeo where
  | snd
  | rcv
deriving DecidableEq, Repr

/-- What `connect` returns; the last is any other error. -/
inductive ConnectAnswer where
  | ok
  | inProgress
  | failed
deriving DecidableEq, Repr

inductive SysCall where
  | getenv (name : EnvVar)
  | fopen (path : CStr)
  | fgets (f : Fd) (size : Nat)
  | fclose (f : Fd)
  | gethostname (size : Nat)
  | time
  | pipe
  | fork
  | close (fd : Fd)
  | clockGettime
  | poll (fd : Fd) (events : PollEvent) (timeoutMs : Int)
  | read (fd : Fd) (size : Nat)
  | kill (pid : Pid)
  | waitpid (pid : Pid)
  | getaddrinfo (host port : CStr)
  | socket (family socktype protocol : UInt32)
  | setsockopt (fd : Fd) (opt : SockTimeo) (sec : Nat)
  | getfl (fd : Fd)
  | setfl (fd : Fd) (flags : BitVec 32)
  | connect (fd : Fd) (addr : List UInt8)
  | soError (fd : Fd)
  | write (fd : Fd) (bytes : List UInt8)
  | fprintf (text : CStr)

/-- What a call returns.  An error of `write` comes with its text. -/
def SysCall.Answer : SysCall → Type
  | .getenv _ => Option CStr
  | .fopen _ => Option Fd
  | .fgets _ _ => Option CStr
  | .fclose _ => Unit
  | .gethostname _ => Option CStr
  | .time => Int
  | .pipe => Option (Fd × Fd)
  | .fork => Option Pid
  | .close _ => Unit
  | .clockGettime => Timespec
  | .poll _ _ _ => Int
  | .read _ _ => Option (List UInt8)
  | .kill _ => Unit
  | .waitpid _ => Unit
  | .getaddrinfo _ _ => Option (List AddrInfo)
  | .socket _ _ _ => Option Fd
  | .setsockopt _ _ _ => Bool
  | .getfl _ => Option (BitVec 32)
  | .setfl _ _ => Bool
  | .connect _ _ => ConnectAnswer
  | .soError _ => Option Int
  | .write _ _ => Except CStr Nat
  | .fprintf _ => Unit

def interface : Interface where
  Call := SysCall
  Answer := SysCall.Answer

/-- A part of the daemon that makes system calls. -/
abbrev Prog (α : Type) := Interaction interface α

/-! ## The process -/

/-- How far a socket has come. -/
inductive SocketPhase where
  | fresh
  | connecting
  | connected
deriving DecidableEq, Repr

/-- Whether a timeout of a socket has been asked for, and granted. -/
inductive Timeo where
  | unset
  | set
  | refused
deriving DecidableEq, Repr

/-- What has become of a timeout that was asked for. -/
def Timeo.asked (granted : Bool) : Timeo :=
  if granted then .set else .refused

theorem Timeo.asked_ne_unset (granted : Bool) : Timeo.asked granted ≠ .unset := by
  cases granted with
  | true => simp [Timeo.asked]
  | false => simp [Timeo.asked]

/-- What a descriptor stands for.  A pipe is read until its stream has ended, which is all that
will be written to its other end; it is ready when `poll` has said so and it has not been read
since.  A socket has the number of its connection, and keeps what has become of its timeouts. -/
inductive DescKind where
  | file (text : List UInt8)
  | pipeIn (stream : List UInt8) (ready : Bool)
  | pipeOut
  | socket (conn : Nat) (phase : SocketPhase) (sndTimeo rcvTimeo : Timeo)
  | device
  | other
deriving DecidableEq

/-- A child that has not been waited for. -/
inductive ChildPhase where
  | running
  | killed
deriving DecidableEq, Repr

structure Descriptor where
  kind : DescKind
  flags : BitVec 32
deriving DecidableEq

/-- `O_RDWR`, the flags of a new socket -/
def oRdwr : BitVec 32 := 2

/-- `O_NONBLOCK` -/
def oNonblock : BitVec 32 := 0x800

/-- What a process learns from the calls that have to do with its pipe: what will come through the
pipe, a reading of the clock, the result of `poll`, and an error of `read` or how much it may return
at most. -/
inductive Heard where
  | stream (bytes : List UInt8)
  | clock (t : Timespec)
  | polled (r : Int)
  | took (most : Option ℕ+)

/-- The daemon's process, and a record of what it has done: how long it has waited in `poll`, in
nanoseconds as the clock, what it has written to a pipe and heard of one, on which connection it has
sent what, what it has printed, and whether it was refused to change the flags of a descriptor.
Whether SIGPIPE is ignored is inherited; the daemon does not set it. -/
structure Os where
  url : Option CStr
  key : Option CStr
  sigpipeIgnored : Bool
  fds : Fd → Option Descriptor
  children : Pid → Option ChildPhase
  clock : Int
  waited : Int
  conns : Nat
  piped : List UInt8
  heard : List Heard
  wire : List (Nat × List UInt8)
  stderr : List CStr
  setflRefused : Bool

def Os.getenv (s : Os) : EnvVar → Option CStr
  | .acReportUrl => s.url
  | .acReportKey => s.key

def Os.setFd (s : Os) (fd : Fd) (d : Option Descriptor) : Os :=
  { s with fds := Function.update s.fds fd d }

def Os.setChild (s : Os) (pid : Pid) (c : Option ChildPhase) : Os :=
  { s with children := Function.update s.children pid c }

/-- A number has been used for a socket. -/
def Os.numbered (s : Os) : Os :=
  { s with conns := s.conns + 1 }

/-- Bytes have been written to a pipe. -/
def Os.writePipe (s : Os) (bytes : List UInt8) : Os :=
  { s with piped := s.piped ++ bytes }

/-- Something has been heard. -/
def Os.hear (s : Os) (heard : List Heard) : Os :=
  { s with heard := s.heard ++ heard }

/-- Lines have been printed. -/
def Os.print (s : Os) (messages : List CStr) : Os :=
  { s with stderr := s.stderr ++ messages }

/-- Pieces have gone out on a connection. -/
def Os.sendOn (s : Os) (conn : Nat) (pieces : List (List UInt8)) : Os :=
  { s with wire := s.wire ++ pieces.map fun piece => (conn, piece) }

/-- The process at another time. -/
def Os.later (s : Os) (clock waited : Int) : Os :=
  { s with clock := clock, waited := waited }

/-- The reading of a clock that counts nanoseconds. -/
def timespecOfNs (ns : Int) : Timespec where
  sec := ns / 1000000000
  nsec := ns % 1000000000

/-- What a child that resolves a host can write: see `ResolveEnv.stream`. -/
def ChildStream (stream : List UInt8) : Prop :=
  ∃ (found : Option (List AddrInfo)) (writes : Writes),
    stream = (found.map (childLoop writes 0)).getD []

/-- The descriptor is a socket in this phase. -/
def Os.SocketIn (s : Os) (fd : Fd) (phase : SocketPhase) : Prop :=
  ∃ conn snd rcv flags, s.fds fd = some ⟨.socket conn phase snd rcv, flags⟩

/-- The timeouts of this connection have been asked for, so that reading from it or writing to it
blocks no longer than they say, unless they were refused.  A socket whose flags could not be set
back does not block at all. -/
def Os.Timed (s : Os) (fd : Fd) : Prop :=
  ∃ conn snd rcv flags, s.fds fd = some ⟨.socket conn .connected snd rcv, flags⟩ ∧
    snd ≠ .unset ∧ rcv ≠ .unset ∧ (s.setflRefused = false → flags &&& oNonblock = 0)

/-- The calls that are allowed. -/
def Allowed (s : Os) : SysCall → Prop
  | .fgets f _ | .fclose f => ∃ text flags, s.fds f = some ⟨.file text, flags⟩
  | .close fd => ∃ d, s.fds fd = some d ∧ ∀ text, d.kind ≠ .file text
  | .poll fd _ timeoutMs => (s.fds fd).isSome = true ∧ 0 ≤ timeoutMs
  | .read fd size =>
      -- a pipe that is not ready would be waited for
      0 < size ∧ ((∃ stream flags, s.fds fd = some ⟨.pipeIn stream true, flags⟩) ∨ s.Timed fd)
  | .kill pid => (s.children pid).isSome = true
  | .waitpid pid =>
      -- a child that runs would be waited for
      s.children pid = some .killed
  | .getaddrinfo _ _ =>
      -- a resolver can take for ever, and a process that holds the device keeps the module loaded
      ∀ fd flags, s.fds fd ≠ some ⟨.device, flags⟩
  | .setsockopt fd _ _ => s.SocketIn fd .fresh
  | .connect fd _ =>
      -- a connection to a host that does not answer would be waited for
      ∃ conn snd rcv flags, s.fds fd = some ⟨.socket conn .fresh snd rcv, flags⟩ ∧
        flags &&& oNonblock ≠ 0
  | .getfl fd | .setfl fd _ => (s.fds fd).isSome = true
  | .soError fd => s.SocketIn fd .connecting
  | .write fd bytes =>
      bytes ≠ [] ∧ ((∃ flags, s.fds fd = some ⟨.pipeOut, flags⟩) ∨ s.Timed fd)
  | _ => True

/-- A timeout has been asked for. -/
def DescKind.withTimeo (granted : Bool) : SockTimeo → DescKind → DescKind
  | .snd, .socket conn phase _ rcv => .socket conn phase (.asked granted) rcv
  | .rcv, .socket conn phase snd _ => .socket conn phase snd (.asked granted)
  | _, kind => kind

def DescKind.withPhase (phase : SocketPhase) : DescKind → DescKind
  | .socket conn _ snd rcv => .socket conn phase snd rcv
  | kind => kind

/-- `poll` has said whether there is something to read. -/
def DescKind.polled (ready : Bool) : DescKind → DescKind
  | .pipeIn stream _ => .pipeIn stream ready
  | kind => kind

def Os.modifyFd (s : Os) (fd : Fd) (f : DescKind → DescKind) : Os :=
  s.setFd fd ((s.fds fd).map fun d => { d with kind := f d.kind })

/-- The answers that a call can have, with the process after it.  Time passes unseen; it shows at
the next reading of the clock.  `poll` waits for its timeout at most; by how much the granularity of
the system's clock lets it overrun is not counted. -/
def Answers (s : Os) : (c : SysCall) → c.Answer → Os → Prop
  | .getenv name, r, s' => r = s.getenv name ∧ s' = s
  | .fopen _, r, s' =>
      (r = none ∧ s' = s) ∨
        ∃ fd text, s.fds fd = none ∧ r = some fd ∧ s' = s.setFd fd (some ⟨.file text, 0⟩)
  | .fgets f size, r, s' =>
      s' = s ∧ (r = none ∨ ∃ text flags, s.fds f = some ⟨.file text, flags⟩ ∧
        r = CStr.fgets size text)
  | .fclose f, _, s' => s' = s.setFd f none
  | .gethostname _, _, s' => s' = s
  | .time, _, s' => s' = s
  | .pipe, r, s' =>
      (r = none ∧ s' = s) ∨
        ∃ rd wr stream, s.fds rd = none ∧ s.fds wr = none ∧ rd ≠ wr ∧ ChildStream stream ∧
          r = some (rd, wr) ∧
          s' = ((s.hear [.stream stream]).setFd rd (some ⟨.pipeIn stream false, 0⟩)).setFd wr
            (some ⟨.pipeOut, 1⟩)
  | .fork, r, s' =>
      (r = none ∧ s' = s) ∨
        ∃ pid, s.children pid = none ∧ r = some pid ∧ s' = s.setChild pid (some .running)
  | .close fd, _, s' => s' = s.setFd fd none
  | .clockGettime, r, s' =>
      ∃ ns, s.clock ≤ ns ∧ r = timespecOfNs ns ∧
        s' = (s.hear [.clock (timespecOfNs ns)]).later ns s.waited
  | .poll fd _ timeoutMs, (r : Int), s' =>
      ∃ ns, 0 ≤ ns ∧ ns ≤ timeoutMs * 1000000 ∧
        s' = ((s.hear [.polled r]).later (s.clock + ns) (s.waited + ns)).modifyFd fd
          (.polled (decide (0 < r)))
  | .read fd size, r, s' =>
      (∃ stream ready flags, s.fds fd = some ⟨.pipeIn stream ready, flags⟩ ∧
        ((r = none ∧ s' = s.hear [.took none]) ∨
          ∃ most : ℕ+, r = some (stream.take (min most size)) ∧
            s' = (s.hear [.took (some most)]).setFd fd
              (some ⟨.pipeIn (stream.drop (min most size)) false, flags⟩))) ∨
      (s.SocketIn fd .connected ∧ s' = s ∧
        (r = none ∨ ∃ bytes, bytes.length ≤ size ∧ r = some bytes))
  | .kill pid, _, s' => s' = s.setChild pid (some .killed)
  | .waitpid pid, _, s' => s' = s.setChild pid none
  | .getaddrinfo _ _, _, s' => s' = s
  | .socket _ _ _, r, s' =>
      (r = none ∧ s' = s) ∨
        ∃ fd, s.fds fd = none ∧ r = some fd ∧
          s' = s.numbered.setFd fd (some ⟨.socket s.conns .fresh .unset .unset, oRdwr⟩)
  | .setsockopt fd opt _, r, s' => s' = s.modifyFd fd (.withTimeo r opt)
  | .getfl fd, r, s' => s' = s ∧ (r = none ∨ r = (s.fds fd).map Descriptor.flags)
  | .setfl fd flags, r, s' =>
      (r = true ∧ s' = s.setFd fd ((s.fds fd).map fun d => { d with flags := flags })) ∨
        (r = false ∧ s' = { s with setflRefused := true })
  | .connect fd _, r, s' =>
      match r with
      | .ok => s' = s.modifyFd fd (.withPhase .connected)
      | .inProgress => s' = s.modifyFd fd (.withPhase .connecting)
      | .failed => s' = s
  | .soError fd, r, s' =>
      (r = some (0 : Int) ∧ s' = s.modifyFd fd (.withPhase .connected)) ∨
        (r ≠ some (0 : Int) ∧ s' = s)
  | .write fd bytes, r, s' =>
      match r with
      | .error _ => s' = s
      | .ok n =>
          n ≤ bytes.length ∧
            ((∃ conn phase snd rcv flags,
                s.fds fd = some ⟨.socket conn phase snd rcv, flags⟩ ∧
                s' = s.sendOn conn [bytes.take n]) ∨
              ∃ flags, s.fds fd = some ⟨.pipeOut, flags⟩ ∧
                s' = s.writePipe (bytes.take n))
  | .fprintf text, _, s' => s' = s.print [text]

/-- The calls at which the process can be ended.  A write to a pipe or a connection that nobody
reads any more raises SIGPIPE, and the daemon neither handles nor blocks it; the standard error may
be a pipe as well. -/
def Kills (s : Os) : SysCall → Prop
  | .write _ _ | .fprintf _ => s.sigpipeIgnored = false
  | _ => False

/-- Every call that is allowed has an answer. -/
theorem Answers.exists (s : Os) (c : SysCall) (h : Allowed s c) : ∃ r s', Answers s c r s' := by
  cases c with
  | getenv name => exact ⟨_, _, rfl, rfl⟩
  | fopen path => exact ⟨none, s, Or.inl ⟨rfl, rfl⟩⟩
  | fgets f size => exact ⟨none, s, rfl, Or.inl rfl⟩
  | fclose f => exact ⟨(), _, rfl⟩
  | gethostname size => exact ⟨none, s, rfl⟩
  | time => exact ⟨(0 : Int), s, rfl⟩
  | pipe => exact ⟨none, s, Or.inl ⟨rfl, rfl⟩⟩
  | fork => exact ⟨none, s, Or.inl ⟨rfl, rfl⟩⟩
  | close fd => exact ⟨(), _, rfl⟩
  | clockGettime => exact ⟨_, _, s.clock, Int.le_refl _, rfl, rfl⟩
  | poll fd events timeoutMs => exact ⟨(0 : Int), _, 0, Int.le_refl _, by have := h.2; omega, rfl⟩
  | read fd size =>
      rcases h.2 with ⟨stream, flags, hfd⟩ | ⟨conn, snd, rcv, flags, hfd, -⟩
      · exact ⟨none, _, Or.inl ⟨stream, true, flags, hfd, Or.inl ⟨rfl, rfl⟩⟩⟩
      · exact ⟨none, s, Or.inr ⟨⟨conn, snd, rcv, flags, hfd⟩, rfl, Or.inl rfl⟩⟩
  | kill pid => exact ⟨(), _, rfl⟩
  | waitpid pid => exact ⟨(), _, rfl⟩
  | getaddrinfo host port => exact ⟨none, s, rfl⟩
  | socket family socktype protocol => exact ⟨none, s, Or.inl ⟨rfl, rfl⟩⟩
  | setsockopt fd opt sec => exact ⟨false, _, rfl⟩
  | getfl fd => exact ⟨none, s, rfl, Or.inl rfl⟩
  | setfl fd flags => exact ⟨false, _, Or.inr ⟨rfl, rfl⟩⟩
  | connect fd addr => exact ⟨ConnectAnswer.failed, s, rfl⟩
  | soError fd => exact ⟨none, s, Or.inr ⟨(Option.some_ne_none (0 : Int)).symm, rfl⟩⟩
  | write fd bytes => exact ⟨Except.error [], s, rfl⟩
  | fprintf text => exact ⟨(), _, rfl⟩

/-- The process with the system around it. -/
def machine : Machine interface Os where
  Allowed := Allowed
  Answers := Answers
  Kills := Kills
  answers_exist := Answers.exists

/-! ## Single calls -/

/-- One call. -/
def sys (c : SysCall) : Prog c.Answer :=
  Interaction.ask (I := interface) c

def getenv (name : EnvVar) : Prog (Option CStr) := sys (.getenv name)

def fopen (path : CStr) : Prog (Option Fd) := sys (.fopen path)

def fgets (f : Fd) (size : Nat) : Prog (Option CStr) := sys (.fgets f size)

def fclose (f : Fd) : Prog Unit := sys (.fclose f)

def gethostname (size : Nat) : Prog (Option CStr) := sys (.gethostname size)

def time : Prog Int := sys .time

def pipe : Prog (Option (Fd × Fd)) := sys .pipe

def fork : Prog (Option Pid) := sys .fork

def close (fd : Fd) : Prog Unit := sys (.close fd)

def clockGettime : Prog Timespec := sys .clockGettime

def poll (fd : Fd) (events : PollEvent) (timeoutMs : Int) : Prog Int :=
  sys (.poll fd events timeoutMs)

def read (fd : Fd) (size : Nat) : Prog (Option (List UInt8)) := sys (.read fd size)

def kill (pid : Pid) : Prog Unit := sys (.kill pid)

def waitpid (pid : Pid) : Prog Unit := sys (.waitpid pid)

def getaddrinfo (host port : CStr) : Prog (Option (List AddrInfo)) := sys (.getaddrinfo host port)

def socket (family socktype protocol : UInt32) : Prog (Option Fd) :=
  sys (.socket family socktype protocol)

def setsockopt (fd : Fd) (opt : SockTimeo) (sec : Nat) : Prog Bool := sys (.setsockopt fd opt sec)

def getfl (fd : Fd) : Prog (Option (BitVec 32)) := sys (.getfl fd)

def setfl (fd : Fd) (flags : BitVec 32) : Prog Bool := sys (.setfl fd flags)

def connect (fd : Fd) (addr : List UInt8) : Prog ConnectAnswer := sys (.connect fd addr)

def soError (fd : Fd) : Prog (Option Int) := sys (.soError fd)

def write (fd : Fd) (bytes : List UInt8) : Prog (Except CStr Nat) := sys (.write fd bytes)

def fprintf (text : CStr) : Prog Unit := sys (.fprintf text)

/-! ## What a program can rely on -/

section SetFd

variable (s : Os) (fd : Fd) (d e : Option Descriptor)

@[simp]
theorem Os.setFd_fds : (s.setFd fd d).fds fd = d := by
  simp [Os.setFd]

@[simp]
theorem Os.setFd_setFd : (s.setFd fd d).setFd fd e = s.setFd fd e := by
  simp [Os.setFd]

end SetFd

@[simp]
theorem Os.setChild_setChild (s : Os) (pid : Pid) (c c' : Option ChildPhase) :
    (s.setChild pid c).setChild pid c' = s.setChild pid c' := by
  simp [Os.setChild]

theorem Os.setFd_fds_of_ne {s : Os} {fd fd' : Fd} {d : Option Descriptor} (h : fd' ≠ fd) :
    (s.setFd fd d).fds fd' = s.fds fd' := by
  simp [Os.setFd, h]

/-- Closing what was opened leaves nothing. -/
theorem Os.setFd_of_fds {s : Os} {fd : Fd} {d : Option Descriptor} (h : s.fds fd = d) :
    s.setFd fd d = s := by
  rw [Os.setFd, ← h, Function.update_eq_self]

theorem Os.setFd_comm {s : Os} {fd fd' : Fd} {d e : Option Descriptor} (h : fd ≠ fd') :
    (s.setFd fd d).setFd fd' e = (s.setFd fd' e).setFd fd d := by
  simp only [Os.setFd]
  rw [Function.update_comm h]

section Later

variable (s : Os) (clock waited : Int)

@[simp]
theorem Os.later_fds : (s.later clock waited).fds = s.fds :=
  rfl

@[simp]
theorem Os.later_clock : (s.later clock waited).clock = clock :=
  rfl

@[simp]
theorem Os.later_waited : (s.later clock waited).waited = waited :=
  rfl

@[simp]
theorem Os.later_later (clock' waited' : Int) :
    (s.later clock waited).later clock' waited' = s.later clock' waited' :=
  rfl

@[simp]
theorem Os.setFd_clock (fd : Fd) (d : Option Descriptor) : (s.setFd fd d).clock = s.clock :=
  rfl

@[simp]
theorem Os.setFd_waited (fd : Fd) (d : Option Descriptor) : (s.setFd fd d).waited = s.waited :=
  rfl

end Later

section Hear

variable (s : Os) (heard : List Heard)

@[simp]
theorem Os.hear_hear (more : List Heard) : (s.hear heard).hear more = s.hear (heard ++ more) := by
  simp [Os.hear]

@[simp]
theorem Os.hear_fds : (s.hear heard).fds = s.fds :=
  rfl

@[simp]
theorem Os.hear_waited : (s.hear heard).waited = s.waited :=
  rfl

theorem Os.later_hear (clock waited : Int) :
    (s.later clock waited).hear heard = (s.hear heard).later clock waited :=
  rfl

theorem Os.setFd_hear (fd : Fd) (d : Option Descriptor) :
    (s.setFd fd d).hear heard = (s.hear heard).setFd fd d :=
  rfl

end Hear

section Rules

variable {s : Os} {fd : Fd} {D : Os → Prop}

theorem wp_getenv {name : EnvVar} {Q : Option CStr → Os → Prop} (h : Q (s.getenv name) s) :
    machine.wp (getenv name) Q D s := by
  refine wp_ask.2 ⟨trivial, False.elim, ?_⟩
  rintro r s' ⟨rfl, rfl⟩
  exact h

theorem wp_fopen {path : CStr} {Q : Option Fd → Os → Prop} (hnone : Q none s)
    (hsome : ∀ f text, s.fds f = none → Q (some f) (s.setFd f (some ⟨.file text, 0⟩))) :
    machine.wp (fopen path) Q D s := by
  refine wp_ask.2 ⟨trivial, False.elim, ?_⟩
  rintro r s' (⟨rfl, rfl⟩ | ⟨f, text, hf, rfl, rfl⟩)
  · exact hnone
  · exact hsome f text hf

theorem wp_fgets {size : Nat} {text : List UInt8} {flags : BitVec 32}
    {Q : Option CStr → Os → Prop} (hfd : s.fds fd = some ⟨.file text, flags⟩)
    (hnone : Q none s) (hsome : Q (CStr.fgets size text) s) :
    machine.wp (fgets fd size) Q D s := by
  refine wp_ask.2 ⟨⟨text, flags, hfd⟩, False.elim, ?_⟩
  rintro r s' ⟨rfl, rfl | ⟨text', flags', hfd', rfl⟩⟩
  · exact hnone
  · rw [hfd] at hfd'
    cases hfd'
    exact hsome

theorem wp_fclose {text : List UInt8} {flags : BitVec 32} {Q : Unit → Os → Prop}
    (hfd : s.fds fd = some ⟨.file text, flags⟩) (h : Q () (s.setFd fd none)) :
    machine.wp (fclose fd) Q D s := by
  refine wp_ask.2 ⟨⟨text, flags, hfd⟩, False.elim, ?_⟩
  rintro r s' rfl
  exact h

theorem wp_gethostname {size : Nat} {Q : Option CStr → Os → Prop} (h : ∀ r, Q r s) :
    machine.wp (gethostname size) Q D s := by
  refine wp_ask.2 ⟨trivial, False.elim, ?_⟩
  rintro r s' rfl
  exact h r

theorem wp_time {Q : Int → Os → Prop} (h : ∀ r, Q r s) : machine.wp time Q D s := by
  refine wp_ask.2 ⟨trivial, False.elim, ?_⟩
  rintro r s' rfl
  exact h r

theorem wp_pipe {Q : Option (Fd × Fd) → Os → Prop} (hnone : Q none s)
    (hsome : ∀ rd wr stream, s.fds rd = none → s.fds wr = none → rd ≠ wr → ChildStream stream →
      Q (some (rd, wr))
        (((s.hear [.stream stream]).setFd rd (some ⟨.pipeIn stream false, 0⟩)).setFd wr
          (some ⟨.pipeOut, 1⟩))) :
    machine.wp pipe Q D s := by
  refine wp_ask.2 ⟨trivial, False.elim, ?_⟩
  rintro r s' (⟨rfl, rfl⟩ | ⟨rd, wr, stream, hrd, hwr, hne, hstream, rfl, rfl⟩)
  · exact hnone
  · exact hsome rd wr stream hrd hwr hne hstream

theorem wp_fork {Q : Option Pid → Os → Prop} (hnone : Q none s)
    (hsome : ∀ pid, s.children pid = none → Q (some pid) (s.setChild pid (some .running))) :
    machine.wp fork Q D s := by
  refine wp_ask.2 ⟨trivial, False.elim, ?_⟩
  rintro r s' (⟨rfl, rfl⟩ | ⟨pid, hpid, rfl, rfl⟩)
  · exact hnone
  · exact hsome pid hpid

theorem wp_close {d : Descriptor} {Q : Unit → Os → Prop} (hfd : s.fds fd = some d)
    (hkind : ∀ text, d.kind ≠ .file text) (h : Q () (s.setFd fd none)) :
    machine.wp (close fd) Q D s := by
  refine wp_ask.2 ⟨⟨d, hfd, hkind⟩, False.elim, ?_⟩
  rintro r s' rfl
  exact h

theorem wp_clockGettime {Q : Timespec → Os → Prop}
    (h : ∀ ns, s.clock ≤ ns → Q (timespecOfNs ns)
      ((s.hear [.clock (timespecOfNs ns)]).later ns s.waited)) :
    machine.wp clockGettime Q D s := by
  refine wp_ask.2 ⟨trivial, False.elim, ?_⟩
  rintro r s' ⟨ns, hns, rfl, rfl⟩
  exact h ns hns

theorem wp_poll_pipe {events : PollEvent} {timeoutMs : Int} {stream : List UInt8} {ready : Bool}
    {flags : BitVec 32} {Q : Int → Os → Prop}
    (hfd : s.fds fd = some ⟨.pipeIn stream ready, flags⟩) (htimeout : 0 ≤ timeoutMs)
    (h : ∀ r ns, 0 ≤ ns → ns ≤ timeoutMs * 1000000 →
      Q r (((s.hear [.polled r]).later (s.clock + ns) (s.waited + ns)).setFd fd
        (some ⟨.pipeIn stream (decide (0 < r)), flags⟩))) :
    machine.wp (poll fd events timeoutMs) Q D s := by
  refine wp_ask.2 ⟨⟨Option.isSome_of_eq_some hfd, htimeout⟩, False.elim, ?_⟩
  rintro r s' ⟨ns, hns, hle, rfl⟩
  simp only [Os.modifyFd, Os.later_fds, Os.hear_fds, hfd, Option.map_some]
  exact h r ns hns hle

theorem wp_poll_socket {events : PollEvent} {timeoutMs : Int} {conn : Nat} {phase : SocketPhase}
    {snd rcv : Timeo} {flags : BitVec 32} {Q : Int → Os → Prop}
    (hfd : s.fds fd = some ⟨.socket conn phase snd rcv, flags⟩) (htimeout : 0 ≤ timeoutMs)
    (h : ∀ r ns, 0 ≤ ns → ns ≤ timeoutMs * 1000000 →
      Q r ((s.hear [.polled r]).later (s.clock + ns) (s.waited + ns))) :
    machine.wp (poll fd events timeoutMs) Q D s := by
  refine wp_ask.2 ⟨⟨Option.isSome_of_eq_some hfd, htimeout⟩, False.elim, ?_⟩
  rintro (r : Int) s' ⟨ns, hns, hle, rfl⟩
  have hsame : ((s.hear [.polled r]).later (s.clock + ns) (s.waited + ns)).modifyFd fd
      (.polled (decide (0 < r))) = (s.hear [.polled r]).later (s.clock + ns) (s.waited + ns) := by
    simp only [Os.modifyFd, Os.later_fds, Os.hear_fds, hfd, Option.map_some, DescKind.polled]
    exact Os.setFd_of_fds hfd
  rw [hsame]
  exact h r ns hns hle

theorem wp_read_pipe {size : Nat} {stream : List UInt8} {flags : BitVec 32}
    {Q : Option (List UInt8) → Os → Prop} (hfd : s.fds fd = some ⟨.pipeIn stream true, flags⟩)
    (hsize : 0 < size) (hnone : Q none (s.hear [.took none]))
    (hsome : ∀ most : ℕ+, Q (some (stream.take (min most size)))
      ((s.hear [.took (some most)]).setFd fd
        (some ⟨.pipeIn (stream.drop (min most size)) false, flags⟩))) :
    machine.wp (read fd size) Q D s := by
  refine wp_ask.2 ⟨⟨hsize, Or.inl ⟨stream, flags, hfd⟩⟩, False.elim, ?_⟩
  rintro r s' (⟨stream', ready, flags', hfd', hread⟩ | ⟨⟨conn, snd, rcv, flags', hfd'⟩, -⟩)
  · rw [hfd] at hfd'
    cases hfd'
    rcases hread with ⟨rfl, rfl⟩ | ⟨most, rfl, rfl⟩
    · exact hnone
    · exact hsome most
  · rw [hfd] at hfd'
    cases hfd'

theorem wp_read_socket {size : Nat} {Q : Option (List UInt8) → Os → Prop} (hfd : s.Timed fd)
    (hsize : 0 < size) (h : ∀ r, Q r s) : machine.wp (read fd size) Q D s := by
  refine wp_ask.2 ⟨⟨hsize, Or.inr hfd⟩, False.elim, ?_⟩
  rcases hfd with ⟨conn, snd, rcv, flags, hfd, -⟩
  rintro r s' (⟨stream', ready, flags', hfd', -⟩ | ⟨-, rfl, -⟩)
  · rw [hfd] at hfd'
    cases hfd'
  · exact h r

theorem wp_kill {pid : Pid} {Q : Unit → Os → Prop} (hpid : (s.children pid).isSome = true)
    (h : Q () (s.setChild pid (some .killed))) : machine.wp (kill pid) Q D s := by
  refine wp_ask.2 ⟨hpid, False.elim, ?_⟩
  rintro r s' rfl
  exact h

theorem wp_waitpid {pid : Pid} {Q : Unit → Os → Prop} (hpid : s.children pid = some .killed)
    (h : Q () (s.setChild pid none)) :
    machine.wp (waitpid pid) Q D s := by
  refine wp_ask.2 ⟨hpid, False.elim, ?_⟩
  rintro r s' rfl
  exact h

theorem wp_getaddrinfo {host port : CStr} {Q : Option (List AddrInfo) → Os → Prop}
    (hdevice : ∀ fd flags, s.fds fd ≠ some ⟨.device, flags⟩) (h : ∀ r, Q r s) :
    machine.wp (getaddrinfo host port) Q D s := by
  refine wp_ask.2 ⟨hdevice, False.elim, ?_⟩
  rintro r s' rfl
  exact h r

theorem wp_socket {family socktype protocol : UInt32} {Q : Option Fd → Os → Prop}
    (hnone : Q none s)
    (hsome : ∀ fd, s.fds fd = none →
      Q (some fd) (s.numbered.setFd fd (some ⟨.socket s.conns .fresh .unset .unset, oRdwr⟩))) :
    machine.wp (socket family socktype protocol) Q D s := by
  refine wp_ask.2 ⟨trivial, False.elim, ?_⟩
  rintro r s' (⟨rfl, rfl⟩ | ⟨fd, hfd, rfl, rfl⟩)
  · exact hnone
  · exact hsome fd hfd

theorem wp_setsockopt {opt : SockTimeo} {sec conn : Nat} {snd rcv : Timeo} {flags : BitVec 32}
    {Q : Bool → Os → Prop} (hfd : s.fds fd = some ⟨.socket conn .fresh snd rcv, flags⟩)
    (h : ∀ r, Q r (s.setFd fd
      (some ⟨DescKind.withTimeo r opt (.socket conn .fresh snd rcv), flags⟩))) :
    machine.wp (setsockopt fd opt sec) Q D s := by
  refine wp_ask.2 ⟨⟨conn, snd, rcv, flags, hfd⟩, False.elim, ?_⟩
  rintro r s' rfl
  simp only [Os.modifyFd, hfd, Option.map_some]
  exact h r

theorem wp_getfl {d : Descriptor} {Q : Option (BitVec 32) → Os → Prop} (hfd : s.fds fd = some d)
    (hnone : Q none s) (hsome : Q (some d.flags) s) : machine.wp (getfl fd) Q D s := by
  refine wp_ask.2 ⟨Option.isSome_of_eq_some hfd, False.elim, ?_⟩
  rintro r s' ⟨rfl, rfl | rfl⟩
  · exact hnone
  · rw [hfd]
    exact hsome

theorem wp_setfl {d : Descriptor} {flags : BitVec 32} {Q : Bool → Os → Prop}
    (hfd : s.fds fd = some d) (hok : Q true (s.setFd fd (some { d with flags := flags })))
    (hrefused : Q false { s with setflRefused := true }) : machine.wp (setfl fd flags) Q D s := by
  refine wp_ask.2 ⟨Option.isSome_of_eq_some hfd, False.elim, ?_⟩
  rintro r s' (⟨rfl, rfl⟩ | ⟨rfl, rfl⟩)
  · rw [hfd]
    exact hok
  · exact hrefused

theorem wp_connect {addr : List UInt8} {conn : Nat} {snd rcv : Timeo} {flags : BitVec 32}
    {Q : ConnectAnswer → Os → Prop} (hfd : s.fds fd = some ⟨.socket conn .fresh snd rcv, flags⟩)
    (hflags : flags &&& oNonblock ≠ 0)
    (hok : Q .ok (s.setFd fd (some ⟨.socket conn .connected snd rcv, flags⟩)))
    (hprogress : Q .inProgress (s.setFd fd (some ⟨.socket conn .connecting snd rcv, flags⟩)))
    (hfailed : Q .failed s) : machine.wp (connect fd addr) Q D s := by
  refine wp_ask.2 ⟨⟨conn, snd, rcv, flags, hfd, hflags⟩, False.elim, ?_⟩
  intro r s' hr
  cases r with
  | ok =>
      rw [show s' = _ from hr]
      simp only [Os.modifyFd, hfd, Option.map_some]
      exact hok
  | inProgress =>
      rw [show s' = _ from hr]
      simp only [Os.modifyFd, hfd, Option.map_some]
      exact hprogress
  | failed =>
      rw [show s' = s from hr]
      exact hfailed

theorem wp_soError {conn : Nat} {snd rcv : Timeo} {flags : BitVec 32} {Q : Option Int → Os → Prop}
    (hfd : s.fds fd = some ⟨.socket conn .connecting snd rcv, flags⟩)
    (hok : Q (some 0) (s.setFd fd (some ⟨.socket conn .connected snd rcv, flags⟩)))
    (hfailed : ∀ r, r ≠ some 0 → Q r s) : machine.wp (soError fd) Q D s := by
  refine wp_ask.2 ⟨⟨conn, snd, rcv, flags, hfd⟩, False.elim, ?_⟩
  rintro r s' (⟨rfl, rfl⟩ | ⟨hr, rfl⟩)
  · simp only [Os.modifyFd, hfd, Option.map_some]
    exact hok
  · exact hfailed r hr

theorem wp_write_socket {bytes : List UInt8} {conn : Nat} {phase : SocketPhase} {snd rcv : Timeo}
    {flags : BitVec 32} {Q : Except CStr Nat → Os → Prop} (htimed : s.Timed fd)
    (hfd : s.fds fd = some ⟨.socket conn phase snd rcv, flags⟩) (hbytes : bytes ≠ [])
    (hkill : s.sigpipeIgnored = false → D s) (herror : ∀ text, Q (.error text) s)
    (hok : ∀ n ≤ bytes.length, Q (.ok n) (s.sendOn conn [bytes.take n])) :
    machine.wp (write fd bytes) Q D s := by
  refine wp_ask.2 ⟨⟨hbytes, Or.inr htimed⟩, hkill, ?_⟩
  intro r s' hr
  cases r with
  | error text =>
      rw [show s' = s from hr]
      exact herror text
  | ok n =>
      rcases hr with ⟨hn, ⟨conn', phase', snd', rcv', flags', hfd', rfl⟩ | ⟨flags', hfd', rfl⟩⟩
      · rw [hfd] at hfd'
        cases hfd'
        exact hok n hn
      · rw [hfd] at hfd'
        cases hfd'

theorem wp_write_pipe {bytes : List UInt8} {flags : BitVec 32} {Q : Except CStr Nat → Os → Prop}
    (hfd : s.fds fd = some ⟨.pipeOut, flags⟩) (hbytes : bytes ≠ [])
    (hkill : s.sigpipeIgnored = false → D s) (herror : ∀ text, Q (.error text) s)
    (hok : ∀ n ≤ bytes.length, Q (.ok n) (s.writePipe (bytes.take n))) :
    machine.wp (write fd bytes) Q D s := by
  refine wp_ask.2 ⟨⟨hbytes, Or.inl ⟨flags, hfd⟩⟩, hkill, ?_⟩
  intro r s' hr
  cases r with
  | error text =>
      rw [show s' = s from hr]
      exact herror text
  | ok n =>
      rcases hr with ⟨hn, ⟨conn', phase', snd', rcv', flags', hfd', rfl⟩ | ⟨flags', hfd', rfl⟩⟩
      · rw [hfd] at hfd'
        cases hfd'
      · exact hok n hn

theorem wp_fprintf {text : CStr} {Q : Unit → Os → Prop}
    (hkill : s.sigpipeIgnored = false → D s) (h : Q () (s.print [text])) :
    machine.wp (fprintf text) Q D s := by
  refine wp_ask.2 ⟨trivial, hkill, ?_⟩
  rintro r s' rfl
  exact h

end Rules

end Sys

end Anticheat
