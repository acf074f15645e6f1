import Anticheat.Daemon.Transport

/-!
# Resolving under every behaviour of the system

`ac_resolve_timeout` asks a child for the addresses of the server, and reads them from a pipe
until a deadline.  Its two processes are specified over all answers of the system.  The parent
closes what it opened, waits for its child and stores what the model of its loop stores; the
stream that it takes the pipe to carry is what the child writes.

Main results:

- Theorem {lit}`resolve_timeout_refines`: the function returns what its model returns for what it
  has heard, with the descriptors and children it had, shortly after its timeout at the latest.
- Theorem {lit}`resolve_child_holds_no_device`: the child has closed the device when it resolves.
-/

namespace Anticheat

open Foundation

namespace Sys

/-- Nothing but time has passed, except that sockets may have been used up and something may have
been heard: at most `most` nanoseconds of it were spent waiting. -/
structure Os.Passed (s s' : Os) (most : Int) : Prop where
  url : s'.url = s.url
  key : s'.key = s.key
  sigpipe : s'.sigpipeIgnored = s.sigpipeIgnored
  fds : s'.fds = s.fds
  children : s'.children = s.children
  piped : s'.piped = s.piped
  wire : s'.wire = s.wire
  stderr : s'.stderr = s.stderr
  conns : s.conns ≤ s'.conns
  refused : s.setflRefused = true → s'.setflRefused = true
  waited : s'.waited ≤ s.waited + most

theorem Os.Passed.refl (s : Os) : s.Passed s 0 where
  url := rfl
  key := rfl
  sigpipe := rfl
  fds := rfl
  children := rfl
  piped := rfl
  wire := rfl
  stderr := rfl
  conns := Nat.le_refl _
  refused := id
  waited := by omega

theorem Os.Passed.trans {s s' s'' : Os} {m n : Int} (h : s.Passed s' m) (h' : s'.Passed s'' n) :
    s.Passed s'' (m + n) where
  url := h'.url.trans h.url
  key := h'.key.trans h.key
  sigpipe := h'.sigpipe.trans h.sigpipe
  fds := h'.fds.trans h.fds
  children := h'.children.trans h.children
  piped := h'.piped.trans h.piped
  wire := h'.wire.trans h.wire
  stderr := h'.stderr.trans h.stderr
  conns := h.conns.trans h'.conns
  refused := fun hs => h'.refused (h.refused hs)
  waited := by
    have := h.waited
    have := h'.waited
    omega

theorem Os.Passed.mono {s s' : Os} {m n : Int} (h : s.Passed s' m) (hmn : m ≤ n) :
    s.Passed s' n :=
  { h with waited := h.waited.trans (by omega) }

/-- The clock has been read, or waited for. -/
theorem Os.Passed.later {s s' : Os} {m n clock waited : Int} (h : s.Passed s' m)
    (hwaited : waited ≤ s.waited + n) :
    s.Passed (s'.later clock waited) n :=
  { h with waited := hwaited }

/-- What was opened in between has been closed. -/
theorem Os.Passed.closed {s s' : Os} {m : Int} {fd : Fd} {d : Option Descriptor}
    (h : (s.setFd fd d).Passed s' m) (hfd : s.fds fd = none) :
    s.Passed (s'.setFd fd none) m := by
  have hclosed : (s.setFd fd d).setFd fd none = s := by
    rw [Os.setFd_setFd, Os.setFd_of_fds hfd]
  have hfds : (s'.setFd fd none).fds = s.fds :=
    calc
      (s'.setFd fd none).fds = ((s.setFd fd d).setFd fd none).fds := by
        simp only [Os.setFd, h.fds]
      _ = s.fds := by rw [hclosed]
  exact { h with fds := hfds }

theorem Os.Passed.fds_at {s s' : Os} {m : Int} {fd : Fd} {d : Option Descriptor}
    (h : (s.setFd fd d).Passed s' m) : s'.fds fd = d := by
  rw [h.fds, Os.setFd_fds]

/-- The same change of a descriptor before and after. -/
theorem Os.Passed.setFd {s s' : Os} {m : Int} (h : s.Passed s' m) (fd : Fd)
    (d : Option Descriptor) : (s.setFd fd d).Passed (s'.setFd fd d) m := by
  have hfds : (s'.setFd fd d).fds = (s.setFd fd d).fds := by
    simp only [Os.setFd, h.fds]
  exact { h with fds := hfds }

theorem Os.Passed.refuse {s s' : Os} {m : Int} (h : s.Passed s' m) :
    s.Passed { s' with setflRefused := true } m :=
  { h with refused := fun _ => rfl }

theorem Os.Passed.hear {s s' : Os} {m : Int} (h : s.Passed s' m) (heard : List Heard) :
    s.Passed (s'.hear heard) m :=
  { h with }

theorem Os.Passed.of_hear {s s' : Os} {m : Int} {heard : List Heard}
    (h : (s.hear heard).Passed s' m) : s.Passed s' m :=
  { h with }

/-- A socket has been numbered. -/
theorem Os.Passed.numbered (s : Os) : s.Passed s.numbered 0 :=
  { Os.Passed.refl s with conns := Nat.le_succ _ }

/-- What was started in between has been waited for. -/
theorem Os.Passed.reaped {s s' : Os} {m clock : Int} {pid : Pid}
    (h : ((s.setChild pid (some .running)).later clock s.waited).Passed s' m)
    (hpid : s.children pid = none) : s.Passed (s'.setChild pid none) m := by
  have hrunning : s'.children = Function.update s.children pid (some .running) := h.children
  have hreaped : (s'.setChild pid none).children = s.children := by
    rw [Os.setChild, hrunning, Function.update_idem, ← hpid, Function.update_eq_self]
  exact { h with children := hreaped }

/-! ## The client -/

theorem wp_hostClientId {s : Os} {outsz : Nat} {Q : CStr → Os → Prop} {D : Os → Prop}
    (h : ∀ hostname, Q (Anticheat.acReportClientId none hostname outsz) s) :
    machine.wp (hostClientId outsz) Q D s := by
  apply wp_bind.2
  apply wp_gethostname
  intro hostname
  have hid := h hostname
  match hostname with
  | none => exact hid
  | some [] => exact hid
  | some (c :: name) => exact hid

/-- A file without a line that has text is as good as none. -/
theorem acReportClientId_of_no_line {machineId : Option (List UInt8)} {outsz : Nat}
    (hline : (machineId.bind (CStr.fgets outsz)).map stripLineEnd = none ∨
      (machineId.bind (CStr.fgets outsz)).map stripLineEnd = some []) (hostname : Option CStr) :
    Anticheat.acReportClientId none hostname outsz =
      Anticheat.acReportClientId machineId hostname outsz := by
  unfold Anticheat.acReportClientId
  rcases hline with hline | hline
  · rw [hline]
    rfl
  · rw [hline]
    rfl

theorem wp_lineClientId {s : Os} {f : Fd} {outsz : Nat} {text : List UInt8} {flags : BitVec 32}
    {Q : CStr → Os → Prop} {D : Os → Prop} (machineId : Option (List UInt8))
    (hf : s.fds f = some ⟨.file text, flags⟩)
    (h : ∀ hostname, Q (Anticheat.acReportClientId machineId hostname outsz) (s.setFd f none)) :
    machine.wp (lineClientId f outsz (machineId.bind (CStr.fgets outsz))) Q D s := by
  unfold lineClientId
  match hline : (machineId.bind (CStr.fgets outsz)).map stripLineEnd with
  | none =>
      apply wp_bind.2
      apply wp_fclose hf
      apply wp_hostClientId
      intro hostname
      rw [acReportClientId_of_no_line (Or.inl hline)]
      exact h hostname
  | some [] =>
      apply wp_bind.2
      apply wp_fclose hf
      apply wp_hostClientId
      intro hostname
      rw [acReportClientId_of_no_line (Or.inr hline)]
      exact h hostname
  | some (c :: line) =>
      apply wp_bind.2
      apply wp_fclose hf
      have hid := h none
      simp only [Anticheat.acReportClientId, hline] at hid
      exact hid

/-- The client's id is that of what was read, and the file has been closed. -/
theorem wp_acReportClientId {s : Os} {outsz : Nat} {Q : CStr → Os → Prop} {D : Os → Prop}
    (h : ∀ machineId hostname, Q (Anticheat.acReportClientId machineId hostname outsz) s) :
    machine.wp (acReportClientId outsz) Q D s := by
  apply wp_bind.2
  apply wp_fopen
  · exact wp_hostClientId (h none)
  · intro f text hf
    have hclosed : (s.setFd f (some ⟨.file text, 0⟩)).setFd f none = s := by
      rw [Os.setFd_setFd, Os.setFd_of_fds hf]
    apply wp_bind.2
    apply wp_fgets (Os.setFd_fds s f _)
    · apply wp_lineClientId none (Os.setFd_fds s f _)
      rw [hclosed]
      exact h none
    · apply wp_lineClientId (some text) (Os.setFd_fds s f _)
      rw [hclosed]
      exact h (some text)

/-! ## Addresses -/

/-- The division of C rounds up below zero. -/
theorem tdiv_mul_lt (x : Int) : x.tdiv 1000000 * 1000000 < x + 1000000 := by
  have hparts := Int.mul_tdiv_add_tmod x 1000000
  have hrest := Int.lt_tmod_of_pos x (show (0 : Int) < 1000000 by decide)
  omega

/-- What is left of the time at some reading of the clock, up to a millisecond. -/
theorem remainingMs_lt (start ns : Int) (timeoutSec : Nat) :
    remainingMs (deadlineAfter (timespecOfNs start) timeoutSec) (timespecOfNs ns) * 1000000 <
      start + timeoutSec * 1000000000 - ns + 1000000 := by
  have hround := tdiv_mul_lt (start % 1000000000 - ns % 1000000000)
  simp only [remainingMs, deadlineAfter, timespecOfNs]
  omega

/-- A number that fits into an `int` is converted to itself. -/
theorem toCInt_of_lt {x : Int} (hpos : 0 ≤ x) (hlt : x < 2 ^ 31) : toCInt x = x := by
  rw [toCInt, BitVec.toInt_ofInt]
  apply Int.bmod_eq_of_le
  · omega
  · omega

/-- The time left until the deadline fits into an `int`, if the timeout does. -/
theorem toCInt_remainingMs {start ns : Int} {timeoutSec : Nat} (htimeout : timeoutSec * 1000 < 2 ^ 31)
    (hns : start ≤ ns)
    (hpos : ¬remainingMs (deadlineAfter (timespecOfNs start) timeoutSec) (timespecOfNs ns) ≤ 0) :
    toCInt (remainingMs (deadlineAfter (timespecOfNs start) timeoutSec) (timespecOfNs ns)) =
      remainingMs (deadlineAfter (timespecOfNs start) timeoutSec) (timespecOfNs ns) := by
  have hleft := remainingMs_lt start ns timeoutSec
  apply toCInt_of_lt
  · omega
  · omega

/-! ### What is heard in the model -/

/-- What a turn of the loop hears, as far as it gets. -/
def turnHeard (deadline : Timespec) (t : ResolveTurn) : List Heard :=
  .clock t.now ::
    if remainingMs deadline t.now ≤ 0 then []
    else .polled t.poll :: if t.poll ≤ 0 then [] else [.took t.read]

/-- What `resolveLoop` hears. -/
def loopHeard (max : Int) (deadline : Timespec) (turns : Nat → ResolveTurn) :
    Nat → Nat → ResolveState → List Heard
  | 0, _, _ => []
  | fuel + 1, i, s =>
      if (s.out.length : Int) < max then
        turnHeard deadline (turns i) ++
          match s.turn deadline (turns i) with
          | .error _ => []
          | .ok s' => loopHeard max deadline turns fuel (i + 1) s'
      else []

/-- What a call hears in an environment: what its child will write, the time at the start, and what
the turns of its loop hear. -/
def envHeard (fuel : Nat) (env : ResolveEnv) (max timeoutSec : Int) : List Heard :=
  if !env.pipeOk then []
  else .stream env.stream ::
    if !env.forkOk then []
    else .clock env.start ::
      loopHeard max (env.deadline timeoutSec) env.turns fuel 0 ⟨[], env.buf, 0, env.stream⟩

/-- The parent with what is still to come through the pipe. -/
def ResolveBuf.state (st : ResolveBuf) (pipe : List UInt8) : ResolveState :=
  ⟨st.out, st.buf, st.filled, pipe⟩

theorem resolveLoop_congr {max : Int} {deadline : Timespec} {turns turns' : Nat → ResolveTurn}
    {fuel i : Nat} {s : ResolveState} (h : ∀ j, i ≤ j → turns j = turns' j) :
    resolveLoop max deadline turns fuel i s = resolveLoop max deadline turns' fuel i s ∧
      loopHeard max deadline turns fuel i s = loopHeard max deadline turns' fuel i s := by
  induction fuel generalizing i s with
  | zero => exact ⟨rfl, rfl⟩
  | succ fuel ih =>
      rw [resolveLoop, resolveLoop, loopHeard, loopHeard, h i (Nat.le_refl i)]
      split
      · cases s.turn deadline (turns' i) with
        | error stop => exact ⟨rfl, rfl⟩
        | ok s' =>
            have hrest := ih (s := s') fun j hj => h j (Nat.le_of_succ_le hj)
            exact ⟨hrest.1, congrArg _ hrest.2⟩
      · exact ⟨rfl, rfl⟩

/-- The loop stores these records when its turns hear this. -/
def Collects (max : Nat) (deadline : Timespec) (fuel i : Nat) (s : ResolveState)
    (heard : List Heard) (out : List (List UInt8)) : Prop :=
  ∃ turns stop s', resolveLoop max deadline turns fuel i s = some (stop, s') ∧ s'.out = out ∧
    heard = loopHeard max deadline turns fuel i s

section Collects

variable {max fuel i : Nat} {deadline : Timespec} {s s' : ResolveState} {t : ResolveTurn}
  {heard : List Heard} {out : List (List UInt8)}

theorem Collects.full (hroom : ¬s.out.length < max) :
    Collects max deadline (fuel + 1) i s [] s.out := by
  refine ⟨fun _ => ⟨⟨0, 0⟩, 0, none⟩, .full, s, ?_, rfl, ?_⟩
  · rw [resolveLoop, if_neg (by omega)]
  · rw [loopHeard, if_neg (by omega)]

theorem Collects.stop {stop : ResolveStop} (hroom : s.out.length < max)
    (hturn : s.turn deadline t = .error stop) (hheard : heard = turnHeard deadline t) :
    Collects max deadline (fuel + 1) i s heard s.out := by
  refine ⟨fun _ => t, stop, s, ?_, rfl, ?_⟩
  · rw [resolveLoop, if_pos (by omega), hturn]
  · rw [loopHeard, if_pos (by omega), hturn, List.append_nil, hheard]

theorem Collects.turn (hroom : s.out.length < max) (hturn : s.turn deadline t = .ok s')
    (h : Collects max deadline fuel (i + 1) s' heard out) :
    Collects max deadline (fuel + 1) i s (turnHeard deadline t ++ heard) out := by
  rcases h with ⟨turns, stop, s'', hloop, hout, hheard⟩
  have hsame : ∀ j, i + 1 ≤ j → Function.update turns i t j = turns j := by
    intro j hj
    exact Function.update_of_ne (show j ≠ i by omega) t turns
  refine ⟨Function.update turns i t, stop, s'', ?_, hout, ?_⟩
  · rw [resolveLoop, if_pos (by omega), Function.update_self, hturn, ← hloop]
    exact (resolveLoop_congr hsame).1
  · rw [loopHeard, if_pos (by omega), Function.update_self, hturn, hheard]
    exact congrArg _ (resolveLoop_congr hsame).2.symm

end Collects

section Turn

variable {st : ResolveBuf} {stream bytes : List UInt8} {deadline now : Timespec} {rc : Int}
  {most : ℕ+}

theorem turn_deadline {t : ResolveTurn} (h : remainingMs deadline t.now ≤ 0) :
    (st.state stream).turn deadline t = .error .deadline := by
  rw [ResolveState.turn, if_pos h]

theorem turn_poll {t : ResolveTurn} (h : ¬remainingMs deadline t.now ≤ 0) (hpoll : t.poll ≤ 0) :
    (st.state stream).turn deadline t = .error .poll := by
  rw [ResolveState.turn, if_neg h, if_pos hpoll]

theorem turn_read (h : ¬remainingMs deadline now ≤ 0) (hpoll : ¬rc ≤ 0) :
    (st.state stream).turn deadline ⟨now, rc, none⟩ = .error .read := by
  rw [ResolveState.turn, if_neg h, if_neg hpoll]

theorem turn_childDone (h : ¬remainingMs deadline now ≤ 0) (hpoll : ¬rc ≤ 0)
    (hbytes : stream.take (min most (acResolvedAddrSize - st.filled)) = []) :
    (st.state stream).turn deadline ⟨now, rc, some most⟩ = .error .childDone := by
  rw [ResolveState.turn, if_neg h, if_neg hpoll]
  simp only [ResolveBuf.state, hbytes, if_true]

/-- What `read` leaves in the pipe. -/
theorem drop_of_take_eq {n : Nat} (h : stream.take n = bytes) :
    stream.drop bytes.length = stream.drop n := by
  rw [← h, List.length_take]
  rcases Nat.le_total n stream.length with hle | hle
  · rw [Nat.min_eq_left hle]
  · rw [Nat.min_eq_right hle, List.drop_length, List.drop_of_length_le hle]

theorem turn_ok (h : ¬remainingMs deadline now ≤ 0) (hpoll : ¬rc ≤ 0)
    (hbytes : stream.take (min most (acResolvedAddrSize - st.filled)) = bytes)
    (hne : bytes ≠ []) :
    (st.state stream).turn deadline ⟨now, rc, some most⟩ =
      .ok ((st.take bytes).state (stream.drop (min most (acResolvedAddrSize - st.filled)))) := by
  rw [ResolveState.turn, if_neg h, if_neg hpoll]
  simp only [ResolveBuf.state, hbytes, if_neg hne, ResolveBuf.take, drop_of_take_eq hbytes]
  split
  · rfl
  · rfl

end Turn

/-- The bytes that the loop can still read. -/
def ResolveBuf.room (st : ResolveBuf) (max : Nat) : Nat :=
  (max - st.out.length) * acResolvedAddrSize - st.filled

theorem ResolveBuf.take_room {st : ResolveBuf} {bytes : List UInt8} {max : Nat}
    (hroom : st.out.length < max) (hfilled : st.filled < acResolvedAddrSize) (hne : bytes ≠ [])
    (hlength : bytes.length ≤ acResolvedAddrSize - st.filled) :
    (st.take bytes).filled < acResolvedAddrSize ∧ (st.take bytes).room max < st.room max := by
  have hpos := List.length_pos_of_ne_nil hne
  by_cases hfull : st.filled + bytes.length = acResolvedAddrSize
  · simp only [ResolveBuf.take, if_pos hfull, ResolveBuf.room, List.length_append,
      List.length_singleton]
    simp only [acResolvedAddrSize, sockaddrStorageSize] at *
    omega
  · simp only [ResolveBuf.take, if_neg hfull, ResolveBuf.room]
    simp only [acResolvedAddrSize, sockaddrStorageSize] at *
    omega

/-- Time has passed, something may have been read from the pipe, and this has been heard. -/
structure Os.Drained (s s' : Os) (rd : Fd) (flags : BitVec 32) (most : Int) (heard : List Heard) :
    Prop where
  passed : ∃ stream ready, (s.setFd rd (some ⟨.pipeIn stream ready, flags⟩)).Passed s' most
  heard_eq : s'.heard = s.heard ++ heard

section Drained

variable {s s' : Os} {rd : Fd} {flags : BitVec 32} {clock waited m n : Int}
  {heard more : List Heard}

theorem Os.Drained.set (stream : List UInt8) (ready : Bool) (h : waited ≤ s.waited + m) :
    s.Drained (((s.hear heard).later clock waited).setFd rd
      (some ⟨.pipeIn stream ready, flags⟩)) rd flags m heard where
  passed := ⟨stream, ready, ((Os.Passed.refl (s.setFd rd _)).hear heard).later h⟩
  heard_eq := rfl

theorem Os.Drained.later {stream : List UInt8} {ready : Bool}
    (hrd : s.fds rd = some ⟨.pipeIn stream ready, flags⟩) (h : waited ≤ s.waited + m) :
    s.Drained ((s.hear heard).later clock waited) rd flags m heard where
  passed := by
    refine ⟨stream, ready, ?_⟩
    rw [Os.setFd_of_fds hrd]
    exact ((Os.Passed.refl s).hear heard).later h
  heard_eq := rfl

theorem Os.Drained.trans {d : Option Descriptor}
    (h : (((s.hear heard).later clock waited).setFd rd d).Drained s' rd flags n more)
    (hm : waited + n ≤ s.waited + m) : s.Drained s' rd flags m (heard ++ more) where
  passed := by
    rcases h.passed with ⟨stream, ready, hpassed⟩
    rw [Os.setFd_setFd] at hpassed
    have hthen : (s.setFd rd (some ⟨.pipeIn stream ready, flags⟩)).Passed
        (((s.hear heard).later clock waited).setFd rd (some ⟨.pipeIn stream ready, flags⟩))
        (waited - s.waited) := by
      apply ((Os.Passed.refl (s.setFd rd _)).hear heard).later
      simp only [Os.setFd_waited, Os.later_waited]
      omega
    exact ⟨stream, ready, (hthen.trans hpassed).mono (by omega)⟩
  heard_eq := by
    rw [h.heard_eq, ← List.append_assoc]
    rfl

end Drained

/-- The loop of the parent waits until the deadline at most, and a millisecond longer, and stores
what `resolveLoop` stores when it hears the same. -/
theorem wp_readRecords {s : Os} {rd : Fd} {max timeoutSec fuel : Nat} {start : Int}
    {st : ResolveBuf} {stream : List UInt8} {ready : Bool} {flags : BitVec 32} {D : Os → Prop}
    (i : Nat) (before : Int) (hrd : s.fds rd = some ⟨.pipeIn stream ready, flags⟩)
    (hfilled : st.filled < acResolvedAddrSize) (hfuel : st.room max < fuel)
    (htimeout : timeoutSec * 1000 < 2 ^ 31) (hbefore : before ≤ s.waited)
    (hclock : s.waited - before ≤ s.clock - start)
    (hwaited : s.waited ≤ before + (timeoutSec * 1000000000 + 999999)) :
    machine.wp (readRecords rd max (deadlineAfter (timespecOfNs start) timeoutSec) fuel st)
      (fun out s' => ∃ heard,
        s.Drained s' rd flags (before + (timeoutSec * 1000000000 + 999999) - s.waited) heard ∧
        Collects max (deadlineAfter (timespecOfNs start) timeoutSec) fuel i (st.state stream)
          heard out) D s := by
  -- `hclock` carries the bound: the clock has moved on by what was waited, at least, so that the
  -- time left at its next reading is what may still be waited
  induction fuel generalizing s st stream ready i with
  | zero => exact absurd hfuel (Nat.not_lt_zero _)
  | succ fuel ih =>
      unfold readRecords
      by_cases hroom : st.out.length < max
      · rw [if_pos hroom]
        apply wp_bind.2
        apply wp_clockGettime
        intro ns hns
        have hleft := remainingMs_lt start ns timeoutSec
        by_cases hlate :
            remainingMs (deadlineAfter (timespecOfNs start) timeoutSec) (timespecOfNs ns) ≤ 0
        · rw [if_pos hlate]
          refine ⟨_, .later hrd (by omega),
            Collects.stop (t := ⟨timespecOfNs ns, 0, none⟩) hroom (turn_deadline hlate) ?_⟩
          rw [turnHeard, if_pos hlate]
        · rw [if_neg hlate, toCInt_remainingMs htimeout (by omega) hlate]
          apply wp_bind.2
          apply wp_poll_pipe (show (((s.hear _).later ns s.waited).fds rd) = _ from hrd) (by omega)
          intro rc wait hwait hmost
          rw [Os.later_hear, Os.later_later, Os.hear_hear, Os.later_clock, Os.later_waited]
          have hthen : s.waited + wait ≤ before + (timeoutSec * 1000000000 + 999999) := by omega
          by_cases hpoll : rc ≤ 0
          · rw [if_pos hpoll]
            refine ⟨_, .set stream _ (by omega),
              Collects.stop (t := ⟨timespecOfNs ns, rc, none⟩) hroom (turn_poll hlate hpoll) ?_⟩
            rw [turnHeard, if_neg hlate, if_pos hpoll]
            rfl
          · rw [if_neg hpoll, decide_eq_true (show 0 < rc by omega)]
            have hheard (most : Option ℕ+) :
                [.clock (timespecOfNs ns)] ++ [.polled rc] ++ [.took most] =
                  turnHeard (deadlineAfter (timespecOfNs start) timeoutSec)
                    ⟨timespecOfNs ns, rc, most⟩ := by
              rw [turnHeard, if_neg hlate, if_neg hpoll]
              rfl
            apply wp_bind.2
            apply wp_read_pipe (Os.setFd_fds _ rd _) (Nat.sub_pos_of_lt hfilled)
            · rw [Os.setFd_hear, Os.later_hear, Os.hear_hear]
              exact ⟨_, .set stream true (by omega),
                Collects.stop hroom (turn_read hlate hpoll) (hheard none)⟩
            · intro most
              rw [Os.setFd_hear, Os.later_hear, Os.hear_hear, Os.setFd_setFd, hheard (some most)]
              match hbytes : stream.take (min most (acResolvedAddrSize - st.filled)) with
              | [] =>
                  exact ⟨_, .set _ false (by omega),
                    Collects.stop hroom (turn_childDone hlate hpoll hbytes) rfl⟩
              | b :: bytes =>
                  have hlength : (b :: bytes).length ≤ acResolvedAddrSize - st.filled := by
                    rw [← hbytes, List.length_take]
                    omega
                  rcases st.take_room hroom hfilled (List.cons_ne_nil b bytes) hlength with
                    ⟨hfilled', hroom'⟩
                  refine wp_mono (ih (i + 1) (Os.setFd_fds _ rd _) hfilled' (by omega) ?_ ?_ hthen)
                    ?_ fun _ => id
                  · rw [Os.setFd_waited, Os.later_waited]
                    omega
                  · rw [Os.setFd_waited, Os.setFd_clock, Os.later_waited, Os.later_clock]
                    omega
                  · rintro out s' ⟨heard, hdrained, hcollects⟩
                    refine ⟨_, hdrained.trans ?_,
                      hcollects.turn hroom (turn_ok hlate hpoll hbytes (List.cons_ne_nil b bytes))⟩
                    rw [Os.setFd_waited, Os.later_waited]
                    omega
      · rw [if_neg hroom]
        refine ⟨[], ⟨⟨stream, ready, ?_⟩, (List.append_nil _).symm⟩, Collects.full hroom⟩
        rw [Os.setFd_of_fds hrd]
        exact (Os.Passed.refl s).mono (by omega)

theorem length_resolveLoop_le {max : Int} {deadline : Timespec} {turns : Nat → ResolveTurn}
    {fuel i : Nat} {s s' : ResolveState} {stop : ResolveStop} (hmax : (s.out.length : Int) ≤ max)
    (h : resolveLoop max deadline turns fuel i s = some (stop, s')) :
    (s'.out.length : Int) ≤ max := by
  induction fuel generalizing i s with
  | zero => cases h
  | succ fuel ih =>
      rw [resolveLoop] at h
      by_cases hroom : (s.out.length : Int) < max
      · rw [if_pos hroom] at h
        cases hturn : s.turn deadline (turns i) with
        | error stop' =>
            rw [hturn] at h
            cases h
            exact hmax
        | ok t =>
            rw [hturn] at h
            refine ih ?_ h
            rcases ResolveState.turn_ok hturn with ⟨_, -, -, -, -, ⟨-, -, hout⟩ | ⟨-, -, hout⟩⟩
            · rw [hout, List.length_append, List.length_singleton]
              push_cast
              omega
            · rw [hout]
              exact hmax
      · rw [if_neg hroom] at h
        cases h
        exact hmax

/-- What `ac_resolve_timeout` returns for a result of its model: nothing for -1. -/
def resolvedAddrs (r : Resolved) : Option (List (List UInt8)) :=
  if r.ret < 0 then none else some r.out

/-- The function returns what its model returns in an environment in which it hears this. -/
def Resolves (buf : CharArray acResolvedAddrSize) (max timeoutSec : Nat) (heard : List Heard)
    (addrs : Option (List (List UInt8))) : Prop :=
  ∃ env fuel r, env.buf = buf ∧ Anticheat.acResolveTimeout fuel env max timeoutSec = some r ∧
    addrs = resolvedAddrs r ∧ heard = envHeard fuel env max timeoutSec

/-- There was no pipe. -/
theorem resolves_without_pipe (buf : CharArray acResolvedAddrSize) (max timeoutSec : Nat) :
    Resolves buf max timeoutSec [] none :=
  ⟨⟨false, false, none, fun _ => none, ⟨0, 0⟩, fun _ => ⟨⟨0, 0⟩, 0, none⟩, buf⟩, 0, _, rfl, rfl,
    rfl, rfl⟩

theorem ResolveEnv.stream_eq (env : ResolveEnv) :
    env.stream = (env.getaddrinfo.map (childLoop env.writes 0)).getD [] := by
  unfold ResolveEnv.stream
  cases env.getaddrinfo with
  | none => rfl
  | some infos => rfl

/-- There was no child. -/
theorem resolves_without_child (buf : CharArray acResolvedAddrSize) (max timeoutSec : Nat)
    {stream : List UInt8} (hstream : ChildStream stream) :
    Resolves buf max timeoutSec [.stream stream] none := by
  rcases hstream with ⟨found, writes, rfl⟩
  refine ⟨⟨true, false, found, writes, ⟨0, 0⟩, fun _ => ⟨⟨0, 0⟩, 0, none⟩, buf⟩, 0, _, rfl, rfl, rfl,
    ?_⟩
  simp [envHeard, ResolveEnv.stream_eq]

theorem Collects.resolves {buf : CharArray acResolvedAddrSize} {max timeoutSec fuel : Nat}
    {start : Timespec} {stream : List UInt8} {heard : List Heard} {out : List (List UInt8)}
    (hstream : ChildStream stream)
    (h : Collects max (deadlineAfter start timeoutSec) fuel 0
      ((⟨[], buf, 0⟩ : ResolveBuf).state stream) heard out) :
    Resolves buf max timeoutSec ([.stream stream] ++ ([.clock start] ++ heard)) (some out) := by
  rcases hstream with ⟨found, writes, rfl⟩
  rcases h with ⟨turns, stop, s', hloop, rfl, rfl⟩
  have hchild := ResolveEnv.stream_eq ⟨true, true, found, writes, start, turns, buf⟩
  refine ⟨⟨true, true, found, writes, start, turns, buf⟩, fuel, ⟨s'.out.length, s'.out, stop⟩, rfl,
    ?_, ?_, ?_⟩
  · rw [Anticheat.acResolveTimeout, if_neg (by simp), if_neg (by simp), hchild]
    exact congrArg (Option.map _) hloop
  · rw [resolvedAddrs, if_neg (by simp)]
  · rw [envHeard, if_neg (by simp), if_neg (by simp), hchild]
    rfl

theorem Resolves.length_le {buf : CharArray acResolvedAddrSize} {max timeoutSec : Nat}
    {heard : List Heard} {addrs : List (List UInt8)}
    (h : Resolves buf max timeoutSec heard (some addrs)) : addrs.length ≤ max := by
  rcases h with ⟨env, fuel, r, -, hr, haddrs, -⟩
  rw [resolvedAddrs] at haddrs
  split at haddrs
  · cases haddrs
  · cases haddrs
    unfold Anticheat.acResolveTimeout at hr
    split at hr
    · cases hr
      exact Nat.zero_le _
    · split at hr
      · cases hr
        exact Nat.zero_le _
      · rcases Option.map_eq_some_iff.1 hr with ⟨⟨stop, s'⟩, hloop, rfl⟩
        have hle := length_resolveLoop_le (by simp) hloop
        exact Int.ofNat_le.1 hle

/-- The parent collects what `resolveLoop` stores when it hears the same.  It reads until shortly
after the deadline at most, closes its end of the pipe and waits for the child. -/
theorem wp_resolveParent {s : Os} {buf : CharArray acResolvedAddrSize} {max timeoutSec : Nat}
    {rd wr : Fd} {pid : Pid} {stream : List UInt8} {D : Os → Prop}
    (htimeout : timeoutSec * 1000 < 2 ^ 31) (hrd : s.fds rd = none) (hwr : s.fds wr = none)
    (hne : rd ≠ wr) (hpid : s.children pid = none) (hstream : ChildStream stream) :
    machine.wp (resolveParent buf max timeoutSec rd wr pid)
      (fun out s' => s.Passed s' (timeoutSec * 1000000000 + 999999) ∧
        ∃ heard, s'.heard = s.heard ++ heard ∧
          Resolves buf max timeoutSec ([.stream stream] ++ heard) (some out)) D
      (((s.setChild pid (some .running)).setFd rd (some ⟨.pipeIn stream false, 0⟩)).setFd wr
        (some ⟨.pipeOut, 1⟩)) := by
  have hclosed (d : Descriptor) : (((s.setChild pid (some .running)).setFd rd
      (some ⟨.pipeIn stream false, 0⟩)).setFd wr (some d)).setFd wr none =
        (s.setChild pid (some .running)).setFd rd (some ⟨.pipeIn stream false, 0⟩) := by
    rw [Os.setFd_setFd, Os.setFd_of_fds]
    rw [Os.setFd_fds_of_ne hne.symm]
    exact hwr
  apply wp_bind.2
  apply wp_close (Os.setFd_fds _ wr _) (by simp)
  rw [hclosed]
  apply wp_bind.2
  apply wp_clockGettime
  intro start _
  -- the parent with its end of the pipe, seen as the pipe opened in a process with the child
  change machine.wp _ _ _ (((((s.setChild pid (some .running)).hear [.clock (timespecOfNs start)])
    ).later start s.waited).setFd rd (some ⟨.pipeIn stream false, 0⟩))
  apply wp_bind_of (D := D) (wp_readRecords 0 s.waited (Os.setFd_fds _ rd _)
    (show 0 < acResolvedAddrSize by decide) (by simp [ResolveBuf.room]) htimeout (by simp)
    (by simp) (by rw [Os.setFd_waited, Os.later_waited]; omega)) ?_ fun _ => id
  rintro out s' ⟨heard, hdrained, hcollects⟩
  rcases hdrained.passed with ⟨stream', ready, hpassed⟩
  rw [Os.setFd_setFd] at hpassed
  have hchild : (s'.setFd rd none).children pid = some .running := by
    rw [show (s'.setFd rd none).children = s'.children from rfl, hpassed.children]
    exact Function.update_self pid _ s.children
  apply wp_bind.2
  apply wp_close hpassed.fds_at (by simp)
  apply wp_bind.2
  apply wp_kill (Option.isSome_of_eq_some hchild)
  apply wp_bind.2
  apply wp_waitpid (Function.update_self pid _ _)
  rw [Os.setChild_setChild]
  refine ⟨?_, [.clock (timespecOfNs start)] ++ heard, ?_, hcollects.resolves hstream⟩
  · have hended := hpassed.closed hrd
    rw [← Os.later_hear] at hended
    apply (hended.of_hear.reaped hpid).mono
    simp
  · exact hdrained.heard_eq.trans (List.append_assoc _ _ _)

/-- The function ends with the descriptors and the children it had, and has waited for little
more than its timeout. -/
theorem wp_acResolveTimeout {s : Os} {buf : CharArray acResolvedAddrSize} {max timeoutSec : Nat}
    {D : Os → Prop} (htimeout : timeoutSec * 1000 < 2 ^ 31) :
    machine.wp (acResolveTimeout buf max timeoutSec)
      (fun r s' => s.Passed s' (timeoutSec * 1000000000 + 999999) ∧
        ∃ heard, s'.heard = s.heard ++ heard ∧ Resolves buf max timeoutSec heard r) D s := by
  have hnothing : s.Passed s (timeoutSec * 1000000000 + 999999) :=
    (Os.Passed.refl s).mono (by omega)
  apply wp_bind.2
  apply wp_pipe
  · exact ⟨hnothing, [], (List.append_nil _).symm, resolves_without_pipe buf max timeoutSec⟩
  · intro rd wr stream hrd hwr hne hstream
    apply wp_bind.2
    apply wp_fork
    · have hgone : ((((s.hear [.stream stream]).setFd rd (some ⟨.pipeIn stream false, 0⟩)).setFd wr
          (some ⟨.pipeOut, 1⟩)).setFd rd none).setFd wr none = s.hear [.stream stream] := by
        rw [Os.setFd_comm hne, Os.setFd_setFd, Os.setFd_comm hne, Os.setFd_setFd,
          Os.setFd_of_fds (s := s.hear _) hwr, Os.setFd_of_fds (s := s.hear _) hrd]
      apply wp_bind.2
      apply wp_close ((Os.setFd_fds_of_ne hne).trans (Os.setFd_fds _ rd _)) (by simp)
      apply wp_bind.2
      apply wp_close ((Os.setFd_fds_of_ne hne.symm).trans (Os.setFd_fds _ wr _)) (by simp)
      rw [hgone]
      exact ⟨hnothing.hear _, [.stream stream], rfl,
        resolves_without_child buf max timeoutSec hstream⟩
    · intro pid hpid
      apply wp_bind.2
      refine wp_mono (wp_resolveParent (s := s.hear [.stream stream]) htimeout hrd hwr hne hpid
        hstream) ?_ fun _ => id
      rintro out s' ⟨hpassed, heard, hheard, hresolves⟩
      exact ⟨hpassed.of_hear, [.stream stream] ++ heard,
        hheard.trans (List.append_assoc _ _ _), hresolves⟩

/-- Call by call the function does what its model says when it hears the same from its pipe, the
clock and `poll`.  It leaves no descriptor and no child behind, reads only when there is something
to read, and waits for a child only once it is killed; no signal ends it. -/
theorem resolve_timeout_refines (s : Os) (buf : CharArray acResolvedAddrSize)
    (max timeoutSec : Nat) (htimeout : timeoutSec * 1000 < 2 ^ 31) :
    machine.Correct (acResolveTimeout buf max timeoutSec) s
      (fun r s' => s.Passed s' (timeoutSec * 1000000000 + 999999) ∧
        ∃ heard, s'.heard = s.heard ++ heard ∧ Resolves buf max timeoutSec heard r)
      (fun _ => False) :=
  Machine.correct_of_wp (wp_acResolveTimeout htimeout)

/-- A daemon with nothing open but the device. -/
def idleDaemon : Os where
  url := some (CStr.ascii "127.0.0.1:8443")
  key := some (CStr.ascii "report")
  sigpipeIgnored := false
  fds := fun fd => if fd = 3 then some ⟨.device, oRdwr⟩ else none
  children := fun _ => none
  clock := 0
  waited := 0
  conns := 0
  piped := []
  heard := []
  wire := []
  stderr := []
  setflRefused := false

theorem idleDaemon_resolves :
    acReportTimeoutSec * 1000 < 2 ^ 31 ∧
      machine.Correct (acResolveTimeout (SlotTable.replicate _ 0) acResolveMax acReportTimeoutSec)
        idleDaemon
        (fun r s' => idleDaemon.Passed s' (acReportTimeoutSec * 1000000000 + 999999) ∧
          ∃ heard, s'.heard = idleDaemon.heard ++ heard ∧
            Resolves (SlotTable.replicate _ 0) acResolveMax acReportTimeoutSec heard r)
        (fun _ => False) :=
  ⟨by decide, resolve_timeout_refines idleDaemon _ acResolveMax acReportTimeoutSec (by decide)⟩

/-! ## The child -/

theorem childLoop_congr {writes writes' : Writes} {i : Nat} {infos : List AddrInfo}
    (h : ∀ j, i ≤ j → writes j = writes' j) :
    childLoop writes i infos = childLoop writes' i infos := by
  induction infos generalizing i with
  | nil => rfl
  | cons a infos ih =>
      rw [childLoop, childLoop, h i (Nat.le_refl i), ih h,
        ih fun j hj => h j (Nat.le_of_succ_le hj)]

theorem Os.writePipe_nil (s : Os) : s.writePipe [] = s := by
  simp [Os.writePipe]

theorem Os.writePipe_writePipe (s : Os) (bytes more : List UInt8) :
    (s.writePipe bytes).writePipe more = s.writePipe (bytes ++ more) := by
  simp [Os.writePipe]

section ChildLoop

variable {a : AddrInfo} (i : Nat) (infos : List AddrInfo)

theorem childLoop_of_failed (ha : a.addr.length ≤ sockaddrStorageSize) :
    childLoop (fun _ => none) i (a :: infos) = [] := by
  rw [childLoop, if_neg (Nat.not_lt.2 ha)]

theorem childLoop_of_short {n : Nat} (ha : a.addr.length ≤ sockaddrStorageSize)
    (hn : n ≤ acResolvedAddrSize) (hshort : n ≠ acResolvedAddrSize) :
    childLoop (fun _ => some ⟨n, Nat.lt_succ_of_le hn⟩) i (a :: infos) = a.record.take n := by
  rw [childLoop, if_neg (Nat.not_lt.2 ha)]
  exact if_neg hshort

theorem childLoop_of_whole (writes : Writes) (ha : a.addr.length ≤ sockaddrStorageSize) :
    childLoop (Function.update writes i (some (Fin.last acResolvedAddrSize))) i (a :: infos) =
      a.record ++ childLoop writes (i + 1) infos := by
  rw [childLoop, if_neg (Nat.not_lt.2 ha), Function.update_self]
  dsimp only
  rw [if_pos (Fin.val_last _)]
  congr 1
  apply childLoop_congr
  intro j hj
  exact Function.update_of_ne (show j ≠ i by omega) _ writes

end ChildLoop

/-- The loop writes what `childLoop` says for some results of `write`; a signal that ends the child
is as good as a write that fails. -/
theorem wp_childWrites {s : Os} {wr : Fd} {flags : BitVec 32} {infos : List AddrInfo}
    {D : Os → Prop} (i : Nat) (hwr : s.fds wr = some ⟨.pipeOut, flags⟩)
    (hkill : s.sigpipeIgnored = false → ∀ writes, D (s.writePipe (childLoop writes i infos))) :
    machine.wp (childWrites wr infos)
      (fun _ s' => ∃ writes, s' = s.writePipe (childLoop writes i infos)) D s := by
  -- an address that is too long is passed over without a write, so `i` counts the writes
  induction infos generalizing s i with
  | nil => exact ⟨fun _ => none, s.writePipe_nil.symm⟩
  | cons a infos ih =>
      unfold childWrites
      by_cases hlong : a.addr.length > sockaddrStorageSize
      · have hpassed (writes : Writes) : childLoop writes i (a :: infos) =
            childLoop writes i infos := by
          rw [childLoop, if_pos hlong]
        simp only [hpassed] at hkill ⊢
        rw [if_pos hlong]
        exact ih i hwr hkill
      · rw [if_neg hlong]
        have hfits := Nat.le_of_not_gt hlong
        have hlength := AddrInfo.length_record hfits
        have hnothing : s = s.writePipe (childLoop (fun _ => none) i (a :: infos)) := by
          rw [childLoop_of_failed i infos hfits, Os.writePipe_nil]
        apply wp_bind.2
        apply wp_write_pipe hwr (List.ne_nil_of_length_pos (hlength ▸ acResolvedAddrSize_pos))
        · intro hignored
          rw [hnothing]
          exact hkill hignored _
        · intro text
          exact ⟨fun _ => none, hnothing⟩
        · intro n hn
          rw [hlength] at hn
          dsimp only
          by_cases hwhole : n = acResolvedAddrSize
          · have hgoes (writes : Writes) : (s.writePipe a.record).writePipe
                (childLoop writes (i + 1) infos) = s.writePipe (childLoop
                  (Function.update writes i (some (Fin.last acResolvedAddrSize))) i
                  (a :: infos)) := by
              rw [childLoop_of_whole i infos writes hfits, Os.writePipe_writePipe]
            rw [if_pos hwhole, hwhole, ← hlength, List.take_length]
            refine wp_mono (ih (i + 1) hwr fun hignored writes => ?_) ?_ fun _ => id
            · rw [hgoes]
              exact hkill hignored _
            · rintro _ s' ⟨writes, rfl⟩
              exact ⟨_, hgoes writes⟩
          · rw [if_neg hwhole]
            exact ⟨_, congrArg s.writePipe (childLoop_of_short i infos hfits hn hwhole).symm⟩

theorem wp_childReports {s : Os} {wr : Fd} {flags : BitVec 32} {found : Option (List AddrInfo)}
    {D : Os → Prop} (hwr : s.fds wr = some ⟨.pipeOut, flags⟩)
    (hkill : s.sigpipeIgnored = false → ∀ stream, ChildStream stream → D (s.writePipe stream)) :
    machine.wp (childReports wr found)
      (fun _ s' => ∃ stream, ChildStream stream ∧ s' = s.writePipe stream) D s := by
  cases found with
  | none => exact ⟨[], ⟨none, fun _ => none, rfl⟩, s.writePipe_nil.symm⟩
  | some infos =>
      refine wp_mono (wp_childWrites 0 hwr fun hignored writes =>
        hkill hignored _ ⟨some infos, writes, rfl⟩) ?_ fun _ => id
      rintro _ s' ⟨writes, rfl⟩
      exact ⟨_, ⟨some infos, writes, rfl⟩, rfl⟩

/-- The device is open on `dev_fd`, and on no other descriptor. -/
def Os.DeviceOn (s : Os) (devFd : Option Fd) : Prop :=
  ∀ fd, (∃ flags, s.fds fd = some ⟨.device, flags⟩) ↔ devFd = some fd

theorem wp_closeDevice {s : Os} {devFd : Option Fd} {wr : Fd} {flags : BitVec 32}
    {D : Os → Prop} (hdevice : s.DeviceOn devFd) (hwr : s.fds wr = some ⟨.pipeOut, flags⟩) :
    machine.wp (closeDevice devFd)
      (fun _ s' => s'.piped = s.piped ∧ s'.sigpipeIgnored = s.sigpipeIgnored ∧
        s'.fds wr = some ⟨.pipeOut, flags⟩ ∧ s'.DeviceOn none) D s := by
  cases devFd with
  | none => exact ⟨rfl, rfl, hwr, hdevice⟩
  | some devFd =>
      rcases (hdevice devFd).2 rfl with ⟨devFlags, hopen⟩
      have hne : wr ≠ devFd := by
        rintro rfl
        rw [hwr] at hopen
        cases hopen
      apply wp_close hopen (by simp)
      refine ⟨rfl, rfl, (Os.setFd_fds_of_ne hne).trans hwr, fun fd => ⟨?_, by simp⟩⟩
      rintro ⟨flags', hfd⟩
      by_cases heq : fd = devFd
      · rw [heq, Os.setFd_fds] at hfd
        cases hfd
      · rw [Os.setFd_fds_of_ne heq] at hfd
        exact absurd (Option.some.inj ((hdevice fd).1 ⟨flags', hfd⟩)).symm heq

theorem Os.DeviceOn.setFd_none {s : Os} {devFd : Option Fd} {fd : Fd} (h : s.DeviceOn devFd)
    (hfd : devFd ≠ some fd) : (s.setFd fd none).DeviceOn devFd := by
  intro fd'
  by_cases heq : fd' = fd
  · rw [heq, Os.setFd_fds]
    refine ⟨?_, fun hdev => absurd hdev hfd⟩
    rintro ⟨flags, hnone⟩
    cases hnone
  · rw [Os.setFd_fds_of_ne heq]
    exact h fd'

/-- The child that resolves a host closes the device before it does, so that it does not keep the
module loaded however long that takes.  What it writes is a stream as the parent takes it for, also
when the parent no longer reads and a signal ends it. -/
theorem resolve_child_holds_no_device {s : Os} {devFd : Option Fd} {rd wr : Fd}
    {stream : List UInt8} {ready : Bool} {rdFlags wrFlags : BitVec 32} (host port : CStr)
    (hrd : s.fds rd = some ⟨.pipeIn stream ready, rdFlags⟩)
    (hwr : s.fds wr = some ⟨.pipeOut, wrFlags⟩) (hdevice : s.DeviceOn devFd) :
    machine.Correct (resolveChild devFd rd wr host port) s
      (fun _ s' => s'.fds wr = none ∧
        ∃ written, ChildStream written ∧ s'.piped = s.piped ++ written)
      (fun s' => s.sigpipeIgnored = false ∧ s'.DeviceOn none ∧
        ∃ written, ChildStream written ∧ s'.piped = s.piped ++ written) := by
  apply Machine.correct_of_wp
  have hne : wr ≠ rd := by
    rintro rfl
    rw [hwr] at hrd
    cases hrd
  have hnotDevice : devFd ≠ some rd := by
    intro hdev
    rcases (hdevice rd).2 hdev with ⟨flags, hopen⟩
    rw [hrd] at hopen
    cases hopen
  apply wp_bind.2
  apply wp_close hrd (by simp)
  apply wp_bind_of (wp_closeDevice (hdevice.setFd_none hnotDevice)
    ((Os.setFd_fds_of_ne hne).trans hwr)) ?_ fun _ => id
  rintro _ s₁ ⟨hpiped, hsigpipe, hwr₁, hgone⟩
  have hwritten (written : List UInt8) : (s₁.writePipe written).piped = s.piped ++ written :=
    congrArg (· ++ written) hpiped
  apply wp_bind.2
  apply wp_getaddrinfo
  · intro fd flags hfd
    exact Option.some_ne_none fd ((hgone fd).1 ⟨flags, hfd⟩).symm
  · intro found
    apply wp_bind_of (wp_childReports hwr₁ ?_) ?_ fun _ => id
    · intro hignored written hstream
      exact ⟨hsigpipe.symm.trans hignored, hgone, written, hstream, hwritten written⟩
    · rintro _ s₂ ⟨written, hstream, rfl⟩
      apply wp_close (show (s₁.writePipe written).fds wr = _ from hwr₁) (by simp)
      exact ⟨Os.setFd_fds _ wr _, written, hstream, hwritten written⟩

/-- A child with the device and the two ends of the pipe. -/
def forkedChild : Os :=
  (idleDaemon.setFd 5 (some ⟨.pipeIn [] false, 0⟩)).setFd 6 (some ⟨.pipeOut, 1⟩)

theorem forkedChild_deviceOn : forkedChild.DeviceOn (some 3) := by
  intro fd
  simp only [forkedChild, idleDaemon, Os.setFd, Function.update_apply]
  constructor
  · rintro ⟨flags, hfd⟩
    split_ifs at hfd with hwr hrd hdevice
    · cases hfd
    · cases hfd
    · rw [hdevice]
  · intro hfd
    cases hfd
    exact ⟨oRdwr, rfl⟩

theorem forkedChild_holds_no_device :
    machine.Correct (resolveChild (some 3) 5 6 (CStr.ascii "localhost") (CStr.ascii "8080"))
      forkedChild
      (fun _ s' => s'.fds 6 = none ∧
        ∃ written, ChildStream written ∧ s'.piped = forkedChild.piped ++ written)
      (fun s' => forkedChild.sigpipeIgnored = false ∧ s'.DeviceOn none ∧
        ∃ written, ChildStream written ∧ s'.piped = forkedChild.piped ++ written) :=
  resolve_child_holds_no_device _ _ rfl rfl forkedChild_deviceOn

end Sys

end Anticheat
