import Mathlib.Data.PNat.Basic
import Anticheat.Foundation.Bytes
import Anticheat.Foundation.RawMemory
import Anticheat.Foundation.RecordStream

/-!
# Resolving a host in a child

`ac_resolve_timeout` resolves a host in a child process, so that it can stop waiting.  The
child writes one record for each address to a pipe.  The parent reads until it has as many
records as it has room for, until the child is done, or until a deadline.

A read returns what the pipe has, up to the rest of the current record, so a record can
come in any number of pieces.  The parent collects them in a buffer.

Main results:

- Theorem {lit}`childLoop_isCut`: the child writes whole records, and a piece of one at most
  in the end.
- Theorem {lit}`ResolveState.Inv.turn`: one turn of the loop keeps the record boundaries.
- Theorem {lit}`resolve_reassembles`: however the pipe cuts the stream, the parent stores the
  first records, and all that it has room for unless the deadline or an error intervenes.
-/

namespace Anticheat

open Foundation

/-! ## The child -/

/-- `sizeof(struct sockaddr_storage)` -/
def sockaddrStorageSize : Nat := 128

/-- `sizeof(struct ac_resolved_addr)`: four fields of four bytes, and the address. -/
def acResolvedAddrSize : Nat := 16 + sockaddrStorageSize

theorem acResolvedAddrSize_pos : 0 < acResolvedAddrSize := by
  decide

/-- A `struct addrinfo`, with the `ai_addrlen` bytes of the address. -/
structure AddrInfo where
  family : UInt32
  socktype : UInt32
  protocol : UInt32
  addr : List UInt8
  addrlen_lt : addr.length < 2 ^ 32

/-- `struct ac_resolved_addr`, zeroed before the fields are set. -/
def AddrInfo.record (a : AddrInfo) : List UInt8 :=
  Bytes.le32Bytes a.family ++ Bytes.le32Bytes a.socktype ++ Bytes.le32Bytes a.protocol ++
    Bytes.le32Bytes (UInt32.ofNat a.addr.length) ++
    (a.addr ++ List.replicate (sockaddrStorageSize - a.addr.length) 0)

theorem AddrInfo.length_record {a : AddrInfo} (h : a.addr.length ≤ sockaddrStorageSize) :
    a.record.length = acResolvedAddrSize := by
  simp [AddrInfo.record, acResolvedAddrSize]
  omega

/-- What the calls of `write` in the child return: an error, or the number of bytes
written. -/
abbrev Writes := Nat → Option (Fin (acResolvedAddrSize + 1))

/-- The loop of the child: the bytes that it writes from the call `i` of `write` on. -/
def childLoop (writes : Writes) : Nat → List AddrInfo → List UInt8
  | _, [] => []
  | i, a :: infos =>
      if a.addr.length > sockaddrStorageSize then childLoop writes i infos
      else
        match writes i with
        | none => []
        | some k =>
            if k.val = acResolvedAddrSize then a.record ++ childLoop writes (i + 1) infos
            else a.record.take k

/-- The records that the child writes completely. -/
def completeRecords (writes : Writes) : Nat → List AddrInfo → List (List UInt8)
  | _, [] => []
  | i, a :: infos =>
      if a.addr.length > sockaddrStorageSize then completeRecords writes i infos
      else if writes i = some (Fin.last acResolvedAddrSize) then
        a.record :: completeRecords writes (i + 1) infos
      else []

/-- The child writes its records one after another, and then a piece of one at most. -/
theorem childLoop_isCut (writes : Writes) (i : Nat) (infos : List AddrInfo) :
    ∃ rest, IsCut acResolvedAddrSize (childLoop writes i infos) (completeRecords writes i infos)
      rest := by
  induction infos generalizing i with
  | nil => exact ⟨[], isCut_nil acResolvedAddrSize_pos⟩
  | cons a infos ih =>
      rw [childLoop, completeRecords]
      by_cases hlong : a.addr.length > sockaddrStorageSize
      · rw [if_pos hlong, if_pos hlong]
        exact ih i
      · rw [if_neg hlong, if_neg hlong]
        have hrecord := a.length_record (Nat.not_lt.1 hlong)
        cases hwrite : writes i with
        | none => exact ⟨[], isCut_nil acResolvedAddrSize_pos⟩
        | some k =>
            by_cases hk : k.val = acResolvedAddrSize
            · have hlast : k = Fin.last acResolvedAddrSize := Fin.ext hk
              rcases ih (i + 1) with ⟨rest, hrest⟩
              refine ⟨rest, ?_⟩
              simp only [if_pos hk, if_pos (congrArg some hlast)]
              exact hrest.cons hrecord
            · have hlast : some k ≠ some (Fin.last acResolvedAddrSize) := by
                intro h
                exact hk (congrArg Fin.val (Option.some.inj h))
              refine ⟨a.record.take k, ?_⟩
              simp only [if_neg hk, if_neg hlast]
              apply isCut_of_short
              have := k.isLt
              rw [List.length_take, hrecord]
              omega

/-! ## The parent -/

/-- `struct timespec` -/
structure Timespec where
  sec : Int
  nsec : Int
deriving DecidableEq

/-- The milliseconds that are left, with the division of C. -/
def remainingMs (deadline now : Timespec) : Int :=
  (deadline.sec - now.sec) * 1000 + (deadline.nsec - now.nsec).tdiv 1000000

/-- What one turn of the loop meets: the time, the result of `poll`, and for `read` an error
or how much it may return at most.  At the end of the stream `read` returns nothing. -/
structure ResolveTurn where
  now : Timespec
  poll : Int
  read : Option ℕ+

/-- Why the parent stops. -/
inductive ResolveStop where
  | pipe
  | fork
  | full
  | deadline
  | poll
  | read
  | childDone
deriving DecidableEq

/-- Something other than the room for records or the child has ended it. -/
def ResolveStop.intervened : ResolveStop → Bool
  | .full | .childDone => false
  | .pipe | .fork | .deadline | .poll | .read => true

/-- The parent in its loop: the records stored in `out`, the buffer and the number of bytes
it has, and what is still to come through the pipe. -/
structure ResolveState where
  out : List (List UInt8)
  buf : CharArray acResolvedAddrSize
  filled : Nat
  pipe : List UInt8

/-- One turn of the loop. -/
def ResolveState.turn (deadline : Timespec) (t : ResolveTurn) (s : ResolveState) :
    Except ResolveStop ResolveState :=
  if remainingMs deadline t.now ≤ 0 then .error .deadline
  else if t.poll ≤ 0 then .error .poll
  else
    match t.read with
    | none => .error .read
    | some most =>
        let bytes := s.pipe.take (min most (acResolvedAddrSize - s.filled))
        if bytes = [] then .error .childDone
        else
          let buf := s.buf.writeFrom s.filled bytes
          let filled := s.filled + bytes.length
          let pipe := s.pipe.drop bytes.length
          if filled = acResolvedAddrSize then .ok ⟨s.out ++ [buf.slots], buf, 0, pipe⟩
          else .ok ⟨s.out, buf, filled, pipe⟩

/-- The loop `while (n < max)`, from its turn `i` on.  Without fuel for another turn it does
not return. -/
def resolveLoop (max : Int) (deadline : Timespec) (turns : Nat → ResolveTurn) :
    Nat → Nat → ResolveState → Option (ResolveStop × ResolveState)
  | 0, _, _ => none
  | fuel + 1, i, s =>
      if (s.out.length : Int) < max then
        match s.turn deadline (turns i) with
        | .error stop => some (stop, s)
        | .ok s' => resolveLoop max deadline turns fuel (i + 1) s'
      else some (.full, s)

/-- What a call meets: whether `pipe` and `fork` succeed, what `getaddrinfo` finds, how the
writes of the child go, the time at the start, the turns of the loop, and what is in the
buffer before it is used. -/
structure ResolveEnv where
  pipeOk : Bool
  forkOk : Bool
  getaddrinfo : Option (List AddrInfo)
  writes : Writes
  start : Timespec
  turns : Nat → ResolveTurn
  buf : CharArray acResolvedAddrSize

/-- The bytes that the child writes. -/
def ResolveEnv.stream (env : ResolveEnv) : List UInt8 :=
  match env.getaddrinfo with
  | none => []
  | some infos => childLoop env.writes 0 infos

/-- What a call returns and stores, and why it stopped. -/
structure Resolved where
  ret : Int
  out : List (List UInt8)
  stop : ResolveStop

/-- `deadline.tv_sec += timeout_sec` -/
def ResolveEnv.deadline (env : ResolveEnv) (timeoutSec : Int) : Timespec :=
  { env.start with sec := env.start.sec + timeoutSec }

/-- `ac_resolve_timeout` -/
def acResolveTimeout (fuel : Nat) (env : ResolveEnv) (max timeoutSec : Int) : Option Resolved :=
  if !env.pipeOk then some ⟨-1, [], .pipe⟩
  else if !env.forkOk then some ⟨-1, [], .fork⟩
  else
    (resolveLoop max (env.deadline timeoutSec) env.turns fuel 0
      ⟨[], env.buf, 0, env.stream⟩).map fun (stop, s) => ⟨s.out.length, s.out, stop⟩

/-! ## One turn -/

/-- Neither the deadline nor an error intervenes in the turn. -/
def ResolveTurn.Quiet (deadline : Timespec) (t : ResolveTurn) : Prop :=
  0 < remainingMs deadline t.now ∧ 0 < t.poll ∧ t.read ≠ none

section

variable {deadline : Timespec} {t : ResolveTurn} {s s' : ResolveState} {stop : ResolveStop}

/-- A turn that does not end the loop takes bytes from the pipe, no more than the record
needs. -/
theorem ResolveState.turn_ok (h : s.turn deadline t = .ok s') :
    ∃ bytes, bytes ≠ [] ∧ bytes.length ≤ acResolvedAddrSize - s.filled ∧
      s.pipe = bytes ++ s'.pipe ∧ s'.buf = s.buf.writeFrom s.filled bytes ∧
      (s.filled + bytes.length = acResolvedAddrSize ∧ s'.filled = 0 ∧
          s'.out = s.out ++ [s'.buf.slots] ∨
        s.filled + bytes.length ≠ acResolvedAddrSize ∧ s'.filled = s.filled + bytes.length ∧
          s'.out = s.out) := by
  unfold ResolveState.turn at h
  split at h
  · contradiction
  split at h
  · contradiction
  cases hread : t.read with
  | none =>
      rw [hread] at h
      contradiction
  | some most =>
      simp only [hread] at h
      generalize hbytes : s.pipe.take (min most (acResolvedAddrSize - s.filled)) = bytes at h
      have hlength : bytes.length ≤ acResolvedAddrSize - s.filled := by
        rw [← hbytes, List.length_take]
        omega
      have hpipe : s.pipe = bytes ++ s.pipe.drop bytes.length := by
        have hfirst : bytes <+: s.pipe := hbytes ▸ List.take_prefix _ _
        rcases hfirst with ⟨later, hlater⟩
        rw [← hlater, List.drop_left]
      split at h
      · contradiction
      · rename_i hne
        split at h
        · rename_i hfull
          cases h
          exact ⟨bytes, hne, hlength, hpipe, rfl, Or.inl ⟨hfull, rfl, rfl⟩⟩
        · rename_i hfull
          cases h
          exact ⟨bytes, hne, hlength, hpipe, rfl, Or.inr ⟨hfull, rfl, rfl⟩⟩

/-- A turn that ends the loop was disturbed, or found the end of the stream. -/
theorem ResolveState.turn_error (h : s.turn deadline t = .error stop)
    (hfilled : s.filled < acResolvedAddrSize) :
    (stop.intervened = true ∧ ¬t.Quiet deadline) ∨ (stop = .childDone ∧ s.pipe = []) := by
  unfold ResolveState.turn at h
  split at h
  · rename_i hlate
    cases h
    exact Or.inl ⟨rfl, fun hquiet => absurd hquiet.1 (by omega)⟩
  split at h
  · rename_i hpoll
    cases h
    exact Or.inl ⟨rfl, fun hquiet => absurd hquiet.2.1 (by omega)⟩
  cases hread : t.read with
  | none =>
      rw [hread] at h
      cases h
      exact Or.inl ⟨rfl, fun hquiet => hquiet.2.2 hread⟩
  | some most =>
      simp only [hread] at h
      split at h
      · rename_i hempty
        cases h
        have hpos := most.pos
        rcases List.take_eq_nil_iff.1 hempty with hzero | hnil
        · omega
        · exact Or.inr ⟨rfl, hnil⟩
      · split at h <;> contradiction

/-- What has been read is the stored records and the start of the buffer. -/
structure ResolveState.Inv (stream : List UInt8) (max : Int) (s : ResolveState) : Prop where
  filled_lt : s.filled < acResolvedAddrSize
  count_le : s.out.length ≤ max.toNat
  cut : ∃ before, stream = before ++ s.pipe ∧
    IsCut acResolvedAddrSize before s.out (s.buf.slots.take s.filled)

/-- A turn keeps the record boundaries, and leaves less in the pipe. -/
theorem ResolveState.Inv.turn {stream : List UInt8} {max : Int} (hinv : s.Inv stream max)
    (hroom : (s.out.length : Int) < max) (h : s.turn deadline t = .ok s') :
    s'.Inv stream max ∧ s'.pipe.length < s.pipe.length := by
  rcases ResolveState.turn_ok h with ⟨bytes, hne, hlength, hpipe, hbuf, hcase⟩
  rcases hinv.cut with ⟨before, hstream, hcut⟩
  have hfilled := hinv.filled_lt
  have hpos := List.length_pos_of_ne_nil hne
  have hin : s.filled + bytes.length ≤ acResolvedAddrSize := by omega
  have hrest : (s.buf.slots.take s.filled).length = s.filled := by
    rw [List.length_take, s.buf.length_slots]
    omega
  have htake := s.buf.take_writeFrom hin
  rw [← hbuf] at htake
  have hstream' : stream = (before ++ bytes) ++ s'.pipe := by
    rw [hstream, hpipe, List.append_assoc]
  constructor
  · rcases hcase with ⟨hfull, hzero, hout⟩ | ⟨hopen, hmore, hout⟩
    · -- the record is complete: the whole buffer is stored
      have hslots : s'.buf.slots = s.buf.slots.take s.filled ++ bytes := by
        rw [← htake, hfull, List.take_of_length_le s'.buf.length_slots.le]
      refine ⟨?_, ?_, before ++ bytes, hstream', ?_⟩
      · rw [hzero]
        exact acResolvedAddrSize_pos
      · rw [hout, List.length_append, List.length_singleton]
        omega
      · rw [hout, hzero, hslots]
        exact hcut.complete (by rw [hrest, hfull])
    · refine ⟨?_, ?_, before ++ bytes, hstream', ?_⟩
      · rw [hmore]
        omega
      · rw [hout]
        exact hinv.count_le
      · rw [hout, hmore, htake]
        exact hcut.more (by rw [hrest]; omega)
  · rw [hpipe, List.length_append]
    omega

end

/-! ## The loop -/

/-- How the loop ends when it starts with turn `i` and `left` bytes in the pipe. -/
structure ResolveState.Ends (stream : List UInt8) (max : Int) (deadline : Timespec)
    (turns : Nat → ResolveTurn) (i left : Nat) (stop : ResolveStop) (s : ResolveState) : Prop where
  inv : s.Inv stream max
  full : stop = .full → max ≤ s.out.length
  childDone : stop = .childDone → s.pipe = []
  quiet : (∀ j, i ≤ j → j ≤ i + left → (turns j).Quiet deadline) → stop.intervened = false

section

variable {stream : List UInt8} {max : Int} {deadline : Timespec} {turns : Nat → ResolveTurn}

/-- Every turn but the last takes a byte from the pipe, so the loop returns. -/
theorem resolveLoop_returns {fuel i : Nat} {s : ResolveState} (hinv : s.Inv stream max)
    (hfuel : s.pipe.length < fuel) :
    ∃ stop s', resolveLoop max deadline turns fuel i s = some (stop, s') ∧
      s'.Ends stream max deadline turns i s.pipe.length stop := by
  induction fuel generalizing i s with
  | zero => contradiction
  | succ fuel ih =>
      rw [resolveLoop]
      by_cases hroom : (s.out.length : Int) < max
      · rw [if_pos hroom]
        cases hturn : s.turn deadline (turns i) with
        | error stop =>
            rcases ResolveState.turn_error hturn hinv.filled_lt with
              ⟨hstop, hdisturbed⟩ | ⟨rfl, hpipe⟩
            · refine ⟨stop, s, rfl, hinv, ?_, ?_, ?_⟩
              · rintro rfl
                contradiction
              · rintro rfl
                contradiction
              · intro hquiet
                exact absurd (hquiet i (Nat.le_refl i) (Nat.le_add_right i _)) hdisturbed
            · exact ⟨.childDone, s, rfl, hinv, nofun, fun _ => hpipe, fun _ => rfl⟩
        | ok s' =>
            rcases hinv.turn hroom hturn with ⟨hinv', hless⟩
            rcases ih hinv' (Nat.lt_of_lt_of_le hless (Nat.lt_succ_iff.1 hfuel)) with
              ⟨stop, s'', hrun, hends⟩
            refine ⟨stop, s'', hrun, hends.inv, hends.full, hends.childDone, ?_⟩
            intro hquiet
            apply hends.quiet
            intro j hij hj
            exact hquiet j (by omega) (by omega)
      · rw [if_neg hroom]
        exact ⟨.full, s, rfl, hinv, fun _ => Int.not_lt.1 hroom, nofun, fun _ => rfl⟩

variable {blocks : List (List UInt8)} {rest : List UInt8}

/-- What is stored is the start of the list of records. -/
theorem ResolveState.Inv.out_isPrefix {s : ResolveState} (hinv : s.Inv stream max)
    (hstream : IsCut acResolvedAddrSize stream blocks rest) : s.out <+: blocks.take max.toNat := by
  rcases hinv.cut with ⟨before, hbefore, hcut⟩
  have hfirst := hcut.isPrefix hstream ⟨s.pipe, hbefore.symm⟩
  exact List.prefix_take_iff.2 ⟨hfirst, hinv.count_le⟩

/-- If nothing intervenes, it is all that there is room for. -/
theorem ResolveState.Ends.out_eq {i left : Nat} {stop : ResolveStop} {s : ResolveState}
    (h : s.Ends stream max deadline turns i left stop)
    (hstream : IsCut acResolvedAddrSize stream blocks rest) (hstop : stop.intervened = false) :
    s.out = blocks.take max.toNat := by
  have hfirst := h.inv.out_isPrefix hstream
  have hcount := h.inv.count_le
  cases stop with
  | full =>
      -- the list of the first records is no longer than what is stored
      have hroom := h.full rfl
      apply hfirst.eq_of_length_le
      rw [List.length_take]
      omega
  | childDone =>
      rcases h.inv.cut with ⟨before, hbefore, hcut⟩
      rw [h.childDone rfl, List.append_nil] at hbefore
      subst hbefore
      have hout := hcut.blocks_eq hstream
      rw [← hout, List.take_of_length_le hcount]
  | pipe | fork | deadline | poll | read => contradiction

end

/-! ## The call -/

/-- The records that the child writes completely, if it has any addresses. -/
def ResolveEnv.complete (env : ResolveEnv) : List (List UInt8) :=
  match env.getaddrinfo with
  | none => []
  | some infos => completeRecords env.writes 0 infos

theorem ResolveEnv.stream_isCut (env : ResolveEnv) :
    ∃ rest, IsCut acResolvedAddrSize env.stream env.complete rest := by
  rw [ResolveEnv.stream, ResolveEnv.complete]
  cases env.getaddrinfo with
  | none => exact ⟨[], isCut_nil acResolvedAddrSize_pos⟩
  | some infos => exact childLoop_isCut env.writes 0 infos

/-- Neither the deadline nor an error intervenes.  The loop has at most one turn for each
byte of the stream, and one for its end. -/
def ResolveEnv.Quiet (env : ResolveEnv) (timeoutSec : Int) : Prop :=
  env.pipeOk = true ∧ env.forkOk = true ∧
    ∀ i ≤ env.stream.length, (env.turns i).Quiet (env.deadline timeoutSec)

/-- What a call stores. -/
structure Resolved.Reassembled (env : ResolveEnv) (max timeoutSec : Int) (r : Resolved) :
    Prop where
  /-- the first records, in order, byte by byte -/
  isPrefix : r.out <+: env.complete.take max.toNat
  /-- all that there is room for, unless it was stopped early -/
  out_eq : r.stop.intervened = false → r.out = env.complete.take max.toNat
  /-- which takes the deadline or an error -/
  quiet : env.Quiet timeoutSec → r.stop.intervened = false

/-- However the writes of the child go, however the pipe cuts the stream and whatever
intervenes, the call returns and has stored the first complete records; if nothing
intervenes, as many as there are or as there is room for. -/
theorem resolve_reassembles (env : ResolveEnv) (max timeoutSec : Int) (fuel : Nat)
    (hfuel : env.stream.length < fuel) :
    ∃ r, acResolveTimeout fuel env max timeoutSec = some r ∧
      r.Reassembled env max timeoutSec := by
  rw [acResolveTimeout]
  cases hpipe : env.pipeOk with
  | false =>
      refine ⟨_, rfl, List.nil_prefix, nofun, ?_⟩
      rintro ⟨h, -⟩
      rw [hpipe] at h
      contradiction
  | true =>
      cases hfork : env.forkOk with
      | false =>
          refine ⟨_, rfl, List.nil_prefix, nofun, ?_⟩
          rintro ⟨-, h, -⟩
          rw [hfork] at h
          contradiction
      | true =>
          rcases env.stream_isCut with ⟨rest, hcut⟩
          have hstart : ResolveState.Inv env.stream max ⟨[], env.buf, 0, env.stream⟩ :=
            ⟨acResolvedAddrSize_pos, Nat.zero_le _, [], rfl, isCut_nil acResolvedAddrSize_pos⟩
          obtain ⟨stop, s, hrun, hends⟩ : ∃ stop s,
              resolveLoop max (env.deadline timeoutSec) env.turns fuel 0
                ⟨[], env.buf, 0, env.stream⟩ = some (stop, s) ∧
              s.Ends env.stream max (env.deadline timeoutSec) env.turns 0 env.stream.length stop :=
            resolveLoop_returns hstart hfuel
          refine ⟨⟨s.out.length, s.out, stop⟩, ?_, hends.inv.out_isPrefix hcut,
            hends.out_eq hcut, ?_⟩
          · simp [hrun]
          · rintro ⟨-, -, hquiet⟩
            apply hends.quiet
            intro j _ hj
            exact hquiet j (by rw [Nat.zero_add] at hj; exact hj)

/-- Two addresses, and an address between them that does not fit a record. -/
def twoAddresses : List AddrInfo :=
  [{ family := 2, socktype := 1, protocol := 6, addr := List.replicate 16 1
     addrlen_lt := by simp },
   { family := 1, socktype := 1, protocol := 0, addr := List.replicate 129 2
     addrlen_lt := by simp },
   { family := 10, socktype := 1, protocol := 6, addr := List.replicate 28 3
     addrlen_lt := by simp }]

/-- The second record is cut off, and a read returns at most 100 bytes. -/
def cutOffEnv : ResolveEnv where
  pipeOk := true
  forkOk := true
  getaddrinfo := some twoAddresses
  writes := fun i => if i = 0 then some (Fin.last acResolvedAddrSize) else some 90
  start := ⟨10, 0⟩
  turns := fun _ => ⟨⟨11, 500000000⟩, 1, some 100⟩
  buf := SlotTable.replicate acResolvedAddrSize 7

theorem resolve_reassembles_cutOffEnv :
    ∃ r, acResolveTimeout 300 cutOffEnv 8 5 = some r ∧ r.Reassembled cutOffEnv 8 5 :=
  resolve_reassembles cutOffEnv 8 5 300 (by decide +kernel)

/-- Of the two records one is stored, and the call waits for the end of the stream. -/
example : ((acResolveTimeout 300 cutOffEnv 8 5).map fun r => (r.ret, r.out, r.stop)) =
    some (1, cutOffEnv.complete, .childDone) := by
  decide +kernel

end Anticheat
