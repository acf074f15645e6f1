import Anticheat.Daemon.Sha256
import Anticheat.Foundation.Traced

/-!
# Hashing the memory of a process

`hash_proc_mem` reads a range of `/proc/<pid>/mem` in pieces and feeds them to the
streaming hash.  A read can be interrupted, fail, return fewer bytes than asked
for, or report the end of the file; the outcomes of the reads are a list here, and
once the list is used up the end of the file is reported.

Main results:

- Theorem {lit}`hashProcMem_eq`: the function returns for all outcomes, and it
  returns the digest of the whole range exactly when the reads cover the range.
- Theorem {lit}`memory_hash_all_or_nothing`: it succeeds exactly when the bytes it
  has read are those of the range, once each and in order.
-/

namespace Anticheat

open Foundation

/-- The bytes of a process, by address. -/
abbrev Memory := UInt64 → UInt8

/-- The bytes of a range. -/
def Memory.read (mem : Memory) (start : UInt64) (n : Nat) : List UInt8 :=
  (List.range n).map fun i => mem (start + UInt64.ofNat i)

/-- What one `pread` does; it never returns more bytes than it was asked for. -/
inductive PreadOutcome where
  | interrupted
  | failed
  | bytes (n : Nat)
deriving DecidableEq, Repr

/-- `AC_READ_CHUNK` -/
def acReadChunk : Nat := 1024 * 1024

/-- The end of `hash_proc_mem`. -/
def finishHash (ctx : AcSha256Ctx) : Option (Option CStr) := do
  let d ← acSha256Final ctx
  return some (hexOut d)

/-- The number of bytes that a `pread` returns after `done` bytes, when it could
return `n`. -/
def readCount (size done n : Nat) : Nat :=
  min n (min (size - done) acReadChunk)

/-- The loop of `hash_proc_mem`, after `done` bytes.  The inner option is the
return value: `none` for -1, a digest for 0. -/
def hashLoop (mem : Memory) (start : UInt64) (size : Nat) :
    List PreadOutcome → Nat → AcSha256Ctx → Option (Option CStr)
  | [], done, ctx => if done < size then some none else finishHash ctx
  | o :: os, done, ctx =>
      if done < size then
        match o with
        | .interrupted => hashLoop mem start size os done ctx
        | .failed => some none
        | .bytes n =>
            let r := readCount size done n
            if r = 0 then some none
            else
              (acSha256Update ctx (mem.read (start + UInt64.ofNat done) r)).bind
                (hashLoop mem start size os (done + r))
      else finishHash ctx

/-- `hash_proc_mem` -/
def hashProcMem (mem : Memory) (os : List PreadOutcome) (start size : UInt64) :
    Option (Option CStr) :=
  hashLoop mem start size.toNat os 0 (acSha256Init .uninit)

/-! ## What it returns -/

/-- The reads cover the range from `done` on. -/
def covers (size : Nat) : List PreadOutcome → Nat → Bool
  | [], done => decide (size ≤ done)
  | o :: os, done =>
      if done < size then
        match o with
        | .interrupted => covers size os done
        | .failed => false
        | .bytes n =>
            if readCount size done n = 0 then false
            else covers size os (done + readCount size done n)
      else true

/-- The addresses of a range, in order. -/
def addresses (start : UInt64) (n : Nat) : List UInt64 :=
  (List.range n).map fun i => start + UInt64.ofNat i

@[simp]
theorem length_addresses (start : UInt64) (n : Nat) : (addresses start n).length = n := by
  simp [addresses]

theorem addresses_add (start : UInt64) (n r : Nat) :
    addresses start (n + r) = addresses start n ++ addresses (start + UInt64.ofNat n) r := by
  unfold addresses
  rw [List.range_add, List.map_append, List.map_map]
  congr 1
  apply List.map_congr_left
  intro i hi
  simp [UInt64.add_assoc]

theorem Memory.read_eq_map (mem : Memory) (start : UInt64) (n : Nat) :
    mem.read start n = (addresses start n).map mem := by
  rw [addresses, List.map_map]
  rfl

theorem Memory.read_add (mem : Memory) (start : UInt64) (n r : Nat) :
    mem.read start (n + r) = mem.read start n ++ mem.read (start + UInt64.ofNat n) r := by
  simp only [Memory.read_eq_map, addresses_add, List.map_append]

/-- Where the memory holds one byte throughout, it reads as that byte repeated. -/
theorem Memory.read_eq_replicate {mem : Memory} {start : UInt64} {n : Nat} {b : UInt8}
    (h : ∀ i < n, mem (start + UInt64.ofNat i) = b) :
    mem.read start n = List.replicate n b := by
  rw [Memory.read, List.eq_replicate_iff]
  refine ⟨by simp, ?_⟩
  intro c hc
  rcases List.mem_map.mp hc with ⟨i, hi, rfl⟩
  exact h i (List.mem_range.mp hi)

theorem finishHash_eq {mem : Memory} {start : UInt64} {size : Nat} {ctx : AcSha256Ctx}
    (h : Streamed (mem.read start size) ctx) :
    finishHash ctx = some (some (Sha256.hexDigest (mem.read start size))) := by
  rw [finishHash, h.final, Option.bind_eq_bind, Option.bind_some, hexOut_eq]
  rfl

/-- The loop ends when the range is hashed, whatever further reads would do. -/
theorem hashLoop_done {mem : Memory} {start : UInt64} {size : Nat} {os : List PreadOutcome}
    {done : Nat} {ctx : AcSha256Ctx} (h : ¬done < size) :
    hashLoop mem start size os done ctx = finishHash ctx := by
  cases os <;> simp [hashLoop, h]

theorem covers_done {size : Nat} {os : List PreadOutcome} {done : Nat} (h : ¬done < size) :
    covers size os done = true := by
  cases os with
  | nil => simpa [covers] using h
  | cons o os => simp [covers, h]

/-- The loop hashes what it reads and gives up where the reads leave a gap. -/
theorem hashLoop_eq (mem : Memory) (start : UInt64) (size : Nat) (os : List PreadOutcome)
    {done : Nat} {ctx : AcSha256Ctx} (hctx : Streamed (mem.read start done) ctx)
    (hdone : done ≤ size) :
    hashLoop mem start size os done ctx =
      some (if covers size os done then some (Sha256.hexDigest (mem.read start size))
        else none) := by
  by_cases hlt : done < size
  · induction os generalizing done ctx with
    | nil => simp [hashLoop, covers, hlt]
    | cons o os ih =>
        cases o with
        | interrupted => simpa [hashLoop, covers, hlt] using ih hctx hdone hlt
        | failed => simp [hashLoop, covers, hlt]
        | bytes n =>
            by_cases hr : readCount size done n = 0
            · simp [hashLoop, covers, hlt, hr]
            · obtain ⟨ctx', hupdate, hctx'⟩ :=
                hctx.update (mem.read (start + UInt64.ofNat done) (readCount size done n))
              rw [← Memory.read_add] at hctx'
              have hnext : done + readCount size done n ≤ size := by
                unfold readCount
                omega
              simp only [hashLoop, covers, hlt, hr, hupdate, if_true, if_false,
                Option.bind_some]
              by_cases hmore : done + readCount size done n < size
              · exact ih hctx' hnext hmore
              · rw [hashLoop_done hmore, covers_done hmore]
                rw [show done + readCount size done n = size by omega] at hctx'
                exact finishHash_eq hctx'
  · obtain rfl : done = size := by omega
    rw [hashLoop_done hlt, covers_done hlt]
    exact finishHash_eq hctx

/-- `hash_proc_mem` returns the digest of the range if the reads cover it, and -1
otherwise. -/
theorem hashProcMem_eq (mem : Memory) (os : List PreadOutcome) (start size : UInt64) :
    hashProcMem mem os start size =
      some (if covers size.toNat os 0 then
        some (Sha256.hexDigest (mem.read start size.toNat)) else none) :=
  hashLoop_eq mem start size.toNat os (Streamed.init .uninit) (Nat.zero_le _)

theorem hashProcMem_isSome (mem : Memory) (os : List PreadOutcome) (start size : UInt64) :
    (hashProcMem mem os start size).isSome = true := by
  rw [hashProcMem_eq]
  rfl

/-! ## The bytes that are read -/

/-- A range does not come back to an address. -/
theorem nodup_addresses (start size : UInt64) : (addresses start size.toNat).Nodup := by
  refine List.Nodup.map_on ?_ List.nodup_range
  intro i hi j hj hij
  have hsize := size.toNat_lt
  rw [List.mem_range] at hi hj
  have hofNat := congrArg UInt64.toNat (UInt64.add_right_inj start |>.mp hij)
  rwa [UInt64.toNat_ofNat_of_lt' (hi.trans hsize), UInt64.toNat_ofNat_of_lt' (hj.trans hsize)]
    at hofNat

/-- The loop of `hash_proc_mem` with a log of the addresses whose bytes it takes. -/
def hashLoopTraced (mem : Memory) (start : UInt64) (size : Nat) :
    List PreadOutcome → Nat → AcSha256Ctx → Traced UInt64 (Option CStr)
  | [], done, ctx => .ofOption (if done < size then some none else finishHash ctx)
  | o :: os, done, ctx =>
      if done < size then
        match o with
        | .interrupted => hashLoopTraced mem start size os done ctx
        | .failed => pure none
        | .bytes n =>
            let r := readCount size done n
            if r = 0 then pure none
            else do
              Traced.tell (addresses (start + UInt64.ofNat done) r)
              let ctx' ← Traced.ofOption
                (acSha256Update ctx (mem.read (start + UInt64.ofNat done) r))
              hashLoopTraced mem start size os (done + r) ctx'
      else .ofOption (finishHash ctx)

/-- `hash_proc_mem` with its log. -/
def hashProcMemTraced (mem : Memory) (os : List PreadOutcome) (start size : UInt64) :
    Traced UInt64 (Option CStr) :=
  hashLoopTraced mem start size.toNat os 0 (acSha256Init .uninit)

theorem val_hashLoopTraced (mem : Memory) (start : UInt64) (size : Nat)
    (os : List PreadOutcome) (done : Nat) (ctx : AcSha256Ctx) :
    (hashLoopTraced mem start size os done ctx).val = hashLoop mem start size os done ctx := by
  induction os generalizing done ctx with
  | nil => rfl
  | cons o os ih =>
      by_cases hlt : done < size
      · cases o with
        | interrupted => simpa [hashLoopTraced, hashLoop, hlt] using ih done ctx
        | failed => simp [hashLoopTraced, hashLoop, hlt]
        | bytes n =>
            by_cases hr : readCount size done n = 0
            · simp [hashLoopTraced, hashLoop, hlt, hr]
            · simp [hashLoopTraced, hashLoop, hlt, hr, ih, Option.bind_eq_bind]
      · simp [hashLoopTraced, hashLoop, hlt]

/-- Forgetting the log gives `hash_proc_mem`. -/
theorem val_hashProcMemTraced (mem : Memory) (os : List PreadOutcome) (start size : UInt64) :
    (hashProcMemTraced mem os start size).val = hashProcMem mem os start size :=
  val_hashLoopTraced mem start size.toNat os 0 _

/-- The addresses in the log follow each other from `done` on, and they reach the end
of the range exactly when the reads cover it. -/
theorem log_hashLoopTraced (mem : Memory) (start : UInt64) (size : Nat)
    (os : List PreadOutcome) {done : Nat} {ctx : AcSha256Ctx}
    (hctx : Streamed (mem.read start done) ctx) (hdone : done ≤ size) :
    ∃ n, (hashLoopTraced mem start size os done ctx).log =
        addresses (start + UInt64.ofNat done) n ∧
      (covers size os done = true ↔ done + n = size) := by
  induction os generalizing done ctx with
  | nil =>
      refine ⟨0, by simp [hashLoopTraced, addresses], ?_⟩
      rw [covers, decide_eq_true_iff]
      omega
  | cons o os ih =>
      by_cases hlt : done < size
      · have hstop : ∃ n, ([] : List UInt64) = addresses (start + UInt64.ofNat done) n ∧
            (false = true ↔ done + n = size) :=
          ⟨0, by simp [addresses], by simp; omega⟩
        cases o with
        | interrupted => simpa [hashLoopTraced, covers, hlt] using ih hctx hdone
        | failed => simpa [hashLoopTraced, covers, hlt] using hstop
        | bytes n =>
            by_cases hr : readCount size done n = 0
            · simpa [hashLoopTraced, covers, hlt, hr] using hstop
            · obtain ⟨ctx', hupdate, hctx'⟩ :=
                hctx.update (mem.read (start + UInt64.ofNat done) (readCount size done n))
              rw [← Memory.read_add] at hctx'
              obtain ⟨k, hlog, hk⟩ := ih hctx' (by unfold readCount; omega)
              refine ⟨readCount size done n + k, ?_, ?_⟩
              · rw [addresses_add, UInt64.add_assoc, ← UInt64.ofNat_add, ← hlog]
                simp only [hashLoopTraced, hlt, hr, if_true, if_false]
                rw [Traced.log_bind_of_some (Traced.val_tell _), Traced.log_tell,
                  Traced.log_bind_of_some hupdate, Traced.log_ofOption, List.nil_append]
              · simp only [covers, hlt, hr, if_true, if_false]
                rw [hk, Nat.add_assoc]
      · refine ⟨0, by simp [hashLoopTraced, hlt, addresses], ?_⟩
        rw [covers_done hlt]
        simp only [true_iff]
        omega

/-- `hash_proc_mem` always returns.  It returns 0 exactly when the bytes it has taken
are those of the range, each once and in order, and then with the digest of these
bytes; so two successful runs over equal contents give equal digests. -/
theorem memory_hash_all_or_nothing (mem : Memory) (os : List PreadOutcome)
    (start size : UInt64) :
    (hashProcMemTraced mem os start size).val = hashProcMem mem os start size ∧
      (addresses start size.toNat).Nodup ∧
      hashProcMem mem os start size =
        some (if (hashProcMemTraced mem os start size).log = addresses start size.toNat then
          some (Sha256.hexDigest (mem.read start size.toNat)) else none) ∧
      ∀ (mem' : Memory) (os' : List PreadOutcome) (start' : UInt64) (hex hex' : CStr),
        mem'.read start' size.toNat = mem.read start size.toNat →
        hashProcMem mem os start size = some (some hex) →
        hashProcMem mem' os' start' size = some (some hex') → hex' = hex := by
  refine ⟨val_hashProcMemTraced mem os start size, nodup_addresses start size, ?_, ?_⟩
  · have hinit : Streamed (mem.read start 0) (acSha256Init .uninit) := Streamed.init .uninit
    obtain ⟨n, hlog, hn⟩ := log_hashLoopTraced mem start size.toNat os hinit (Nat.zero_le _)
    rw [Nat.zero_add] at hn
    rw [show start + UInt64.ofNat 0 = start from UInt64.add_zero start] at hlog
    rw [hashProcMem_eq, hashProcMemTraced, hlog]
    refine congrArg some (if_congr (hn.trans ⟨?_, ?_⟩) rfl rfl)
    · rintro rfl
      rfl
    · intro haddr
      simpa using congrArg List.length haddr
  · intro mem' os' start' hex hex' hread hrun hrun'
    rw [hashProcMem_eq, Option.some.injEq, Option.ite_none_right_eq_some] at hrun hrun'
    rw [← Option.some.inj hrun.2, ← Option.some.inj hrun'.2, hread]

end Anticheat
