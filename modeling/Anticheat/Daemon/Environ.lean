import Mathlib.Tactic
import Anticheat.Foundation.CText

/-!
# Variables of a process's environment

`ac_read_environ_vars` reads `/proc/<pid>/environ` into a buffer, in as many reads as
it takes, and looks every entry up in a list of variable names.  The first entry for a
name counts.  A read that fails and an environment that does not fit into the buffer
both give -1, the latter after the entries that did fit have been looked up.

Main definitions:

- Definition {lit}`acReadEnvironVars`: the function, on a file, the outcome of every
  read, and a list of queries.
- Definition {lit}`EnvironIo.finds`: the function returns 0 and has found one of the names.

Main results:

- Theorem {lit}`acReadEnvironVars_eq`: what the function answers, for every split of the
  content over the reads.
- Theorem {lit}`environ_lookup_exact_iff`: the answers are exact exactly when no queried
  variable is set only behind an empty entry.
- Theorem {lit}`hidden_preload_not_found`: an empty entry in front hides every variable.
-/

namespace Anticheat

open Foundation

/-- `AC_ENVIRON_BUF` -/
def acEnvironBuf : Nat := 256 * 1024

/-- `AC_ENVIRON_VAL_LEN` -/
def acEnvironValLen : Nat := 512

/-- `struct ac_environ_query` -/
structure AcEnvironQuery where
  name : CStr
  value : CStr := []
  found : Bool := false
deriving DecidableEq

/-- What reading an environment meets: whether the file opens and the buffer is
allocated, the content of the file, and for each read the number of bytes that the
kernel is willing to hand out, `none` if it fails. -/
structure EnvironIo where
  opens : Bool
  alloc : Bool
  file : List UInt8
  reads : Nat → Option Nat

/-- The result of read number `k` when `total` bytes have been read: at least one byte
unless the file ends there, and at most what the buffer has room for. -/
def EnvironIo.read (io : EnvironIo) (k total : Nat) : Option Nat :=
  (io.reads k).map fun n =>
    min (max n 1) (min (acEnvironBuf - 1 - total) (io.file.length - total))

/-- The loop over the reads; it returns the number of bytes in the buffer.  Each round
reads at least one byte, so that a fuel of the size of the buffer is never used up. -/
def environLoop (io : EnvironIo) : Nat → Nat → Nat → Option Nat
  | 0, _, total => some total
  | fuel + 1, k, total =>
      if total < acEnvironBuf - 1 then
        match io.read k total with
        | none => none
        | some n => if n = 0 then some total else environLoop io fuel (k + 1) (total + n)
      else some total

/-- One entry is looked up in one query. -/
def AcEnvironQuery.visit (entry : CStr) (q : AcEnvironQuery) : AcEnvironQuery :=
  if !q.found && decide (entry.length > q.name.length) && entry.startsWith q.name &&
      entry[q.name.length]? == some 61 then
    { q with value := CStr.bounded acEnvironValLen (entry.drop (q.name.length + 1)), found := true }
  else q

/-- The loop over the entries, which stops at an empty one. -/
def visitEntries : List CStr → List AcEnvironQuery → List AcEnvironQuery
  | [], vars => vars
  | entry :: rest, vars =>
      if entry.isEmpty then vars else visitEntries rest (vars.map (AcEnvironQuery.visit entry))

/-- What `ac_read_environ_vars` returns: 0, or -1, with `errno` set to `EMSGSIZE` if the
environment did not fit into the buffer. -/
inductive EnvironRc where
  | ok
  | failed
  | tooLong
deriving DecidableEq, Repr

/-- `ac_read_environ_vars` -/
def acReadEnvironVars (io : EnvironIo) (vars : List AcEnvironQuery) :
    EnvironRc × List AcEnvironQuery :=
  let vars := vars.map fun q => { q with found := false }
  if !io.opens then (.failed, vars)
  else if !io.alloc then (.failed, vars)
  else
    match environLoop io acEnvironBuf 0 0 with
    | none => (.failed, vars)
    | some total =>
        if total = 0 then (.ok, vars)
        else
          -- the entries are the pieces of the buffer between the NULs
          let vars := visitEntries ((io.file.take total).splitOn 0) vars
          if total ≥ acEnvironBuf - 1 then (.tooLong, vars) else (.ok, vars)

/-- The queries for some names, cleared. -/
def environQueries (names : List CStr) : List AcEnvironQuery :=
  names.map fun name => { name := name }

/-- Reading the environment succeeds. -/
def EnvironIo.readsOk (io : EnvironIo) (names : List CStr) : Bool :=
  (acReadEnvironVars io (environQueries names)).1 == .ok

/-- Reading the environment succeeds and finds one of the names. -/
def EnvironIo.finds (io : EnvironIo) (names : List CStr) : Bool :=
  io.readsOk names && (acReadEnvironVars io (environQueries names)).2.any AcEnvironQuery.found

/-- What `ac_read_ld_preload` returns: -1, 0, or 1 with the value. -/
inductive PreloadRead where
  | failed
  | unset
  | set (value : CStr)
deriving DecidableEq

/-- `ac_read_ld_preload` -/
def acReadLdPreload (io : EnvironIo) (outsz : Nat) : PreloadRead :=
  match acReadEnvironVars io (environQueries [CStr.ascii "LD_PRELOAD"]) with
  | (.ok, vars) =>
      -- the one query, if it was found
      match vars.find? AcEnvironQuery.found with
      | some q => .set (CStr.bounded outsz q.value)
      | none => .unset
  | _ => .failed

theorem EnvironIo.readsOk_of_finds {io : EnvironIo} {names : List CStr}
    (h : io.finds names = true) : io.readsOk names = true := by
  unfold EnvironIo.finds at h
  exact (Bool.and_eq_true_iff.1 h).1

/-- The preloaded libraries are reported exactly when the variable is found. -/
theorem acReadLdPreload_eq_set_iff (io : EnvironIo) (outsz : Nat) :
    (∃ value, acReadLdPreload io outsz = .set value) ↔
      io.finds [CStr.ascii "LD_PRELOAD"] = true := by
  unfold acReadLdPreload EnvironIo.finds EnvironIo.readsOk
  rcases acReadEnvironVars io (environQueries [CStr.ascii "LD_PRELOAD"]) with ⟨rc, vars⟩
  cases rc with
  | failed => simp
  | tooLong => simp
  | ok =>
      cases hfind : vars.find? AcEnvironQuery.found with
      | none =>
          have hnone : vars.any AcEnvironQuery.found = false := by
            rw [List.find?_eq_none] at hfind
            simpa using hfind
          simp [hfind, hnone]
      | some q =>
          have hany : vars.any AcEnvironQuery.found = true :=
            List.any_eq_true.2 ⟨q, List.mem_of_find?_eq_some hfind, List.find?_some hfind⟩
          simp [hfind, hany]

/-! ## The answers -/

/-- The content of an environment with the given entries. -/
def environText (entries : List CStr) : List UInt8 :=
  entries.flatMap fun e => e ++ [0]

/-- An entry gives a value to a variable. -/
def Sets (name entry : CStr) : Bool :=
  (name ++ [61]).isPrefixOf entry

/-- The answer to a query that the first entry for its name gives. -/
def AcEnvironQuery.answer (entries : List CStr) (q : AcEnvironQuery) : AcEnvironQuery :=
  match entries.find? (Sets q.name) with
  | some e =>
      { q with value := CStr.bounded acEnvironValLen (e.drop (q.name.length + 1)), found := true }
  | none => { q with found := false }

/-- The file opens, the buffer is allocated and no read fails. -/
def EnvironIo.Complete (io : EnvironIo) : Prop :=
  io.opens = true ∧ io.alloc = true ∧ ∀ k, (io.reads k).isSome = true

/-- The whole file is read, and it fits into the buffer. -/
def EnvironIo.ReadsAll (io : EnvironIo) : Prop :=
  io.opens = true ∧ io.alloc = true ∧ environLoop io acEnvironBuf 0 0 = some io.file.length ∧
    io.file.length < acEnvironBuf - 1

instance (io : EnvironIo) : Decidable io.ReadsAll :=
  inferInstanceAs (Decidable (_ ∧ _ ∧ _ ∧ _))

/-- The loop over the reads fills the buffer as far as the file goes, unless a read
fails. -/
theorem environLoop_eq (io : EnvironIo) {fuel k total : Nat}
    (hfuel : acEnvironBuf - 1 - total < fuel)
    (htotal : total ≤ min io.file.length (acEnvironBuf - 1)) :
    environLoop io fuel k total = some (min io.file.length (acEnvironBuf - 1)) ∨
      environLoop io fuel k total = none ∧ ∃ j, io.reads j = none := by
  induction fuel generalizing k total with
  | zero => omega
  | succ fuel ih =>
      by_cases hroom : total < acEnvironBuf - 1
      · rw [environLoop, if_pos hroom, EnvironIo.read]
        cases hread : io.reads k with
        | none => exact .inr ⟨rfl, k, hread⟩
        | some n =>
            simp only [Option.map_some]
            by_cases hend : io.file.length - total = 0
            · rw [hend, Nat.min_zero, Nat.min_zero, if_pos rfl]
              left
              congr 1
              omega
            · rw [if_neg (by omega)]
              exact ih (by omega) (by omega)
      · rw [environLoop, if_neg hroom]
        left
        congr 1
        omega

/-- The test of the inner loop is that the entry sets the variable. -/
theorem AcEnvironQuery.visit_eq (entry : CStr) (q : AcEnvironQuery) :
    q.visit entry = if !q.found && Sets q.name entry then
      { q with
        value := CStr.bounded acEnvironValLen (entry.drop (q.name.length + 1))
        found := true }
    else q := by
  have htest : (decide (entry.length > q.name.length) && entry.startsWith q.name &&
      entry[q.name.length]? == some 61) = Sets q.name entry := by
    rw [Bool.eq_iff_iff, Sets, List.isPrefixOf_iff_prefix]
    simp only [CStr.startsWith, Bool.and_eq_true, decide_eq_true_eq, beq_iff_eq,
      List.isPrefixOf_iff_prefix]
    constructor
    · rintro ⟨⟨-, t, rfl⟩, hget⟩
      rw [List.getElem?_append_right le_rfl, Nat.sub_self] at hget
      obtain ⟨t, rfl⟩ : ∃ t', t = 61 :: t' := by
        cases t with
        | nil => contradiction
        | cons c t' => exact ⟨t', by simpa using hget⟩
      exact ⟨t, by simp⟩
    · rintro ⟨t, rfl⟩
      refine ⟨⟨?_, [61] ++ t, by simp⟩, ?_⟩
      · simp only [List.length_append, List.length_singleton]
        omega
      · simp
  unfold AcEnvironQuery.visit
  simp only [Bool.and_assoc] at htest ⊢
  rw [htest]

/-- The loop over the entries answers each query from the entries before the first
empty one. -/
theorem visitEntries_eq (entries : List CStr) (vars : List AcEnvironQuery) :
    visitEntries entries vars = vars.map fun q =>
      if q.found then q else q.answer (entries.takeWhile fun e => !e.isEmpty) := by
  -- a query that is not answered is left as it is
  have hstop (q : AcEnvironQuery) : (if q.found then q else q.answer []) = q := by
    cases hfound : q.found with
    | true => rfl
    | false => simp [AcEnvironQuery.answer, ← hfound]
  induction entries generalizing vars with
  | nil => simp [visitEntries, hstop]
  | cons entry rest ih =>
      cases hempty : entry.isEmpty with
      | true => simp [visitEntries, hempty, hstop]
      | false =>
          rw [visitEntries, hempty, if_neg Bool.false_ne_true, ih, List.map_map]
          apply List.map_congr_left
          intro q hq
          simp only [Function.comp_apply, AcEnvironQuery.visit_eq, List.takeWhile_cons, hempty,
            Bool.not_false, if_true]
          cases hfound : q.found with
          | true => simp [hfound]
          | false =>
              cases hsets : Sets q.name entry with
              | true => simp [AcEnvironQuery.answer, hsets]
              | false => simp [AcEnvironQuery.answer, hsets, hfound]

/-- The pieces of an environment between its NULs are its entries. -/
theorem splitOn_environText {entries : List CStr} (hnul : ∀ e ∈ entries, (0 : UInt8) ∉ e) :
    (environText entries).splitOn 0 = entries ++ [[]] := by
  induction entries with
  | nil => rfl
  | cons e entries ih =>
      have he : ∀ c ∈ e, (c == 0) = false := by
        intro c hc
        rw [beq_eq_false_iff_ne]
        rintro rfl
        exact hnul e List.mem_cons_self hc
      have hsplit := List.splitOnP_append_cons_of_forall_mem he 0 rfl (environText entries)
      rw [environText, List.flatMap_cons, List.append_assoc, List.cons_append]
      rw [List.splitOn, List.nil_append]
      refine hsplit.trans ?_
      rw [List.cons_append]
      congr 1
      exact ih fun e' he' => hnul e' (List.mem_cons_of_mem e he')

/-- No read fails, so an environment that fits is read. -/
theorem EnvironIo.Complete.readsAll {io : EnvironIo} (hio : io.Complete)
    (hfits : io.file.length < acEnvironBuf - 1) : io.ReadsAll := by
  rcases hio with ⟨hopens, halloc, hreads⟩
  refine ⟨hopens, halloc, ?_, hfits⟩
  rcases @environLoop_eq io acEnvironBuf 0 0 (by decide) (Nat.zero_le _) with hloop | ⟨-, j, hj⟩
  · rw [hloop, Nat.min_eq_left hfits.le]
  · have hsome := hreads j
    rw [hj] at hsome
    contradiction

/-- The function returns 0 exactly if it has read the whole environment. -/
theorem acReadEnvironVars_ok_iff (io : EnvironIo) (vars : List AcEnvironQuery) :
    (acReadEnvironVars io vars).1 = .ok ↔ io.ReadsAll := by
  unfold EnvironIo.ReadsAll
  cases hopens : io.opens with
  | false => simp [acReadEnvironVars, hopens]
  | true =>
      cases halloc : io.alloc with
      | false => simp [acReadEnvironVars, hopens, halloc]
      | true =>
          rcases @environLoop_eq io acEnvironBuf 0 0 (by decide) (Nat.zero_le _) with
            hloop | ⟨hloop, -⟩
          · rcases lt_or_ge io.file.length (acEnvironBuf - 1) with hfits | hlong
            · rw [Nat.min_eq_left hfits.le] at hloop
              simp only [acReadEnvironVars, hopens, halloc, hloop, hfits, hfits.not_ge,
                Bool.not_true, Bool.false_eq_true, if_false, and_self, iff_true]
              split <;> rfl
            · rw [Nat.min_eq_right hlong] at hloop
              have hpos : acEnvironBuf - 1 ≠ 0 := by decide
              simp [acReadEnvironVars, hopens, halloc, hloop, hpos, hlong]
          · simp [acReadEnvironVars, hopens, halloc, hloop]

/-- What `ac_read_environ_vars` answers on an environment that it has read, however the
reads split it. -/
theorem acReadEnvironVars_eq {io : EnvironIo} (hio : io.ReadsAll) {entries : List CStr}
    (hnul : ∀ e ∈ entries, (0 : UInt8) ∉ e) (hfile : io.file = environText entries)
    (vars : List AcEnvironQuery) :
    acReadEnvironVars io vars =
      (.ok, vars.map (AcEnvironQuery.answer (entries.takeWhile fun e => !e.isEmpty))) := by
  rcases hio with ⟨hopens, halloc, hloop, hfits⟩
  have hempty (rest : List CStr) :
      (entries ++ [] :: rest).takeWhile (fun e => !e.isEmpty) =
        entries.takeWhile fun e => !e.isEmpty := by
    rw [List.takeWhile_append]
    split
    · rename_i hall
      simpa using ((List.takeWhile_prefix _).eq_of_length hall).symm
    · rfl
  simp only [acReadEnvironVars, hopens, halloc, hloop, Bool.not_true, Bool.false_eq_true, if_false]
  rw [if_neg hfits.not_ge, List.take_length]
  by_cases hzero : io.file.length = 0
  · -- every entry takes its NUL, so there is none
    obtain rfl : entries = [] := by
      rw [hfile, List.length_eq_zero_iff] at hzero
      cases entries with
      | nil => rfl
      | cons e entries => simp [environText] at hzero
    rw [if_pos hzero]
    rfl
  · rw [if_neg hzero, visitEntries_eq, hfile, splitOn_environText hnul, hempty, List.map_map]
    rfl

/-- An environment that does not fit is never answered with 0. -/
theorem acReadEnvironVars_ne_ok {io : EnvironIo} (hlong : acEnvironBuf - 1 ≤ io.file.length)
    (vars : List AcEnvironQuery) : (acReadEnvironVars io vars).1 ≠ .ok := by
  rw [Ne, acReadEnvironVars_ok_iff]
  exact fun hio => hlong.not_gt hio.2.2.2

theorem AcEnvironQuery.found_answer (entries : List CStr) (q : AcEnvironQuery) :
    (q.answer entries).found = entries.any (Sets q.name) := by
  unfold AcEnvironQuery.answer
  cases hfind : entries.find? (Sets q.name) with
  | none => simpa using hfind
  | some e =>
      exact (List.any_eq_true.mpr
        ⟨e, List.mem_of_find?_eq_some hfind, List.find?_some hfind⟩).symm

/-- A variable is found if the environment has been read and an entry before the first
empty one sets it. -/
theorem EnvironIo.finds_singleton_iff {io : EnvironIo} {entries : List CStr}
    (hnul : ∀ e ∈ entries, (0 : UInt8) ∉ e) (hfile : io.file = environText entries)
    (name : CStr) :
    io.finds [name] = true ↔
      io.ReadsAll ∧ (entries.takeWhile fun e => !e.isEmpty).any (Sets name) = true := by
  rw [EnvironIo.finds, EnvironIo.readsOk, Bool.and_eq_true, beq_iff_eq, acReadEnvironVars_ok_iff]
  refine and_congr_right fun hio => ?_
  rw [acReadEnvironVars_eq hio hnul hfile]
  simp [environQueries, AcEnvironQuery.found_answer]

/-- The entries before the first empty one give the same answer as all of them unless
only a later one sets the variable. -/
theorem AcEnvironQuery.answer_takeWhile_iff (entries : List CStr) (q : AcEnvironQuery) :
    q.answer (entries.takeWhile fun e => !e.isEmpty) = q.answer entries ↔
      ((∃ e ∈ entries, Sets q.name e = true) →
        ∃ e ∈ entries.takeWhile fun e => !e.isEmpty, Sets q.name e = true) := by
  set before := entries.takeWhile fun e => !e.isEmpty
  have hsplit : entries = before ++ entries.dropWhile fun e => !e.isEmpty :=
    List.takeWhile_append_dropWhile.symm
  cases hbefore : before.find? (Sets q.name) with
  | some e =>
      have hall : entries.find? (Sets q.name) = some e := by
        rw [hsplit, List.find?_append, hbefore, Option.some_or]
      refine iff_of_true (by simp only [AcEnvironQuery.answer, hbefore, hall]) fun _ => ?_
      exact ⟨e, List.mem_of_find?_eq_some hbefore, List.find?_some hbefore⟩
  | none =>
      have hnone : ¬∃ e ∈ before, Sets q.name e = true := by
        rw [List.find?_eq_none] at hbefore
        rintro ⟨e, he, hsets⟩
        exact hbefore e he hsets
      cases hall : entries.find? (Sets q.name) with
      | none =>
          refine iff_of_true (by simp only [AcEnvironQuery.answer, hbefore, hall]) ?_
          rintro ⟨e, he, hsets⟩
          exact absurd hsets (List.find?_eq_none.mp hall e he)
      | some e =>
          refine iff_of_false ?_ fun himp => hnone (himp
            ⟨e, List.mem_of_find?_eq_some hall, List.find?_some hall⟩)
          intro heq
          have hfound := congrArg AcEnvironQuery.found heq
          simp [AcEnvironQuery.answer, hbefore, hall] at hfound

/-- The answers are those of the first entry for each name, and an environment that does
not fit is reported, exactly when no queried variable of an environment that can be read
is set only behind an empty entry. -/
theorem environ_lookup_exact_iff (io : EnvironIo) (entries : List CStr)
    (hnul : ∀ e ∈ entries, (0 : UInt8) ∉ e) (hfile : io.file = environText entries)
    (vars : List AcEnvironQuery) :
    ((io.Complete → io.file.length < acEnvironBuf - 1 →
        acReadEnvironVars io vars = (.ok, vars.map (AcEnvironQuery.answer entries))) ∧
      (acEnvironBuf - 1 ≤ io.file.length → (acReadEnvironVars io vars).1 ≠ .ok)) ↔
      (io.Complete → io.file.length < acEnvironBuf - 1 →
        ∀ q ∈ vars, (∃ e ∈ entries, Sets q.name e = true) →
          ∃ e ∈ entries.takeWhile fun e => !e.isEmpty, Sets q.name e = true) := by
  rw [and_iff_left fun hlong => acReadEnvironVars_ne_ok hlong vars]
  refine imp_congr_right fun hio => imp_congr_right fun hfits => ?_
  rw [acReadEnvironVars_eq (hio.readsAll hfits) hnul hfile, Prod.mk.injEq, and_iff_right rfl,
    List.map_inj_left]
  simp only [AcEnvironQuery.answer_takeWhile_iff]

/-- An environment with an empty entry in front of one that preloads a library, read in
pieces of `n` bytes. -/
def hiddenPreload (n : Nat) : EnvironIo where
  opens := true
  alloc := true
  file := environText [[], CStr.ascii "LD_PRELOAD=/tmp/x.so"]
  reads := fun _ => some n

/-- With no empty entry in front, the library is found. -/
theorem preload_found :
    acReadEnvironVars
        { hiddenPreload 7 with file := environText [CStr.ascii "LD_PRELOAD=/tmp/x.so", []] }
        (environQueries [CStr.ascii "LD_PRELOAD"]) =
      (.ok, [⟨CStr.ascii "LD_PRELOAD", CStr.ascii "/tmp/x.so", true⟩]) := by
  refine ((environ_lookup_exact_iff _ [CStr.ascii "LD_PRELOAD=/tmp/x.so", []] ?_ rfl _).mpr
    ?_).1 ⟨rfl, rfl, fun _ => rfl⟩ (by decide)
  · decide
  · intro _ _
    decide

/-- The empty entry hides the variable: the function answers 0 and not found. -/
theorem hidden_preload_not_found :
    (hiddenPreload 7).Complete ∧ (hiddenPreload 7).file.length < acEnvironBuf - 1 ∧
      acReadEnvironVars (hiddenPreload 7) (environQueries [CStr.ascii "LD_PRELOAD"]) ≠
        (.ok, (environQueries [CStr.ascii "LD_PRELOAD"]).map
          (AcEnvironQuery.answer [[], CStr.ascii "LD_PRELOAD=/tmp/x.so"])) := by
  have hio : (hiddenPreload 7).Complete := ⟨rfl, rfl, fun _ => rfl⟩
  have hfits : (hiddenPreload 7).file.length < acEnvironBuf - 1 := by decide
  refine ⟨hio, hfits, ?_⟩
  rw [@acReadEnvironVars_eq _ (hio.readsAll hfits) [[], CStr.ascii "LD_PRELOAD=/tmp/x.so"]
    (by decide) rfl]
  decide

end Anticheat
