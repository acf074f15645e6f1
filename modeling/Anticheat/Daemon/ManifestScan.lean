import Anticheat.Daemon.Manifest
import Anticheat.Foundation.TracedLoop

/-!
# What the manifest scanners touch

The extractors of a manifest, once more as the daemon runs them: with indices into the
text, loops, and a buffer that receives the string.  Each access to the text and to the
buffer is logged.  A loop that did not end would not return, and neither would an access
outside the text or the buffer.

The text is written by whoever installs a layer.  A string need not be closed, and its
last byte may be a backslash.

Main results:

- Theorem {lit}`total_copyStringAt`: the copy of a string ends, stays in both buffers and
  leaves a terminated string.
- Theorems {lit}`total_jsonExtractStringAt` and {lit}`total_jsonExtractDisableEnvAt`: the
  scanners return what the extractors say.
- Theorem {lit}`manifest_scanners_safe`: for every text, key and buffer, they return and
  stay in bounds.
-/

namespace Anticheat

open Foundation Quoted Traced

variable {outsz : Nat}

/-! ## The scanners -/

/-- `while (q < end && isspace((unsigned char)*q)) q++;` -/
def skipSpacesAt (json : List UInt8) (fuel q : Nat) : Traced Access Nat :=
  iterate (fun q => do
    if q < json.length then
      let c ← readAt json q
      if CStr.isSpace c then pure (.again (q + 1)) else pure (.done q)
    else pure (.done q)) fuel q

/-- Skip white space, then `if (q >= end || *q != c)` give up, else `q++;` -/
def expectAt (json : List UInt8) (fuel : Nat) (c : UInt8) (q : Nat) :
    Traced Access (Option Nat) := do
  let q ← skipSpacesAt json fuel q
  if q < json.length then
    let d ← readAt json q
    if d = c then pure (some (q + 1)) else pure none
  else pure none

/-- Where the copy of a string is, and the buffer so far. -/
structure CopyState (outsz : Nat) where
  q : Nat
  oi : Nat
  out : CharArray outsz

/-- One turn of the loop `while (q < end && *q != '"')`. -/
def copyTurn (json : List UInt8) (s : CopyState outsz) :
    Traced Access (Turn (CopyState outsz) (CopyState outsz)) := do
  if s.q < json.length then
    let c ← readAt json s.q
    if c = 34 then pure (.done s)
    else
      let e ← readAt json s.q
      -- a backslash that is the last byte escapes nothing
      let q := if e = 92 ∧ s.q + 1 < json.length then s.q + 1 else s.q
      if s.oi + 1 < outsz then
        let d ← readAt json q
        let out ← writeAt s.out s.oi d
        pure (.again ⟨q + 1, s.oi + 1, out⟩)
      else pure (.again ⟨q + 1, s.oi, s.out⟩)
  else pure (.done s)

/-- Copy the string behind an opening quote, and end it. -/
def copyStringAt (json : List UInt8) (fuel : Nat) (out : CharArray outsz) (q : Nat) :
    Traced Access (CharArray outsz) := do
  let s ← iterate (copyTurn json) fuel ⟨q, 0, out⟩
  -- `outsz - 1` is computed in a `size_t`
  writeAt s.out (if s.oi < outsz then s.oi else (outsz + 2 ^ 64 - 1) % 2 ^ 64) 0

/-- Go on behind a byte, if that is what follows. -/
def behindAt {α : Type} (json : List UInt8) (fuel : Nat) (c : UInt8)
    (next : Nat → Traced Access (Option α)) (q : Nat) : Traced Access (Option α) := do
  match ← expectAt json fuel c q with
  | none => pure none
  | some q => next q

/-- The string behind a key: a colon, an opening quote and the string. -/
def stringValueAt (json : List UInt8) (fuel : Nat) (out : CharArray outsz) :
    Nat → Traced Access (Option (CharArray outsz)) :=
  behindAt json fuel 58 <| behindAt json fuel 34 fun q => do
    return some (← copyStringAt json fuel out q)

/-- The first key of the object behind a key: a colon, an opening brace, an opening quote
and the string. -/
def firstKeyAt (json : List UInt8) (fuel : Nat) (out : CharArray outsz) :
    Nat → Traced Access (Option (CharArray outsz)) :=
  behindAt json fuel 58 <| behindAt json fuel 123 <| behindAt json fuel 34 fun q => do
    return some (← copyStringAt json fuel out q)

/-- `memmem(p, end - p, needle, needle_len)`, which may read all that it is given. -/
def memmemAt (json needle : List UInt8) (p : Nat) : Traced Access (Option Nat) := do
  tell ((List.range' p (json.length - p)).map .read)
  pure ((memmem needle (json.drop p)).map (p + ·))

/-- One turn of the loop `while (p < end)` of `json_extract_string`. -/
def extractTurn (json needle : List UInt8) (fuel : Nat) (out : CharArray outsz) (p : Nat) :
    Traced Access (Turn Nat (Bool × CharArray outsz)) := do
  if p < json.length then
    match ← memmemAt json needle p with
    | none => pure (.done (false, out))
    | some hit =>
        match ← stringValueAt json fuel out (hit + needle.length) with
        | none => pure (.again (hit + 1))
        | some out => pure (.done (true, out))
  else pure (.done (false, out))

/-- `json_extract_string` -/
def jsonExtractStringAt (json : List UInt8) (fuel : Nat) (key : CStr) (out : CharArray outsz) :
    Traced Access (Bool × CharArray outsz) :=
  -- the needle has to fit its buffer
  if (needle key).length ≥ 64 then pure (false, out)
  else iterate (extractTurn json (needle key) fuel out) fuel 0

/-- `json_extract_disable_env` -/
def jsonExtractDisableEnvAt (json : List UInt8) (fuel : Nat) (out : CharArray outsz) :
    Traced Access (Bool × CharArray outsz) := do
  let word := needle (CStr.ascii "disable_environment")
  match ← memmemAt json word 0 with
  | none => pure (false, out)
  | some hit =>
      match ← firstKeyAt json fuel out (hit + word.length) with
      | none => pure (false, out)
      | some out => pure (true, out)

/-! ## White space and single bytes -/

section

variable {json : List UInt8} {fuel q w : Nat}

theorem drop_of_getElem {c : UInt8} (h : json[q]? = some c) :
    json.drop q = c :: json.drop (q + 1) := by
  rcases List.getElem?_eq_some_iff.1 h with ⟨hq, rfl⟩
  exact List.drop_eq_getElem_cons hq

theorem total_skipSpacesAt (hfuel : json.length < fuel) :
    Total (Access.Within json.length w)
      (fun q' => json.drop q' = CStr.skipSpaces (json.drop q)) (skipSpacesAt json fuel q) := by
  -- what is left to skip is the same at every turn
  refine total_iterate
    (fun q' => CStr.skipSpaces (json.drop q') = CStr.skipSpaces (json.drop q))
    (fun q' => json.length - q') ?_ rfl (Nat.lt_of_le_of_lt (Nat.sub_le _ _) hfuel)
  intro q' hskip
  rw [← hskip]
  by_cases hlt : q' < json.length
  · simp only [if_pos hlt]
    apply (total_readAt hlt).bind
    intro c hc
    rw [drop_of_getElem hc]
    by_cases hspace : CStr.isSpace c = true
    · have hrest : CStr.skipSpaces (c :: json.drop (q' + 1)) =
          CStr.skipSpaces (json.drop (q' + 1)) := List.dropWhile_cons_of_pos hspace
      rw [if_pos hspace]
      exact total_pure ⟨hrest.symm, Nat.sub_lt_sub_left hlt (Nat.lt_succ_self q')⟩
    · rw [if_neg hspace, CStr.skipSpaces_cons (Bool.eq_false_iff.2 hspace)]
      exact total_pure (drop_of_getElem hc)
  · have hnil : json.drop q' = [] := List.drop_of_length_le (Nat.not_lt.1 hlt)
    simp only [if_neg hlt]
    apply total_pure
    rw [hnil]
    exact hnil

/-- What is read at an index is what is read from the rest of the text. -/
theorem total_expectAt (hfuel : json.length < fuel) (c : UInt8) :
    Total (Access.Within json.length w) (fun r => r.map json.drop = expect c (json.drop q))
      (expectAt json fuel c q) := by
  apply (total_skipSpacesAt hfuel).bind
  intro q' hskip
  rw [expect, ← hskip]
  by_cases hlt : q' < json.length
  · rw [if_pos hlt]
    apply (total_readAt hlt).bind
    intro d hd
    rw [drop_of_getElem hd]
    by_cases hdc : d = c
    · simp only [if_pos hdc]
      exact total_pure rfl
    · simp only [if_neg hdc]
      exact total_pure rfl
  · rw [if_neg hlt, List.drop_of_length_le (Nat.not_lt.1 hlt)]
    exact total_pure rfl

/-! ## Strings -/

/-- A byte that starts no escape and is no quote stands for itself; at the end of the text,
this is so for a backslash, too. -/
theorem unquote_plain {c : UInt8} {s : List UInt8} (hquote : c ≠ 34) (hescape : c = 92 → s = []) :
    unquote (c :: s) = c :: unquote s := by
  by_cases hc : c = 92
  · rw [hescape hc, hc]
    rfl
  · exact unquote_cons_of_ne hquote hc s

/-- One turn of the copy loop takes one character of the string, escaped or not. -/
theorem unquote_drop {c d : UInt8} (hc : json[q]? = some c) (hquote : c ≠ 34)
    (hd : json[if c = 92 ∧ q + 1 < json.length then q + 1 else q]? = some d) :
    unquote (json.drop q) =
      d :: unquote (json.drop ((if c = 92 ∧ q + 1 < json.length then q + 1 else q) + 1)) := by
  by_cases hescape : c = 92 ∧ q + 1 < json.length
  · rw [if_pos hescape] at hd ⊢
    rw [drop_of_getElem hc, drop_of_getElem hd, hescape.1, unquote_escaped]
  · rw [if_neg hescape] at hd ⊢
    rw [hc, Option.some.injEq] at hd
    rw [drop_of_getElem hc, ← hd, unquote_plain hquote]
    intro hback
    exact List.drop_of_length_le (Nat.not_lt.1 fun hlt => hescape ⟨hback, hlt⟩)

/-- The buffer holds the start of the string, and the rest is still to come. -/
structure CopyState.Inv (json : List UInt8) (str : CStr) (s : CopyState outsz) : Prop where
  oi_lt : s.oi < outsz
  copied : s.out.slots.take s.oi ++ (unquote (json.drop s.q)).take (outsz - 1 - s.oi) =
    CStr.bounded outsz str

theorem CopyState.Inv.write {str : CStr} {s : CopyState outsz} {d : UInt8} {q' : Nat}
    (h : s.Inv json str)
    (hstep : unquote (json.drop s.q) = d :: unquote (json.drop q')) (hroom : s.oi + 1 < outsz) :
    CopyState.Inv json str ⟨q', s.oi + 1, s.out.set s.oi d⟩ where
  oi_lt := hroom
  copied := by
    have hlt : s.oi < s.out.slots.length := by
      rw [s.out.length_slots]
      exact h.oi_lt
    have hleft : outsz - 1 - s.oi = (outsz - 1 - (s.oi + 1)) + 1 := by omega
    have htake : (s.out.set s.oi d).slots.take (s.oi + 1) = s.out.slots.take s.oi ++ [d] := by
      rw [SlotTable.set_slots, List.take_add_one, List.take_set_of_le (Nat.le_refl _),
        List.getElem?_set_self hlt]
      rfl
    rw [htake, ← h.copied, hstep, hleft, List.take_succ_cons, List.append_assoc]
    rfl

/-- Without room in the buffer, the rest of the string is passed over. -/
theorem CopyState.Inv.skip {str : CStr} {s : CopyState outsz} {q' : Nat}
    (h : s.Inv json str) (hfull : ¬s.oi + 1 < outsz) :
    CopyState.Inv json str ⟨q', s.oi, s.out⟩ where
  oi_lt := h.oi_lt
  copied := by
    have hleft : outsz - 1 - s.oi = 0 := by omega
    have hold := h.copied
    rw [hleft, List.take_zero] at hold ⊢
    exact hold

theorem total_copyTurn {str : CStr} {s : CopyState outsz} (h : s.Inv json str) :
    Total (Access.Within json.length outsz)
      (Turn.Meets (CopyState.Inv json str) (fun s => json.length - s.q) s
        fun s' => s'.Inv json str ∧ unquote (json.drop s'.q) = [])
      (copyTurn json s) := by
  rw [copyTurn]
  by_cases hlt : s.q < json.length
  · rw [if_pos hlt]
    apply (total_readAt hlt).bind
    intro c hc
    by_cases hquote : c = 34
    · rw [if_pos hquote]
      refine total_pure ⟨h, ?_⟩
      rw [drop_of_getElem hc, hquote]
      cases json.drop (s.q + 1) <;> rfl
    · rw [if_neg hquote]
      apply (total_readAt hlt).bind
      intro e he
      rw [hc, Option.some.injEq] at he
      subst he
      have hread : (if c = 92 ∧ s.q + 1 < json.length then s.q + 1 else s.q) < json.length := by
        split <;> omega
      have hadvance : s.q ≤ (if c = 92 ∧ s.q + 1 < json.length then s.q + 1 else s.q) := by
        split <;> omega
      have hless := Nat.sub_lt_sub_left hlt (Nat.lt_succ_of_le hadvance)
      by_cases hroom : s.oi + 1 < outsz
      · simp only [if_pos hroom]
        apply (total_readAt hread).bind
        intro d hd
        apply (total_writeAt s.out h.oi_lt d).bind
        rintro out rfl
        exact total_pure ⟨h.write (unquote_drop hc hquote hd) hroom, hless⟩
      · simp only [if_neg hroom]
        exact total_pure ⟨h.skip hroom, hless⟩
  · rw [if_neg hlt]
    refine total_pure ⟨h, ?_⟩
    rw [List.drop_of_length_le (Nat.not_lt.1 hlt)]
    rfl

/-- The copy leaves a terminated string, and it is the one that `copyString` says. -/
theorem total_copyStringAt (hfuel : json.length < fuel) (hout : 1 ≤ outsz) (out : CharArray outsz) :
    Total (Access.Within json.length outsz)
      (fun out' => out'.Terminated ∧ out'.str = copyString outsz (json.drop q))
      (copyStringAt json fuel out q) := by
  have hstart : CopyState.Inv json (unquote (json.drop q)) ⟨q, 0, out⟩ := ⟨hout, rfl⟩
  have hloop := total_iterate (CopyState.Inv json (unquote (json.drop q)))
    (fun s => json.length - s.q) (fun _ h => total_copyTurn h) hstart
    (Nat.lt_of_le_of_lt (Nat.sub_le _ _) hfuel)
  rw [copyStringAt]
  apply hloop.bind
  rintro s ⟨hinv, hdone⟩
  rw [if_pos hinv.oi_lt]
  refine (total_writeAt s.out hinv.oi_lt 0).mono ?_
  rintro out' rfl
  have hlt : s.oi < s.out.slots.length := by
    rw [s.out.length_slots]
    exact hinv.oi_lt
  have hslots : (s.out.set s.oi 0).slots =
      s.out.slots.take s.oi ++ 0 :: s.out.slots.drop (s.oi + 1) := by
    rw [SlotTable.set_slots, List.set_eq_take_append_cons_drop, if_pos hlt]
  have hcopied := hinv.copied
  rw [hdone, List.take_nil, List.append_nil] at hcopied
  constructor
  · apply CharArray.terminated_of_mem
    rw [hslots]
    simp
  · rw [CharArray.str, hslots, CharArray.takeWhile_nul, hcopied]
    rfl

end

/-! ## The scanners return -/

/-- What a scanner copied is a terminated string, and the one that an extractor reads. -/
structure Copied (value : Option CStr) (r : Option (CharArray outsz)) : Prop where
  str_eq : r.map CharArray.str = value
  terminated : ∀ out ∈ r, out.Terminated

/-- A scanner returns 1 with a terminated string in the buffer, or 0, as an extractor
says. -/
structure Extracted (value : Option CStr) (r : Bool × CharArray outsz) : Prop where
  result : (if r.1 then some r.2.str else none) = value
  terminated : r.1 = true → r.2.Terminated

theorem extracted_zero {out : CharArray outsz} {value : Option CStr} (h : value = none) :
    Extracted value (false, out) :=
  ⟨h.symm, by simp⟩

theorem Copied.extracted {value : Option CStr} {out : CharArray outsz}
    (h : Copied value (some out)) : Extracted value (true, out) :=
  ⟨h.str_eq, fun _ => h.terminated out rfl⟩

section

variable {json : List UInt8} {fuel p q w : Nat}

theorem total_memmemAt (needle : List UInt8) :
    Total (Access.Within json.length w) (fun r => r = (memmem needle (json.drop p)).map (p + ·))
      (memmemAt json needle p) := by
  have hlog : ∀ e ∈ (List.range' p (json.length - p)).map Access.read,
      e.Within json.length w := by
    intro e he
    rcases List.mem_map.1 he with ⟨i, hi, rfl⟩
    rw [List.mem_range'_1] at hi
    change i < json.length
    omega
  apply (total_tell hlog).bind
  intro _ _
  exact total_pure rfl

-- every loop has more turns than the text has bytes, and the buffer has room for a NUL
variable (hfuel : json.length < fuel) (hout : 1 ≤ outsz) (out : CharArray outsz)

include hfuel

theorem total_behindAt (c : UInt8)
    {next : Nat → Traced Access (Option (CharArray outsz))} {value : List UInt8 → Option CStr}
    (hnext : ∀ q, Total (Access.Within json.length outsz) (Copied (value (json.drop q)))
      (next q)) :
    Total (Access.Within json.length outsz) (Copied ((expect c (json.drop q)).bind value))
      (behindAt json fuel c next q) := by
  apply (total_expectAt hfuel c).bind
  intro r hr
  rw [← hr]
  cases r with
  | none => exact total_pure ⟨rfl, by simp⟩
  | some q' => exact hnext q'

include hout

theorem total_copied :
    Total (Access.Within json.length outsz) (Copied (some (copyString outsz (json.drop q))))
      (do return some (← copyStringAt json fuel out q)) := by
  apply (total_copyStringAt hfuel hout out).bind
  rintro out' ⟨hterminated, hstr⟩
  apply total_pure
  exact ⟨congrArg some hstr, by simpa using hterminated⟩

theorem total_stringValueAt :
    Total (Access.Within json.length outsz) (Copied (stringValue outsz (json.drop q)))
      (stringValueAt json fuel out q) := by
  rw [stringValue, Option.map_eq_bind, Option.bind_assoc]
  apply total_behindAt hfuel 58
  intro q
  apply total_behindAt hfuel 34
  intro q
  exact total_copied hfuel hout out

theorem total_firstKeyAt :
    Total (Access.Within json.length outsz) (Copied (firstKey outsz (json.drop q)))
      (firstKeyAt json fuel out q) := by
  rw [firstKey, Option.map_eq_bind, Option.bind_assoc, Option.bind_assoc]
  apply total_behindAt hfuel 58
  intro q
  apply total_behindAt hfuel 123
  intro q
  apply total_behindAt hfuel 34
  intro q
  exact total_copied hfuel hout out

/-- Where the search starts again, the occurrences passed so far have no string behind
them. -/
theorem total_extractTurn {needle : List UInt8} (hneedle : needle ≠ []) {value : Option CStr}
    (hvalue : (occurrences needle (json.drop p)).findSome? (stringValue outsz) = value) :
    Total (Access.Within json.length outsz)
      (Turn.Meets
        (fun p => (occurrences needle (json.drop p)).findSome? (stringValue outsz) = value)
        (fun p => json.length - p) p (Extracted value))
      (extractTurn json needle fuel out p) := by
  rw [extractTurn]
  by_cases hlt : p < json.length
  · rw [if_pos hlt]
    apply (total_memmemAt needle).bind
    rintro r rfl
    cases hhit : memmem needle (json.drop p) with
    | none =>
        rw [occurrences_of_memmem_none hhit] at hvalue
        exact total_pure (extracted_zero hvalue.symm)
    | some i =>
        have hless : p < p + i + 1 := by omega
        rw [occurrences_of_memmem hneedle hhit, List.drop_drop, List.drop_drop, ← Nat.add_assoc,
          ← Nat.add_assoc, List.findSome?_cons] at hvalue
        apply (total_stringValueAt hfuel hout out).bind
        intro r hr
        rw [← hr.str_eq] at hvalue
        cases r with
        | none => exact total_pure ⟨hvalue, Nat.sub_lt_sub_left hlt hless⟩
        | some out' => exact total_pure ⟨hvalue, fun _ => hr.terminated out' rfl⟩
  · rw [if_neg hlt]
    rw [List.drop_of_length_le (Nat.not_lt.1 hlt)] at hvalue
    exact total_pure (extracted_zero hvalue.symm)

/-- `json_extract_string` returns what the extractor says. -/
theorem total_jsonExtractStringAt (key : CStr) :
    Total (Access.Within json.length outsz) (Extracted (jsonExtractString json key outsz))
      (jsonExtractStringAt json fuel key out) := by
  rw [jsonExtractString, jsonExtractStringAt]
  by_cases hlong : (needle key).length ≥ 64
  · rw [if_pos hlong, if_pos hlong]
    exact total_pure (extracted_zero rfl)
  · rw [if_neg hlong, if_neg hlong]
    refine total_iterate (fun p =>
        (occurrences (needle key) (json.drop p)).findSome? (stringValue outsz) =
          (occurrences (needle key) json).findSome? (stringValue outsz))
      (fun p => json.length - p) ?_ rfl hfuel
    intro p hvalue
    exact total_extractTurn hfuel hout out (List.cons_ne_nil _ _) hvalue

/-- `json_extract_disable_env` returns what the extractor says. -/
theorem total_jsonExtractDisableEnvAt :
    Total (Access.Within json.length outsz) (Extracted (jsonExtractDisableEnv json outsz))
      (jsonExtractDisableEnvAt json fuel out) := by
  rw [jsonExtractDisableEnv]
  generalize hword : needle (CStr.ascii "disable_environment") = word
  have hne : word ≠ [] := by
    rw [← hword]
    exact List.cons_ne_nil _ _
  rw [jsonExtractDisableEnvAt]
  simp only [hword]
  apply (total_memmemAt word).bind
  rintro r rfl
  rw [List.drop_zero]
  cases hhit : memmem word json with
  | none =>
      rw [occurrences_of_memmem_none hhit]
      exact total_pure (extracted_zero rfl)
  | some i =>
      rw [occurrences_of_memmem hne hhit, List.head?_cons, Option.bind_some, Option.map_some,
        Nat.zero_add]
      apply (total_firstKeyAt hfuel hout out).bind
      intro r hr
      cases r with
      | none => exact total_pure (extracted_zero hr.str_eq.symm)
      | some out' => exact total_pure hr.extracted

end

/-- If a scanner returned 1, the buffer holds a string with its NUL. -/
def EndsInBuffer (r : Bool × CharArray outsz) : Prop :=
  r.1 = true → r.2.slots[r.2.str.length]? = some 0 ∧ r.2.str.length ≤ outsz - 1

theorem Extracted.endsInBuffer {value : Option CStr} {r : Bool × CharArray outsz}
    (h : Extracted value r) : EndsInBuffer r := by
  intro hone
  have hterminated := h.terminated hone
  exact ⟨hterminated, Nat.le_sub_one_of_lt hterminated.length_lt⟩

/-- Both scanners return, for every text and key.  They read inside the text and write inside
the buffer, and if they return 1, the string that they leave there is terminated. -/
theorem manifest_scanners_safe (json : List UInt8) (key : CStr) (out : CharArray outsz)
    (hout : 1 ≤ outsz) (fuel : Nat) (hfuel : json.length < fuel) :
    Total (Access.Within json.length outsz) EndsInBuffer (jsonExtractStringAt json fuel key out) ∧
      Total (Access.Within json.length outsz) EndsInBuffer
        (jsonExtractDisableEnvAt json fuel out) := by
  constructor
  · exact (total_jsonExtractStringAt hfuel hout out key).mono fun _ h => h.endsInBuffer
  · exact (total_jsonExtractDisableEnvAt hfuel hout out).mono fun _ h => h.endsInBuffer

/-- A string that is not closed, with a backslash at the end. -/
def openString : List UInt8 :=
  CStr.ascii "\"k\": \"ab\\"

theorem manifest_scanners_safe_openString :
    Total (Access.Within openString.length 3) EndsInBuffer
        (jsonExtractStringAt openString 10 (CStr.ascii "k") (SlotTable.replicate 3 7)) ∧
      Total (Access.Within openString.length 3) EndsInBuffer
        (jsonExtractDisableEnvAt openString 10 (SlotTable.replicate 3 7)) :=
  manifest_scanners_safe openString (CStr.ascii "k") (SlotTable.replicate 3 7) (by decide) 10
    (by decide)

/-- The backslash is copied if there is room. -/
example : ((jsonExtractStringAt openString 10 (CStr.ascii "k")
    (SlotTable.replicate 4 7 : CharArray 4)).val.map fun r => (r.1, r.2.slots)) =
      some (true, [97, 98, 92, 0]) := by
  decide

end Anticheat
