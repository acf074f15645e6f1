import Anticheat.Foundation.CScan

/-!
# Quoted strings in a text

A string between double quotes, with a backslash before every quote and every
backslash in it, and the search for a quoted word in a text.  A word that is searched
for with its quotes occurs in a quoted string at most once: where the string is the
word, or where the string ends in a quote and the word.

Main results:

- Theorem {lit}`unquote_quoted`: reading a quoted string back gives the string.
- Theorem {lit}`IsBody.occurrences_quoted`: where a quoted word occurs in a string, however
  it is escaped.
- Theorem {lit}`occurrences_quoted`: where a quoted word occurs in a quoted string.
- Theorem {lit}`occurrences_gap`: it does not occur across white space.
-/

namespace Foundation

/-- The rests of a text behind each occurrence of a needle, from left to right; the
occurrences may overlap. -/
def occurrences {α : Type} [BEq α] (needle : List α) : List α → List (List α)
  | [] => []
  | c :: s =>
      if needle.isPrefixOf (c :: s) then
        (c :: s).drop needle.length :: occurrences needle s
      else occurrences needle s

/-- `memmem`: where the first occurrence of a needle starts. -/
def memmem {α : Type} [BEq α] (needle : List α) : List α → Option Nat
  | [] => if needle.isEmpty then some 0 else none
  | c :: s => if needle.isPrefixOf (c :: s) then some 0 else (memmem needle s).map (· + 1)

/-- The first occurrence starts where `memmem` says, and the others start behind it. -/
theorem occurrences_of_memmem {α : Type} [BEq α] {needle s : List α} {i : Nat}
    (hneedle : needle ≠ []) (h : memmem needle s = some i) :
    occurrences needle s =
      s.drop (i + needle.length) :: occurrences needle (s.drop (i + 1)) := by
  induction s generalizing i with
  | nil => simp [memmem, hneedle] at h
  | cons c s ih =>
      rw [memmem] at h
      rw [occurrences]
      split at h
      · rename_i hmatch
        cases h
        rw [if_pos hmatch, Nat.zero_add, List.drop_succ_cons, List.drop_zero]
      · rename_i hmatch
        rcases Option.map_eq_some_iff.1 h with ⟨j, hj, rfl⟩
        rw [if_neg hmatch, ih hj, Nat.add_right_comm, List.drop_succ_cons, List.drop_succ_cons]

theorem occurrences_of_memmem_none {α : Type} [BEq α] {needle s : List α}
    (h : memmem needle s = none) : occurrences needle s = [] := by
  induction s with
  | nil => rfl
  | cons c s ih =>
      rw [memmem] at h
      rw [occurrences]
      split at h
      · contradiction
      · rename_i hmatch
        rw [if_neg hmatch, ih (Option.map_eq_none_iff.1 h)]

namespace Quoted

open CStr

/-- A string with a backslash before every quote and every backslash. -/
def escape : CStr → List UInt8
  | [] => []
  | c :: s => if c = 34 ∨ c = 92 then 92 :: c :: escape s else c :: escape s

/-- A string between quotes. -/
def quoted (s : CStr) : List UInt8 :=
  34 :: (escape s ++ [34])

/-- The text up to the next quote, without the backslashes that escape something. -/
def unquote : List UInt8 → CStr
  | [] => []
  | [c] => if c = 34 then [] else [c]
  | c :: d :: s =>
      if c = 34 then []
      else if c = 92 then d :: unquote s
      else c :: unquote (d :: s)

theorem unquote_cons_of_ne {c : UInt8} (hq : c ≠ 34) (hb : c ≠ 92) (s : List UInt8) :
    unquote (c :: s) = c :: unquote s := by
  cases s with
  | nil => simp [unquote, hq]
  | cons d s => simp [unquote, hq, hb]

theorem unquote_escaped (c : UInt8) (s : List UInt8) : unquote (92 :: c :: s) = c :: unquote s := by
  simp [unquote]

/-- A quoted string is read back up to its closing quote. -/
theorem unquote_quoted (s : CStr) (rest : List UInt8) :
    unquote (escape s ++ 34 :: rest) = s := by
  induction s with
  | nil => cases rest <;> simp [escape, unquote]
  | cons c s ih =>
      by_cases hc : c = 34 ∨ c = 92
      · rw [escape, if_pos hc, List.cons_append, List.cons_append, unquote_escaped, ih]
      · rw [escape, if_neg hc, List.cons_append]
        rw [not_or] at hc
        rw [unquote_cons_of_ne hc.1 hc.2, ih]

/-- A lower-case letter or an underscore. -/
def isWordByte (c : UInt8) : Bool :=
  (97 ≤ c && c ≤ 122) || c == 95

/-- A word: lower-case letters and underscores. -/
structure IsWord (w : CStr) : Prop where
  ne_nil : w ≠ []
  bytes : ∀ c ∈ w, isWordByte c = true

/-- A word between quotes, as it is searched for. -/
def needle (w : CStr) : List UInt8 :=
  34 :: (w ++ [34])

/-- A string that a search for a quoted word hits: the word itself, or something that
ends in a quote and the word. -/
def Decoy (w s : CStr) : Prop :=
  s = w ∨ 34 :: w <:+ s

instance (w s : CStr) : Decidable (Decoy w s) :=
  inferInstanceAs (Decidable (_ ∨ _))

section

variable {w : CStr}

theorem isWordByte_ne {c d : UInt8} (hc : isWordByte c = true) (hd : isWordByte d = false) :
    c ≠ d := by
  rintro rfl
  rw [hc] at hd
  contradiction

/-- The inside of a quoted string, as it is written: a quote stands only behind a
backslash, which escapes it. -/
inductive IsBody : List UInt8 → Prop
  | nil : IsBody []
  | plain {c : UInt8} {b : List UInt8} : c ≠ 34 → c ≠ 92 → IsBody b → IsBody (c :: b)
  | escaped (c : UInt8) {b : List UInt8} : IsBody b → IsBody (92 :: c :: b)

theorem isBody_escape (s : CStr) : IsBody (escape s) := by
  induction s with
  | nil => exact .nil
  | cons c s ih =>
      by_cases hc : c = 34 ∨ c = 92
      · rw [escape, if_pos hc]
        exact .escaped c ih
      · rw [escape, if_neg hc]
        rw [not_or] at hc
        exact .plain hc.1 hc.2 ih

theorem IsBody.append {a b : List UInt8} (ha : IsBody a) (hb : IsBody b) : IsBody (a ++ b) := by
  induction ha with
  | nil => exact hb
  | plain hq hs _ ih => exact .plain hq hs ih
  | escaped c _ ih => exact .escaped c ih

/-- A word with its closing quote starts a string with its closing quote only if it is
the string. -/
theorem IsBody.word_prefix_iff {b : List UInt8} (hb : IsBody b)
    (hw : ∀ c ∈ w, isWordByte c = true) (rest : List UInt8) :
    w ++ [34] <+: b ++ 34 :: rest ↔ b = w := by
  induction hb generalizing w with
  | nil =>
      cases w with
      | nil => simp
      | cons k w =>
          have hk : k ≠ 34 := isWordByte_ne (hw k List.mem_cons_self) rfl
          simp [hk]
  | @plain c b hq _ _ ih =>
      cases w with
      | nil => simpa using hq.symm
      | cons k w =>
          rw [List.cons_append, List.cons_append, List.cons_prefix_cons,
            ih fun d hd => hw d (List.mem_cons_of_mem k hd), List.cons.injEq, eq_comm]
  | escaped c _ _ =>
      cases w with
      | nil => simp
      | cons k w =>
          have hk : k ≠ 92 := isWordByte_ne (hw k List.mem_cons_self) rfl
          simp [hk, hk.symm]

theorem occurrences_cons_of_ne {c : UInt8} (hc : c ≠ 34) (s : List UInt8) :
    occurrences (needle w) (c :: s) = occurrences (needle w) s := by
  rw [occurrences, if_neg]
  simp [needle, hc.symm]

theorem occurrences_append_of_ne {s : List UInt8} (hs : ∀ c ∈ s, c ≠ 34) (rest : List UInt8) :
    occurrences (needle w) (s ++ rest) = occurrences (needle w) rest := by
  induction s with
  | nil => rfl
  | cons c s ih =>
      rw [List.cons_append, occurrences_cons_of_ne (hs c List.mem_cons_self),
        ih fun d hd => hs d (List.mem_cons_of_mem c hd)]

/-- A quote starts an occurrence exactly if the word and a quote follow it. -/
theorem occurrences_quote (s : List UInt8) :
    occurrences (needle w) (34 :: s) =
      (if w ++ [34] <+: s then [s.drop (w.length + 1)] else []) ++ occurrences (needle w) s := by
  rw [occurrences]
  by_cases h : w ++ [34] <+: s
  · simp [needle, h]
  · simp [needle, h]

theorem escape_word (hw : ∀ c ∈ w, isWordByte c = true) : escape w = w := by
  induction w with
  | nil => rfl
  | cons c w ih =>
      have hc := hw c List.mem_cons_self
      have hplain : ¬(c = 34 ∨ c = 92) :=
        not_or.mpr ⟨isWordByte_ne hc rfl, isWordByte_ne hc rfl⟩
      rw [escape, if_neg hplain, ih fun d hd => hw d (List.mem_cons_of_mem c hd)]

/-- Behind a quote, a quoted word is hit if the rest of the string is the word. -/
theorem IsBody.hit {b : List UInt8} (hb : IsBody b) (hw : ∀ c ∈ w, isWordByte c = true)
    (rest : List UInt8) :
    (if w ++ [34] <+: b ++ 34 :: rest then [(b ++ 34 :: rest).drop (w.length + 1)] else []) =
      if b = w then [rest] else [] := by
  by_cases hword : b = w
  · have hdrop : (b ++ 34 :: rest).drop (w.length + 1) = rest := by
      rw [hword, List.drop_append]
      simp
    rw [if_pos ((hb.word_prefix_iff hw rest).mpr hword), if_pos hword, hdrop]
  · rw [if_neg (mt (hb.word_prefix_iff hw rest).mp hword), if_neg hword]

/-- A string that is the word does not end in a quote and the word. -/
theorem hits_decoy (s : CStr) (rest : List UInt8) :
    (if s = w then [rest] else []) ++ (if 34 :: w <:+ s then [rest] else []) =
      if Decoy w s then [rest] else [] := by
  by_cases hs : s = w
  · have hlong : ¬34 :: w <:+ s := by
      intro hsuffix
      have := hsuffix.length_le
      rw [hs, List.length_cons] at this
      omega
    rw [if_pos hs, if_neg hlong, if_pos (.inl hs), List.append_nil]
  · simp [hs, Decoy]

/-- A quoted word occurs in the inside of a quoted string where the string ends in a quote
and the word. -/
theorem IsBody.occurrences_body {b : List UInt8} (hb : IsBody b)
    (hw : ∀ c ∈ w, isWordByte c = true) (rest : List UInt8) :
    occurrences (needle w) (b ++ 34 :: rest) =
      (if 34 :: w <:+ b then [rest] else []) ++ occurrences (needle w) (34 :: rest) := by
  induction hb with
  | nil => simp
  | @plain c b hq _ _ ih =>
      have hsuffix : 34 :: w <:+ c :: b ↔ 34 :: w <:+ b := by
        rw [List.suffix_cons_iff, List.cons.injEq, or_iff_right fun h => hq h.1.symm]
      rw [List.cons_append, occurrences_cons_of_ne hq, ih, if_congr hsuffix rfl rfl]
  | @escaped c b hb ih =>
      have hskip : 34 :: w <:+ 92 :: c :: b ↔ 34 :: w <:+ c :: b := by
        rw [List.suffix_cons_iff, or_iff_right]
        simp
      rw [List.cons_append, List.cons_append, occurrences_cons_of_ne (by decide),
        if_congr hskip rfl rfl]
      by_cases hquote : c = 34
      · have hsuffix : 34 :: w <:+ 34 :: b ↔ Decoy w b := by
          rw [List.suffix_cons_iff, List.cons.injEq, and_iff_right rfl, Decoy, eq_comm]
        rw [hquote, occurrences_quote, hb.hit hw, ih, ← List.append_assoc, hits_decoy,
          if_congr hsuffix rfl rfl]
      · have hsuffix : 34 :: w <:+ c :: b ↔ 34 :: w <:+ b := by
          rw [List.suffix_cons_iff, List.cons.injEq, or_iff_right fun h => hquote h.1.symm]
        rw [occurrences_cons_of_ne hquote, ih, if_congr hsuffix rfl rfl]

/-- A quoted word occurs in a string with its quotes at most once, and then at its end. -/
theorem IsBody.occurrences_quoted {b : List UInt8} (hb : IsBody b)
    (hw : ∀ c ∈ w, isWordByte c = true) (rest : List UInt8) :
    occurrences (needle w) (34 :: (b ++ 34 :: rest)) =
      (if Decoy w b then [rest] else []) ++ occurrences (needle w) (34 :: rest) := by
  rw [occurrences_quote, hb.hit hw, hb.occurrences_body hw, ← List.append_assoc, hits_decoy]

theorem escape_eq_word_iff (hw : ∀ c ∈ w, isWordByte c = true) (s : CStr) :
    escape s = w ↔ s = w := by
  constructor
  · intro h
    have hread := unquote_quoted s []
    rw [h, ← escape_word hw, unquote_quoted w []] at hread
    exact hread.symm
  · rintro rfl
    exact escape_word hw

theorem suffix_escape_iff (hw : ∀ c ∈ w, isWordByte c = true) (s : CStr) :
    34 :: w <:+ escape s ↔ 34 :: w <:+ s := by
  induction s with
  | nil => rfl
  | cons c s ih =>
      by_cases hquote : c = 34
      · have hhead : ¬34 :: w = 92 :: 34 :: escape s := by simp
        rw [escape, if_pos (.inl hquote), hquote, List.suffix_cons_iff, or_iff_right hhead,
          List.suffix_cons_iff, List.suffix_cons_iff, ih, List.cons.injEq, List.cons.injEq,
          eq_comm (a := w), eq_comm (a := w), escape_eq_word_iff hw]
      · have hplain (t : CStr) : 34 :: w <:+ c :: t ↔ 34 :: w <:+ t := by
          rw [List.suffix_cons_iff, List.cons.injEq, or_iff_right fun h => hquote h.1.symm]
        have hback (t : CStr) : 34 :: w <:+ 92 :: t ↔ 34 :: w <:+ t := by
          rw [List.suffix_cons_iff, or_iff_right]
          simp
        rw [escape, hplain]
        split
        · rw [hback, hplain, ih]
        · rw [hplain, ih]

/-- A quoted word occurs in a quoted string at most once, and then at its end. -/
theorem occurrences_quoted (hw : ∀ c ∈ w, isWordByte c = true) (s : CStr) (rest : List UInt8) :
    occurrences (needle w) (quoted s ++ rest) =
      (if Decoy w s then [rest] else []) ++ occurrences (needle w) (34 :: rest) := by
  have hdecoy : Decoy w (escape s) ↔ Decoy w s := by
    rw [Decoy, Decoy, escape_eq_word_iff hw, suffix_escape_iff hw]
  rw [quoted, List.cons_append, List.append_assoc, List.cons_append, List.nil_append,
    (isBody_escape s).occurrences_quoted hw, if_congr hdecoy rfl rfl]

end

/-! ## Between the strings -/

/-- Skip white space, then read one byte. -/
def expect (c : UInt8) (s : List UInt8) : Option (List UInt8) :=
  match skipSpaces s with
  | d :: rest => if d = c then some rest else none
  | [] => none

/-- White space between two tokens. -/
structure Gap where
  bytes : List UInt8
  spaces : ∀ c ∈ bytes, isSpace c = true

/-- The punctuation between the strings of an object. -/
inductive Punct where
  | colon
  | comma
  | openBrace
  | closeBrace

def Punct.byte : Punct → UInt8
  | colon => 58
  | comma => 44
  | openBrace => 123
  | closeBrace => 125

/-- A punctuation byte after a gap. -/
def punct (gap : Gap) (p : Punct) (rest : List UInt8) : List UInt8 :=
  gap.bytes ++ p.byte :: rest

/-- A quoted string after a gap. -/
def str (gap : Gap) (s : CStr) (rest : List UInt8) : List UInt8 :=
  gap.bytes ++ (quoted s ++ rest)

section

variable {w : CStr}

theorem Punct.byte_ne_quote (p : Punct) : p.byte ≠ 34 := by
  cases p <;> decide

theorem Punct.isSpace_byte (p : Punct) : isSpace p.byte = false := by
  cases p <;> rfl

theorem Punct.isWordByte_byte (p : Punct) : isWordByte p.byte = false := by
  cases p <;> rfl

theorem isSpace_not_isWordByte {c : UInt8} (h : isSpace c = true) : isWordByte c = false := by
  by_contra hword
  simp only [isWordByte, isSpace, UInt8.le_iff_toNat_le, Bool.or_eq_true, Bool.and_eq_true,
    decide_eq_true_eq, beq_iff_eq, ← UInt8.toNat_inj, Bool.not_eq_false, UInt8.reduceToNat]
    at h hword
  omega

theorem skipSpaces_gap (gap : Gap) {c : UInt8} (hc : isSpace c = false) (rest : List UInt8) :
    skipSpaces (gap.bytes ++ c :: rest) = c :: rest := by
  rw [skipSpaces, List.dropWhile_append_of_pos gap.spaces,
    List.dropWhile_cons_of_neg (by simp [hc])]

theorem expect_punct (gap : Gap) (p : Punct) (c : UInt8) (rest : List UInt8) :
    expect c (punct gap p rest) = if p.byte = c then some rest else none := by
  rw [expect, punct, skipSpaces_gap gap p.isSpace_byte]

theorem expect_str (gap : Gap) (s : CStr) (rest : List UInt8) :
    expect 34 (str gap s rest) = some (escape s ++ 34 :: rest) := by
  rw [expect, str, quoted, List.cons_append, skipSpaces_gap gap (by decide)]
  simp

theorem occurrences_gap {gap : List UInt8} (hgap : ∀ c ∈ gap, isSpace c = true)
    (rest : List UInt8) :
    occurrences (needle w) (gap ++ rest) = occurrences (needle w) rest := by
  apply occurrences_append_of_ne
  rintro c hc rfl
  exact absurd (hgap 34 hc) (by decide)

theorem occurrences_punct (gap : Gap) (p : Punct) (rest : List UInt8) :
    occurrences (needle w) (punct gap p rest) = occurrences (needle w) rest := by
  rw [punct, occurrences_gap gap.spaces, occurrences_cons_of_ne p.byte_ne_quote]

/-- No occurrence of a word starts with the closing quote of a string. -/
theorem occurrences_closing (hw : IsWord w) {rest : List UInt8}
    (hrest : ∀ c ∈ rest.head?, isWordByte c = false) :
    occurrences (needle w) (34 :: rest) = occurrences (needle w) rest := by
  have hnot : ¬w ++ [34] <+: rest := by
    obtain ⟨k, w', rfl⟩ := List.exists_cons_of_ne_nil hw.ne_nil
    have hk := hw.bytes k List.mem_cons_self
    cases rest with
    | nil => simp
    | cons c rest =>
        rw [List.cons_append, List.cons_prefix_cons]
        exact fun h => isWordByte_ne hk (hrest c rfl) h.1
  rw [occurrences_quote, if_neg hnot, List.nil_append]

theorem isWordByte_head_punct (gap : Gap) (p : Punct) (rest : List UInt8) :
    ∀ c ∈ (punct gap p rest).head?, isWordByte c = false := by
  rcases gap with ⟨_ | ⟨d, gap⟩, hgap⟩
  · rintro c ⟨⟩
    exact p.isWordByte_byte
  · rintro c ⟨⟩
    exact isSpace_not_isWordByte (hgap d List.mem_cons_self)

/-- A string in its place is passed, with one occurrence at its end if it is a decoy. -/
theorem occurrences_str (hw : IsWord w) (gap gap' : Gap) (p : Punct) (s : CStr)
    (rest : List UInt8) :
    occurrences (needle w) (str gap s (punct gap' p rest)) =
      (if Decoy w s then [punct gap' p rest] else []) ++ occurrences (needle w) rest := by
  rw [str, occurrences_gap gap.spaces, occurrences_quoted hw.bytes,
    occurrences_closing hw (isWordByte_head_punct gap' p rest), occurrences_punct]

end

end Quoted
end Foundation
