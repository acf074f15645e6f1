import Anticheat.Foundation.JsonText
import Anticheat.Foundation.QuotedText
import Mathlib.Data.Bool.AllAny

/-!
# Searching a JSON text for a quoted word

A search for a quoted word in the bytes of a JSON text hits the strings that are spelled
as the word, and those whose spelling ends in an escaped quote and the word; it hits each
of them once, from left to right.  What follows a hit tells the names of members from
other strings: behind a name comes a colon.

Main results:

- Theorem {lit}`Value.map_occurrences`: what a reader that looks behind each hit finds.
- Theorem {lit}`unquote_text`: what is left of a string when its backslashes are dropped.
- Theorem {lit}`Literal.utf8_of_plain`: if only quotes, backslashes and slashes are
  escaped, this is the string itself.
-/

namespace Foundation
namespace Json

open Quoted CStr

variable {ν β : Type} {w : CStr} {num : ν → List UInt8}

/-! ## Strings -/

theorem isBody_of_ne {s : List UInt8} (hs : ∀ c ∈ s, c ≠ 34 ∧ c ≠ 92) : IsBody s := by
  induction s with
  | nil => exact .nil
  | cons c s ih =>
      have hc := hs c List.mem_cons_self
      exact .plain hc.1 hc.2 (ih fun d hd => hs d (List.mem_cons_of_mem c hd))

theorem Piece.isBody (p : Piece) : IsBody p.bytes := by
  cases p with
  | raw c h => exact isBody_of_ne fun b hb => (h.byte hb).2
  | short e => exact .escaped e.letter .nil
  | unicode a b c d =>
      apply IsBody.escaped
      apply isBody_of_ne
      simp [HexDigit.byte_plain]

theorem Literal.isBody (s : Literal) : IsBody s.body := by
  induction s with
  | nil => exact .nil
  | cons p s ih => exact p.isBody.append ih

/-- What is copied of a string when its backslashes are dropped. -/
def Piece.copied : Piece → List UInt8
  | raw c _ => String.utf8EncodeChar c
  | short e => [e.letter]
  | unicode a b c d => [117, a.byte, b.byte, c.byte, d.byte]

def Literal.copied (s : Literal) : List UInt8 :=
  s.flatMap Piece.copied

theorem unquote_append_of_ne {s : List UInt8} (hs : ∀ c ∈ s, c ≠ 34 ∧ c ≠ 92)
    (rest : List UInt8) : unquote (s ++ rest) = s ++ unquote rest := by
  induction s with
  | nil => rfl
  | cons c s ih =>
      have hc := hs c List.mem_cons_self
      rw [List.cons_append, unquote_cons_of_ne hc.1 hc.2,
        ih fun d hd => hs d (List.mem_cons_of_mem c hd), List.cons_append]

theorem unquote_piece (p : Piece) (rest : List UInt8) :
    unquote (p.bytes ++ rest) = p.copied ++ unquote rest := by
  cases p with
  | raw c h => exact unquote_append_of_ne (fun b hb => (h.byte hb).2) rest
  | short e => exact unquote_escaped e.letter rest
  | unicode a b c d =>
      have hdigits : ∀ x ∈ [a.byte, b.byte, c.byte, d.byte], x ≠ 34 ∧ x ≠ 92 := by
        simp [HexDigit.byte_plain]
      rw [Piece.bytes, Piece.copied, List.cons_append, List.cons_append, unquote_escaped,
        unquote_append_of_ne hdigits]
      rfl

/-- Reading a string up to its closing quote. -/
theorem unquote_text (s : Literal) (rest : List UInt8) :
    unquote (s.body ++ 34 :: rest) = s.copied := by
  induction s with
  | nil => exact unquote_quoted [] rest
  | cons p s ih =>
      rw [Literal.body, List.flatMap_cons, List.append_assoc, unquote_piece]
      exact congrArg (p.copied ++ ·) ih

theorem Piece.copied_ne_zero (p : Piece) : ∀ c ∈ p.copied, c ≠ 0 := by
  have hpos {c : UInt8} (hc : 32 ≤ c.toNat) : c ≠ 0 := by
    rintro rfl
    contradiction
  cases p with
  | raw c h => exact fun b hb => hpos (h.byte hb).1
  | short e => cases e <;> exact List.forall_mem_singleton.mpr (by decide)
  | unicode a b c d => simp [Piece.copied, hpos (HexDigit.byte_plain _).1]

theorem Literal.copied_ne_zero (s : Literal) : ∀ c ∈ s.copied, c ≠ 0 := by
  intro c hc
  rcases List.mem_flatMap.1 hc with ⟨p, -, hp⟩
  exact p.copied_ne_zero c hp

/-! ## Strings without other escapes -/

/-- The character stands for itself, with or without a backslash. -/
def Piece.Plain : Piece → Prop
  | raw _ _ => True
  | short e => e = .quote ∨ e = .backslash ∨ e = .slash
  | unicode _ _ _ _ => False

instance : DecidablePred Piece.Plain
  | .raw _ _ => isTrue trivial
  | .short _ => inferInstanceAs (Decidable (_ ∨ _))
  | .unicode _ _ _ _ => isFalse id

/-- Only quotes, backslashes and slashes are escaped. -/
def Literal.Plain (s : Literal) : Prop :=
  ∀ p ∈ s, p.Plain

instance (s : Literal) : Decidable s.Plain :=
  inferInstanceAs (Decidable (∀ p ∈ s, p.Plain))

/-- Code points in UTF-8, unless one of them is a surrogate. -/
def encodeUtf8 : PyStr → Option (List UInt8)
  | [] => some []
  | c :: s =>
      if h : c.isValidChar then
        (encodeUtf8 s).map (String.utf8EncodeChar (Char.ofNatAux c h) ++ ·)
      else none

/-- What a string denotes, in UTF-8. -/
def Literal.utf8 (s : Literal) : Option (List UInt8) :=
  encodeUtf8 s.decode

theorem encodeUtf8_cons (c : Char) (s : PyStr) :
    encodeUtf8 (c.toNat :: s) = (encodeUtf8 s).map (String.utf8EncodeChar c ++ ·) := by
  have hvalid : c.toNat.isValidChar := c.valid
  have hchar : Char.ofNatAux c.toNat hvalid = c := by
    apply Char.ext
    apply UInt32.toNat_inj.1
    rfl
  change (if h : c.toNat.isValidChar then
      (encodeUtf8 s).map (String.utf8EncodeChar (Char.ofNatAux c.toNat h) ++ ·) else none) = _
  rw [dif_pos hvalid, hchar]

/-- Without `\u` there is nothing to join. -/
theorem Literal.decode_of_raw {s : Literal} (h : ∀ p ∈ s, ∃ c, p.unit = .raw c) :
    s.decode = (s.map Piece.unit).map PyJson.StrUnit.code := by
  apply PyJson.joinUnits_eq
  intro u hu v hv
  rcases List.mem_map.1 hu with ⟨p, hp, rfl⟩
  rcases h p hp with ⟨c, hc⟩
  rw [hc] at hv
  contradiction

/-- A plain character is denoted by what is copied of it. -/
theorem Piece.Plain.spec {p : Piece} (h : p.Plain) :
    ∃ c : Char, p.unit = .raw c.toNat ∧ p.copied = String.utf8EncodeChar c := by
  cases p with
  | raw c _ => exact ⟨c, rfl, rfl⟩
  | short e =>
      rcases h with rfl | rfl | rfl
      · exact ⟨'"', rfl, rfl⟩
      · exact ⟨'\\', rfl, rfl⟩
      · exact ⟨'/', rfl, rfl⟩
  | unicode a b c d => exact h.elim

/-- Of a plain string, what is denoted is copied. -/
theorem Literal.utf8_of_plain {s : Literal} (h : s.Plain) : s.utf8 = some s.copied := by
  have hdecode : s.decode = (s.map Piece.unit).map PyJson.StrUnit.code := by
    apply Literal.decode_of_raw
    intro p hp
    rcases (h p hp).spec with ⟨c, hunit, -⟩
    exact ⟨c.toNat, hunit⟩
  rw [Literal.utf8, hdecode]
  clear hdecode
  induction s with
  | nil => rfl
  | cons p s ih =>
      rcases (h p List.mem_cons_self).spec with ⟨c, hunit, hcopied⟩
      have hrest := ih fun q hq => h q (List.mem_cons_of_mem p hq)
      rw [List.map_cons, List.map_cons, hunit, PyJson.StrUnit.code, encodeUtf8_cons, hrest,
        Option.map_some, ← hcopied]
      rfl

/-- A character of word bytes is a letter, as it is. -/
theorem Piece.of_word {p : Piece} (h : ∀ b ∈ p.bytes, isWordByte b = true) :
    ∃ c : UInt8, p.bytes = [c] ∧ p.unit = .raw c.toNat := by
  cases p with
  | raw c _ =>
      obtain ⟨b, bytes, hbytes⟩ :=
        List.exists_cons_of_ne_nil (String.utf8EncodeChar_ne_nil (c := c))
      have hb : b ∈ String.utf8EncodeChar c := by simp [hbytes]
      have hword := h b hb
      rcases mem_utf8EncodeChar hb with ⟨hascii, -⟩ | hlarge
      · have hval : c.val.toNat ≤ 127 := Nat.le_of_lt_succ hascii
        refine ⟨UInt8.ofNat c.toNat, ?_, ?_⟩
        · rw [Piece.bytes, String.utf8EncodeChar, if_pos hval]
          rfl
        · rw [Piece.unit, UInt8.toNat_ofNat', Nat.mod_eq_of_lt (by omega)]
      · simp only [isWordByte, UInt8.le_iff_toNat_le, Bool.or_eq_true, Bool.and_eq_true,
          decide_eq_true_eq, beq_iff_eq, ← UInt8.toNat_inj, UInt8.reduceToNat] at hword
        omega
  | short e => exact absurd (h 92 List.mem_cons_self) (by decide)
  | unicode a b c d => exact absurd (h 92 List.mem_cons_self) (by decide)

/-- A string that is spelled as a word denotes it. -/
theorem Literal.decode_of_word {s : Literal} (h : ∀ b ∈ s.body, isWordByte b = true) :
    s.decode = PyStr.latin1 s.body := by
  have hpiece : ∀ p ∈ s, ∃ c : UInt8, p.bytes = [c] ∧ p.unit = .raw c.toNat := by
    intro p hp
    exact Piece.of_word fun b hb => h b (List.mem_flatMap.2 ⟨p, hp, hb⟩)
  have hdecode : s.decode = (s.map Piece.unit).map PyJson.StrUnit.code := by
    apply Literal.decode_of_raw
    intro p hp
    rcases hpiece p hp with ⟨c, -, hunit⟩
    exact ⟨c.toNat, hunit⟩
  rw [hdecode, Literal.body, PyStr.latin1, List.map_map, List.map_flatMap,
    List.map_eq_flatMap]
  apply List.flatMap_congr
  intro p hp
  rcases hpiece p hp with ⟨c, hbytes, hunit⟩
  rw [hbytes, Function.comp_apply, hunit]
  rfl

/-! ## Between the strings -/

/-- What can follow a value: white space, and then the end of the text, a comma or a
closing bracket. -/
def Follows (rest : List UInt8) : Prop :=
  ∀ c ∈ (skipSpaces rest).head?, c = 44 ∨ c = 93 ∨ c = 125

theorem follows_cons {c : UInt8} (hc : c = 44 ∨ c = 93 ∨ c = 125) (rest : List UInt8) :
    Follows (c :: rest) := by
  have hspace : isSpace c = false := by
    rcases hc with rfl | rfl | rfl <;> rfl
  rw [Follows, skipSpaces_cons hspace]
  rintro d ⟨⟩
  exact hc

theorem skipSpaces_append {ws : List UInt8} (hws : ∀ c ∈ ws, isSpace c = true)
    (rest : List UInt8) : skipSpaces (ws ++ rest) = skipSpaces rest :=
  List.dropWhile_append_of_pos hws

theorem Follows.ws {rest : List UInt8} (h : Follows rest) (ws : Ws) :
    Follows (ws.bytes ++ rest) := by
  rw [Follows, skipSpaces_append ws.isSpace]
  exact h

theorem follows_ws (ws : Ws) : Follows ws.bytes := by
  have hnil : Follows [] := by simp [Follows, skipSpaces]
  simpa using hnil.ws ws

theorem Elements.follows (es : Elements ν) {rest : List UInt8} (h : Follows rest) :
    Follows (es.text num [44] rest) := by
  cases es with
  | nil => exact h
  | cons pre v post es => exact follows_cons (Or.inl rfl) _

theorem Members.follows (ms : Members ν) {rest : List UInt8} (h : Follows rest) :
    Follows (ms.text num [44] rest) := by
  cases ms with
  | nil => exact h
  | cons pre name mid aft v post ms => exact follows_cons (Or.inl rfl) _

theorem isWordByte_head_ws {rest : List UInt8}
    (h : ∀ c ∈ (skipSpaces rest).head?, isWordByte c = false) :
    ∀ c ∈ rest.head?, isWordByte c = false := by
  cases rest with
  | nil => simp
  | cons d rest =>
      rintro c ⟨⟩
      by_cases hd : isSpace d = true
      · exact isSpace_not_isWordByte hd
      · rw [Bool.not_eq_true] at hd
        exact h d (by rw [skipSpaces_cons hd]; rfl)

theorem Follows.isWordByte {rest : List UInt8} (h : Follows rest) :
    ∀ c ∈ rest.head?, isWordByte c = false := by
  apply isWordByte_head_ws
  intro c hc
  rcases h c hc with rfl | rfl | rfl <;> rfl

/-- Behind a value comes no colon. -/
theorem Follows.expect_colon {rest : List UInt8} (h : Follows rest) : expect 58 rest = none := by
  rw [expect]
  cases hskip : skipSpaces rest with
  | nil => rfl
  | cons d s =>
      have hd : d ≠ 58 := by
        rcases h d (by rw [hskip]; rfl) with rfl | rfl | rfl <;> decide
      simp [hd]

theorem expect_ws (ws : Ws) {d : UInt8} (hd : isSpace d = false) (c : UInt8)
    (rest : List UInt8) :
    expect c (ws.bytes ++ d :: rest) = if d = c then some rest else none := by
  rw [expect, skipSpaces_append ws.isSpace, skipSpaces_cons hd]

/-! ## A search -/

/-- What a reader finds behind a hit: `g` of the value if the hit is the name of a member,
and `g none` if it is another string. -/
structure LooksBehind (num : ν → List UInt8) (f : List UInt8 → β)
    (g : Option (Value ν) → β) : Prop where
  other : ∀ rest, Follows rest → f rest = g none
  name : ∀ (mid aft : Ws) v rest, Follows rest →
    f (mid.bytes ++ 58 :: (aft.bytes ++ v.text num rest)) = g (some v)

/-- The hits of a search among strings. -/
def hits (w : CStr) (strings : List (Literal × Option (Value ν))) :
    List (Option (Value ν)) :=
  (strings.filter fun s => decide (Decoy w s.1.body)).map Prod.snd

theorem hits_cons (w : CStr) (s : Literal) (o : Option (Value ν))
    (strings : List (Literal × Option (Value ν))) :
    hits w ((s, o) :: strings) = (if Decoy w s.body then [o] else []) ++ hits w strings := by
  by_cases h : Decoy w s.body
  · simp [hits, h]
  · simp [hits, h]

theorem hits_append (w : CStr) (a b : List (Literal × Option (Value ν))) :
    hits w (a ++ b) = hits w a ++ hits w b := by
  simp [hits]

/-- A search whose hits have one answer or none finds the answer. -/
theorem findSome?_eq_of_forall {α β : Type} {f : α → Option β} {l : List α} {o : Option β}
    (hall : ∀ x ∈ l, f x = none ∨ f x = o) (hex : ∃ x ∈ l, f x = o) : l.findSome? f = o := by
  induction l with
  | nil => simp at hex
  | cons x l ih =>
      rw [List.findSome?_cons]
      cases hx : f x with
      | some y =>
          rcases hall x List.mem_cons_self with h | h
          · rw [hx] at h
            contradiction
          · rw [← h, hx]
      | none =>
          cases o with
          | none =>
              rw [List.findSome?_eq_none_iff]
              intro y hy
              exact (hall y (List.mem_cons_of_mem x hy)).elim id id
          | some z =>
              apply ih fun y hy => hall y (List.mem_cons_of_mem x hy)
              rcases hex with ⟨y, hy, hfy⟩
              rcases List.mem_cons.1 hy with rfl | hy
              · rw [hx] at hfy
                contradiction
              · exact ⟨y, hy, hfy⟩

/-- A string is hit at most once, and then at its end. -/
theorem occurrences_text (hw : IsWord w) (s : Literal) {rest : List UInt8}
    (hrest : ∀ c ∈ rest.head?, isWordByte c = false) :
    occurrences (needle w) (s.text rest) =
      (if Decoy w s.body then [rest] else []) ++ occurrences (needle w) rest := by
  rw [Literal.text, s.isBody.occurrences_quoted hw.bytes, occurrences_closing hw hrest]

section

variable {f : List UInt8 → β} {g : Option (Value ν) → β}

theorem occurrences_ws (ws : Ws) (rest : List UInt8) :
    occurrences (needle w) (ws.bytes ++ rest) = occurrences (needle w) rest :=
  occurrences_gap ws.isSpace rest

mutual

/-- A search meets the strings of a value from left to right. -/
theorem Value.map_occurrences (hw : IsWord w) (hnum : ∀ n, ∀ c ∈ num n, c ≠ 34)
    (hf : LooksBehind num f g) (v : Value ν) {rest : List UInt8} (h : Follows rest) :
    (occurrences (needle w) (v.text num rest)).map f =
      (hits w v.strings).map g ++ (occurrences (needle w) rest).map f := by
  cases v with
  | null =>
      have hnull : ∀ c ∈ CStr.ascii "null", c ≠ 34 := List.all_iff_forall_prop.1 (by decide)
      rw [Value.text, occurrences_append_of_ne hnull]
      rfl
  | bool b =>
      have hbool : ∀ c ∈ CStr.ascii (if b then "true" else "false"), c ≠ 34 := by
        cases b <;> exact List.all_iff_forall_prop.1 (by decide)
      rw [Value.text, occurrences_append_of_ne hbool]
      rfl
  | number n =>
      rw [Value.text, occurrences_append_of_ne (hnum n)]
      rfl
  | string s =>
      rw [Value.text, occurrences_text hw s h.isWordByte, List.map_append, Value.strings,
        hits_cons]
      split
      · simp [hits, hf.other rest h]
      · rfl
  | array es close =>
      have hclose : Follows (close.bytes ++ 93 :: rest) :=
        (follows_cons (by decide) rest).ws close
      rw [Value.text, occurrences_cons_of_ne (by decide),
        Elements.map_occurrences hw hnum hf es (by simp) hclose, occurrences_ws,
        occurrences_cons_of_ne (by decide), Value.strings]
  | object ms close =>
      have hclose : Follows (close.bytes ++ 125 :: rest) :=
        (follows_cons (by decide) rest).ws close
      rw [Value.text, occurrences_cons_of_ne (by decide),
        Members.map_occurrences hw hnum hf ms (by simp) hclose, occurrences_ws,
        occurrences_cons_of_ne (by decide), Value.strings]

theorem Elements.map_occurrences (hw : IsWord w) (hnum : ∀ n, ∀ c ∈ num n, c ≠ 34)
    (hf : LooksBehind num f g) (es : Elements ν) {sep rest : List UInt8}
    (hsep : ∀ c ∈ sep, c ≠ 34) (h : Follows rest) :
    (occurrences (needle w) (es.text num sep rest)).map f =
      (hits w es.strings).map g ++ (occurrences (needle w) rest).map f := by
  cases es with
  | nil => rfl
  | cons pre v post es =>
      have hrest : Follows (post.bytes ++ es.text num [44] rest) := (es.follows h).ws post
      have hcomma : ∀ c ∈ [(44 : UInt8)], c ≠ 34 := List.forall_mem_singleton.mpr (by decide)
      rw [Elements.text, occurrences_append_of_ne hsep, occurrences_ws,
        Value.map_occurrences hw hnum hf v hrest, occurrences_ws,
        Elements.map_occurrences hw hnum hf es hcomma h, Elements.strings, hits_append,
        List.map_append, List.append_assoc]

theorem Members.map_occurrences (hw : IsWord w) (hnum : ∀ n, ∀ c ∈ num n, c ≠ 34)
    (hf : LooksBehind num f g) (ms : Members ν) {sep rest : List UInt8}
    (hsep : ∀ c ∈ sep, c ≠ 34) (h : Follows rest) :
    (occurrences (needle w) (ms.text num sep rest)).map f =
      (hits w ms.strings).map g ++ (occurrences (needle w) rest).map f := by
  cases ms with
  | nil => rfl
  | cons pre name mid aft v post ms =>
      have hrest : Follows (post.bytes ++ ms.text num [44] rest) := (ms.follows h).ws post
      have hcomma : ∀ c ∈ [(44 : UInt8)], c ≠ 34 := List.forall_mem_singleton.mpr (by decide)
      have hcolon : ∀ c ∈ (mid.bytes ++ 58 ::
          (aft.bytes ++ v.text num (post.bytes ++ ms.text num [44] rest))).head?,
          isWordByte c = false := by
        apply isWordByte_head_ws
        rw [skipSpaces_append mid.isSpace, skipSpaces_cons rfl]
        rintro c ⟨⟩
        rfl
      rw [Members.text, occurrences_append_of_ne hsep, occurrences_ws,
        occurrences_text hw name hcolon, List.map_append, occurrences_ws,
        occurrences_cons_of_ne (by decide), occurrences_ws,
        Value.map_occurrences hw hnum hf v hrest, occurrences_ws,
        Members.map_occurrences hw hnum hf ms hcomma h, Members.strings, hits_cons,
        hits_append, List.map_append, List.map_append, List.append_assoc, List.append_assoc]
      congr 1
      split
      · rw [List.map_singleton, List.map_singleton, hf.name mid aft v _ hrest]
      · rfl

end

end

end Json
end Foundation
