import Anticheat.Daemon.Manifest
import Anticheat.Foundation.JsonSearch

/-!
# Manifests as JSON texts

A manifest can be any JSON text: objects and arrays in each other, names and values with
escapes of every kind, white space everywhere.  The daemon's two extractors search its
bytes for the quoted name of a member, and copy the string that they find without its
backslashes.

Without its backslashes a string is not what it denotes if it has an escape such as the
one of a newline.  And a search can stop at a member whose name only ends as the quoted
name does.  Both give an output that is not the value of the name that was asked for.

Main results:

- Theorem {lit}`Wanted.extract_eq`: at which string of a text an extractor stops, and what
  it copies.
- Theorem {lit}`stop_string_of_no_decoy`: a search for a string stops at the value of the
  name if no other string ends as the quoted name does.
- Theorem {lit}`extraction_exact_iff`: when the output is the string that was asked for,
  and nothing is returned where it could not be.
-/

namespace Anticheat

open Foundation Quoted Json

/-! ## What stands behind a name -/

theorem copyString_text (outsz : Nat) (s : Literal) (rest : List UInt8) :
    copyString outsz (s.body ++ 34 :: rest) = CStr.bounded outsz s.copied := by
  rw [copyString, unquote_text, List.takeWhile_eq_self_iff]
  intro c hc
  rw [bne_iff_ne]
  exact s.copied_ne_zero c (List.mem_of_mem_take hc)

/-- A value begins with a byte that is not white space, and that tells strings and objects
from the rest. -/
theorem expect_value (aft : Ws) (v : Value Number) (rest : List UInt8) :
    expect 34 (aft.bytes ++ v.text Number.bytes rest) =
        (match v with
        | .string s => some (s.body ++ 34 :: rest)
        | _ => none) ∧
      expect 123 (aft.bytes ++ v.text Number.bytes rest) =
        match v with
        | .object ms close => some (ms.text Number.bytes [] (close.bytes ++ 125 :: rest))
        | _ => none := by
  cases v with
  | null => exact ⟨expect_ws aft rfl 34 _, expect_ws aft rfl 123 _⟩
  | bool b => cases b <;> exact ⟨expect_ws aft rfl 34 _, expect_ws aft rfl 123 _⟩
  | number n =>
      obtain ⟨c, s, hn, hspace, hquote, hbrace⟩ := n.head_ne
      rw [Value.text, hn, List.cons_append, expect_ws aft hspace, expect_ws aft hspace,
        if_neg hquote, if_neg hbrace]
      exact ⟨rfl, rfl⟩
  | string s => exact ⟨expect_ws aft rfl 34 _, expect_ws aft rfl 123 _⟩
  | array es close => exact ⟨expect_ws aft rfl 34 _, expect_ws aft rfl 123 _⟩
  | object ms close => exact ⟨expect_ws aft rfl 34 _, expect_ws aft rfl 123 _⟩

/-- The string behind a name. -/
def stringBehind : Option (Value Number) → Option Literal
  | some (.string s) => some s
  | _ => none

/-- The first name of the object behind a name. -/
def nameBehind : Option (Value Number) → Option Literal
  | some (.object (.cons _ name _ _ _ _ _) _) => some name
  | _ => none

theorem looksBehind_stringValue (outsz : Nat) :
    LooksBehind Number.bytes (stringValue outsz) fun o =>
      (stringBehind o).map fun s => CStr.bounded outsz s.copied where
  other rest h := by
    rw [stringValue, h.expect_colon]
    rfl
  name mid aft v rest h := by
    rw [stringValue, expect_ws mid rfl, if_pos rfl, Option.bind_some, (expect_value aft v rest).1]
    cases v with
    | string s => exact congrArg some (copyString_text outsz s rest)
    | null | bool _ | number _ | array _ _ | object _ _ => rfl

theorem looksBehind_firstKey (outsz : Nat) :
    LooksBehind Number.bytes (firstKey outsz) fun o =>
      (nameBehind o).map fun s => CStr.bounded outsz s.copied where
  other rest h := by
    rw [firstKey, h.expect_colon]
    rfl
  name mid aft v rest h := by
    rw [firstKey, expect_ws mid rfl, if_pos rfl, Option.bind_some, (expect_value aft v rest).2]
    cases v with
    | object ms close =>
        cases ms with
        | nil =>
            rw [Option.bind_some, Members.text, expect_ws close rfl, if_neg (by decide)]
            rfl
        | cons pre name mid aft v post ms =>
            rw [Option.bind_some, Members.text, List.nil_append, Literal.text,
              expect_ws pre rfl, if_pos rfl]
            exact congrArg some (copyString_text outsz name _)
    | null | bool _ | number _ | array _ _ | string _ => rfl

/-! ## Where an extractor stops -/

/-- A name that can be searched for: a word that fits the buffer for the needle. -/
structure SearchKey where
  word : CStr
  isWord : IsWord word
  fits : (needle word).length < 64

/-- What is asked for: the string of a name, or the variable of `disable_environment`. -/
inductive Wanted where
  | string (key : SearchKey)
  | disableEnvironment

/-- The name that is searched for. -/
def Wanted.key : Wanted → CStr
  | string key => key.word
  | disableEnvironment => CStr.ascii "disable_environment"

/-- The extractor. -/
def Wanted.extract (want : Wanted) (json : List UInt8) (outsz : Nat) : Option CStr :=
  match want with
  | string key => jsonExtractString json key.word outsz
  | disableEnvironment => jsonExtractDisableEnv json outsz

/-- The string of a text at which the extractor stops: behind the first name that is hit
and has a string behind it, or behind the first string that is hit at all. -/
def Wanted.stop (want : Wanted) (t : Text) : Option Literal :=
  match want with
  | string key => (hits key.word t.value.strings).findSome? stringBehind
  | disableEnvironment =>
      (hits (CStr.ascii "disable_environment") t.value.strings).head?.bind nameBehind

/-- A search of a whole text meets its strings, and nothing else. -/
theorem map_occurrences_render {β : Type} {w : CStr} (hw : IsWord w) {f : List UInt8 → β}
    {g : Option (Value Number) → β} (hf : LooksBehind Number.bytes f g) (t : Text) :
    (occurrences (needle w) t.render).map f = (hits w t.value.strings).map g := by
  have hend : occurrences (needle w) t.post.bytes = [] := by
    have hws := occurrences_ws t.post ([] : List UInt8) (w := w)
    rwa [List.append_nil] at hws
  rw [Text.render, occurrences_ws,
    Value.map_occurrences hw Number.bytes_ne_quote hf t.value (follows_ws t.post), hend,
    List.map_nil, List.append_nil]

/-- The string at which an extractor stops is copied without its backslashes. -/
theorem Wanted.extract_eq (want : Wanted) (t : Text) (outsz : Nat) :
    want.extract t.render outsz =
      (want.stop t).map fun s => CStr.bounded outsz s.copied := by
  cases want with
  | string key =>
      have hmap := map_occurrences_render key.isWord (looksBehind_stringValue outsz) t
      have hfirst := congrArg (List.findSome? id) hmap
      rw [List.findSome?_map, List.findSome?_map] at hfirst
      rw [Wanted.extract, jsonExtractString, if_neg (not_le.2 key.fits), Wanted.stop,
        List.map_findSome?]
      exact hfirst
  | disableEnvironment =>
      have hmap := map_occurrences_render isWord_disableEnvironment (looksBehind_firstKey outsz) t
      have hfirst := congrArg (fun l => l.head?.bind id) hmap
      simp only [List.head?_map, Option.bind_map] at hfirst
      rw [Wanted.extract, jsonExtractDisableEnv, Wanted.stop, Option.map_bind]
      exact hfirst

/-! ## Without decoys -/

/-- A text in which the name that is asked for is the name of one member. -/
structure Wanted.Manifest (want : Wanted) where
  text : Text
  name : Literal
  value : Value Number
  once : text.value.members.filter
    (fun m => decide (m.1.decode = PyStr.latin1 want.key)) = [(name, value)]

section

variable {key : SearchKey} (m : (Wanted.string key).Manifest)

/-- A member that is spelled as the name is the one that is asked for. -/
theorem Wanted.Manifest.value_of_spelled {s : Literal} {v : Value Number}
    (hmem : (s, some v) ∈ m.text.value.strings) (hs : s.body = key.word) :
    (s, v) = (m.name, m.value) := by
  have hdecode : s.decode = PyStr.latin1 key.word := by
    rw [← hs]
    apply Literal.decode_of_word
    rw [hs]
    exact key.isWord.bytes
  have hmember : (s, v) ∈ m.text.value.members :=
    List.mem_filterMap.2 ⟨(s, some v), hmem, rfl⟩
  have hfilter : (s, v) ∈ m.text.value.members.filter
      (fun m => decide (m.1.decode = PyStr.latin1 (Wanted.string key).key)) :=
    List.mem_filter.2 ⟨hmember, decide_eq_true hdecode⟩
  rw [m.once] at hfilter
  exact List.mem_singleton.1 hfilter

theorem Wanted.Manifest.mem_strings : (m.name, some m.value) ∈ m.text.value.strings := by
  have hfilter : (m.name, m.value) ∈ m.text.value.members.filter
      (fun m => decide (m.1.decode = PyStr.latin1 (Wanted.string key).key)) := by
    rw [m.once]
    exact List.mem_singleton_self _
  rcases List.mem_filterMap.1 (List.mem_of_mem_filter hfilter) with ⟨⟨s, o⟩, hmem, ho⟩
  rcases Option.map_eq_some_iff.1 ho with ⟨v, hv, heq⟩
  rw [Prod.mk.injEq] at heq
  rw [← heq.1, ← heq.2, ← hv]
  exact hmem

/-- If no string of a text ends in a quote and the name, the search stops at the value of
the name, provided that the name is spelled without escapes. -/
theorem stop_string_of_no_decoy
    (hno : ∀ s ∈ m.text.value.strings, ¬34 :: key.word <:+ s.1.body) :
    (Wanted.string key).stop m.text =
      if m.name.body = key.word then stringBehind (some m.value) else none := by
  have hhit : ∀ o ∈ hits key.word m.text.value.strings,
      o = none ∨ (o = some m.value ∧ m.name.body = key.word) := by
    intro o ho
    rcases List.mem_map.1 ho with ⟨⟨s, o⟩, hs, rfl⟩
    rcases List.mem_filter.1 hs with ⟨hmem, hdecoy⟩
    have hspelled : s.body = key.word := by
      rcases of_decide_eq_true hdecoy with h | h
      · exact h
      · exact absurd h (hno _ hmem)
    cases o with
    | none => exact Or.inl rfl
    | some v =>
        have heq := m.value_of_spelled hmem hspelled
        rw [Prod.mk.injEq] at heq
        exact Or.inr ⟨by rw [heq.2], by rw [← heq.1, hspelled]⟩
  rw [Wanted.stop]
  by_cases hname : m.name.body = key.word
  · rw [if_pos hname]
    apply findSome?_eq_of_forall
    · intro o ho
      rcases hhit o ho with rfl | ⟨rfl, -⟩
      · exact Or.inl rfl
      · exact Or.inr rfl
    · refine ⟨some m.value, ?_, rfl⟩
      apply List.mem_map.2
      refine ⟨(m.name, some m.value), List.mem_filter.2 ⟨m.mem_strings, ?_⟩, rfl⟩
      exact decide_eq_true (Or.inl hname)
  · rw [if_neg hname, List.findSome?_eq_none_iff]
    intro o ho
    rcases hhit o ho with rfl | ⟨-, hspelled⟩
    · rfl
    · exact absurd hspelled hname

end

/-! ## When an extractor is right -/

/-- The string that is asked for, given the value of the name: the value, or the name of
the only member of the value. -/
def Wanted.target : Wanted → Value Number → Option Literal
  | string _, .string s => some s
  | disableEnvironment, .object (.cons _ name _ _ _ _ .nil) _ => some name
  | _, _ => none

/-- What is returned is the string that is asked for, as far as it fits; and nothing is
returned if there is no such string, or if it has escapes other than those of quotes,
backslashes and slashes. -/
structure Wanted.Exact (want : Wanted) (m : want.Manifest) (outsz : Nat) : Prop where
  decoded : ∀ out, want.extract m.text.render outsz = some out →
    ∃ s bytes, want.target m.value = some s ∧ s.utf8 = some bytes ∧
      out = CStr.bounded outsz bytes
  skipped : (∀ s, want.target m.value = some s → ¬s.Plain) →
    want.extract m.text.render outsz = none

/-- An extractor is right about a text exactly if it stops nowhere, or if the string that
is asked for is plain and agrees with the string at which it stops, as far as the buffer
goes. -/
theorem extraction_exact_iff (want : Wanted) (m : want.Manifest) (outsz : Nat) :
    want.Exact m outsz ↔
      want.stop m.text = none ∨
        ∃ stop target, want.stop m.text = some stop ∧ want.target m.value = some target ∧
          target.Plain ∧
          CStr.bounded outsz stop.copied = CStr.bounded outsz target.copied := by
  have hextract := want.extract_eq m.text outsz
  cases hstop : want.stop m.text with
  | none =>
      rw [hstop, Option.map_none] at hextract
      refine iff_of_true ⟨?_, fun _ => hextract⟩ (Or.inl rfl)
      intro out hout
      rw [hextract] at hout
      contradiction
  | some stop =>
      rw [hstop, Option.map_some] at hextract
      constructor
      · intro h
        have hplain : ∃ target, want.target m.value = some target ∧ target.Plain := by
          by_contra hnot
          have hnone := h.skipped fun s hs hplain => hnot ⟨s, hs, hplain⟩
          rw [hextract] at hnone
          contradiction
        rcases hplain with ⟨target, htarget, hplain⟩
        rcases h.decoded _ hextract with ⟨s, bytes, hs, hbytes, hout⟩
        rw [htarget, Option.some.injEq] at hs
        rw [← hs, Literal.utf8_of_plain hplain, Option.some.injEq] at hbytes
        rw [← hbytes] at hout
        exact Or.inr ⟨stop, target, rfl, htarget, hplain, hout⟩
      · rintro (hnone | ⟨stop', target, hsome, htarget, hplain, hagree⟩)
        · contradiction
        rw [Option.some.injEq] at hsome
        constructor
        · intro out hout
          rw [hextract, Option.some.injEq] at hout
          exact ⟨target, _, htarget, Literal.utf8_of_plain hplain, by rw [← hout, hsome, hagree]⟩
        · intro hexotic
          exact absurd hplain (hexotic target htarget)

/-- The key `name`. -/
def nameKey : SearchKey where
  word := CStr.ascii "name"
  isWord := isWord_name
  fits := by decide

/-- Characters as they are. -/
def rawLiteral (s : String) : Literal :=
  s.toList.filterMap fun c => if h : Unescaped c then some (.raw c h) else none

/-- A member without white space. -/
def tightMember (name value : Literal) (rest : Members Number) : Members Number :=
  .cons .none name .none .none (.string value) .none rest

/-- An object as a text, without white space. -/
def tightText (ms : Members Number) : Text where
  pre := .none
  value := .object ms .none
  post := .none

/-- A text in which the value of `name` is an escaped newline. -/
def newlineManifest : (Wanted.string nameKey).Manifest where
  text := tightText (tightMember (rawLiteral "name") [.short .newline] .nil)
  name := rawLiteral "name"
  value := .string [.short .newline]
  once := rfl

/-- A member in front of the name, whose own name ends in a quote and `name`. -/
def decoyManifest : (Wanted.string nameKey).Manifest where
  text := tightText (tightMember (.short .quote :: rawLiteral "name") (rawLiteral "a")
    (tightMember (rawLiteral "name") (rawLiteral "b") .nil))
  name := rawLiteral "name"
  value := .string (rawLiteral "b")
  once := rfl

/-- The newline is read as the letter behind its backslash, and the value of the decoy as
the value of the name. -/
theorem escapes_and_decoys_misread :
    (newlineManifest.text.render = CStr.ascii "\x7b\"name\":\"\\n\"\x7d" ∧
        jsonExtractString newlineManifest.text.render (CStr.ascii "name") acManifestStrLen =
          some (CStr.ascii "n") ∧
        ¬(Wanted.string nameKey).Exact newlineManifest acManifestStrLen) ∧
      (decoyManifest.text.render =
          CStr.ascii "\x7b\"\\\"name\":\"a\",\"name\":\"b\"\x7d" ∧
        jsonExtractString decoyManifest.text.render (CStr.ascii "name") acManifestStrLen =
          some (CStr.ascii "a") ∧
        ¬(Wanted.string nameKey).Exact decoyManifest acManifestStrLen) := by
  have hnewline : jsonExtractString newlineManifest.text.render (CStr.ascii "name")
      acManifestStrLen = some (CStr.ascii "n") := by
    decide
  have hdecoy : jsonExtractString decoyManifest.text.render (CStr.ascii "name")
      acManifestStrLen = some (CStr.ascii "a") := by
    decide
  refine ⟨⟨by decide, hnewline, ?_⟩, by decide, hdecoy, ?_⟩
  · intro h
    rcases h.decoded _ hnewline with ⟨s, bytes, hs, hbytes, hout⟩
    cases hs
    cases hbytes
    exact absurd hout (by decide)
  · intro h
    rcases h.decoded _ hdecoy with ⟨s, bytes, hs, hbytes, hout⟩
    cases hs
    cases hbytes
    exact absurd hout (by decide)

end Anticheat
