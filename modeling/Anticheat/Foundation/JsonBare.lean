import Anticheat.Foundation.JsonSearch

/-!
# Outside the strings of a JSON text

Without its strings, a JSON text has a small alphabet: white space, punctuation, the
letters of the three constants and the characters of numbers.  A text in which another
character stands outside the strings is therefore no JSON text.

Main results:

- Theorem {lit}`Value.mem_bare`: a character beyond the alphabet comes from the numbers.
- Theorem {lit}`Text.not_mem_bare`: in a JSON text there is none.
- Theorem {lit}`Value.text_map`: the text of a tree depends on its numbers only through
  their spelling.
-/

namespace Foundation
namespace Json

open Quoted CStr

variable {ν μ : Type} {num : ν → List UInt8}

/-! ## Leaving out the strings -/

/-- Where a scanner stands. -/
inductive BareMode where
  | outside
  | inside
  | escaped

def bareFrom : BareMode → List UInt8 → List UInt8
  | _, [] => []
  | .outside, c :: s => if c = 34 then bareFrom .inside s else c :: bareFrom .outside s
  | .inside, c :: s =>
      if c = 34 then bareFrom .outside s
      else if c = 92 then bareFrom .escaped s
      else bareFrom .inside s
  | .escaped, _ :: s => bareFrom .inside s

/-- A text without its strings. -/
def bare (s : List UInt8) : List UInt8 :=
  bareFrom .outside s

theorem bare_cons {c : UInt8} (hc : c ≠ 34) (rest : List UInt8) :
    bare (c :: rest) = c :: bare rest := by
  rw [bare, bareFrom, if_neg hc]
  rfl

theorem bare_append {s : List UInt8} (hs : ∀ c ∈ s, c ≠ 34) (rest : List UInt8) :
    bare (s ++ rest) = s ++ bare rest := by
  induction s with
  | nil => rfl
  | cons c s ih =>
      rw [List.cons_append, bare_cons (hs c List.mem_cons_self),
        ih fun d hd => hs d (List.mem_cons_of_mem c hd), List.cons_append]

theorem bareFrom_body {b : List UInt8} (hb : IsBody b) (rest : List UInt8) :
    bareFrom .inside (b ++ 34 :: rest) = bare rest := by
  induction hb with
  | nil => rfl
  | plain hq hs _ ih => rw [List.cons_append, bareFrom, if_neg hq, if_neg hs, ih]
  | escaped c _ ih => exact ih

theorem bare_text (s : Literal) (rest : List UInt8) : bare (s.text rest) = bare rest :=
  bareFrom_body s.isBody rest

/-! ## The alphabet -/

/-- White space, punctuation and the letters of the constants. -/
def tokenBytes : List UInt8 :=
  CStr.ascii "null" ++ CStr.ascii "true" ++ CStr.ascii "false" ++
    [91, 93, 123, 125, 44, 58, 32, 9, 10, 13]

theorem tokenBytes_ne_quote {c : UInt8} (hc : c ∈ tokenBytes) : c ≠ 34 := by
  rintro rfl
  revert hc
  decide

/-- Token bytes are no strings, and no other character is among them. -/
theorem mem_bare_append {x : UInt8} (hx : x ∉ tokenBytes) {s : List UInt8}
    (hs : ∀ c ∈ s, c ∈ tokenBytes) (rest : List UInt8) :
    x ∈ bare (s ++ rest) ↔ x ∈ bare rest := by
  rw [bare_append fun c hc => tokenBytes_ne_quote (hs c hc), List.mem_append,
    or_iff_right fun hmem => hx (hs x hmem)]

theorem mem_bare_cons {x : UInt8} (hx : x ∉ tokenBytes) {c : UInt8} (hc : c ∈ tokenBytes)
    (rest : List UInt8) : x ∈ bare (c :: rest) ↔ x ∈ bare rest :=
  mem_bare_append hx (List.forall_mem_singleton.mpr hc) rest

theorem Ws.mem_tokenBytes (ws : Ws) : ∀ c ∈ ws.bytes, c ∈ tokenBytes := by
  intro c hc
  have hws := ws.ws c hc
  simp only [isWs, Bool.or_eq_true, beq_iff_eq] at hws
  rcases hws with ((rfl | rfl) | rfl) | rfl <;> decide

theorem mem_bare_ws {x : UInt8} (hx : x ∉ tokenBytes) (ws : Ws) (rest : List UInt8) :
    x ∈ bare (ws.bytes ++ rest) ↔ x ∈ bare rest :=
  mem_bare_append hx ws.mem_tokenBytes rest

mutual

/-- A character beyond the alphabet that stands outside the strings of a tree belongs to
one of its numbers. -/
theorem Value.mem_bare {x : UInt8} (hx : x ∉ tokenBytes) (hnum : ∀ n, ∀ c ∈ num n, c ≠ 34)
    (v : Value ν) (rest : List UInt8) :
    x ∈ bare (v.text num rest) ↔ (∃ n ∈ v.numbers, x ∈ num n) ∨ x ∈ bare rest := by
  cases v with
  | null =>
      have hnull : ∀ c ∈ CStr.ascii "null", c ∈ tokenBytes := fun c hc => by
        simp [tokenBytes, hc]
      rw [Value.text, mem_bare_append hx hnull]
      simp [Value.numbers]
  | bool b =>
      have hbool : ∀ c ∈ CStr.ascii (if b then "true" else "false"), c ∈ tokenBytes := by
        cases b
        · exact fun c hc => by simp [tokenBytes, show c ∈ CStr.ascii "false" from hc]
        · exact fun c hc => by simp [tokenBytes, show c ∈ CStr.ascii "true" from hc]
      rw [Value.text, mem_bare_append hx hbool]
      simp [Value.numbers]
  | number n =>
      rw [Value.text, bare_append (hnum n), List.mem_append]
      simp [Value.numbers]
  | string s =>
      rw [Value.text, bare_text]
      simp [Value.numbers]
  | array es close =>
      rw [Value.text, mem_bare_cons hx (by decide), Elements.mem_bare hx hnum es (by simp),
        mem_bare_ws hx, mem_bare_cons hx (by decide), Value.numbers]
  | object ms close =>
      rw [Value.text, mem_bare_cons hx (by decide), Members.mem_bare hx hnum ms (by simp),
        mem_bare_ws hx, mem_bare_cons hx (by decide), Value.numbers]

theorem Elements.mem_bare {x : UInt8} (hx : x ∉ tokenBytes)
    (hnum : ∀ n, ∀ c ∈ num n, c ≠ 34) (es : Elements ν) {sep : List UInt8}
    (hsep : ∀ c ∈ sep, c ∈ tokenBytes) (rest : List UInt8) :
    x ∈ bare (es.text num sep rest) ↔ (∃ n ∈ es.numbers, x ∈ num n) ∨ x ∈ bare rest := by
  cases es with
  | nil => simp [Elements.text, Elements.numbers]
  | cons pre v post es =>
      have hcomma : ∀ c ∈ [(44 : UInt8)], c ∈ tokenBytes :=
        List.forall_mem_singleton.mpr (by decide)
      rw [Elements.text, mem_bare_append hx hsep, mem_bare_ws hx, Value.mem_bare hx hnum v,
        mem_bare_ws hx, Elements.mem_bare hx hnum es hcomma, Elements.numbers, ← or_assoc]
      simp only [List.mem_append, or_and_right, exists_or]

theorem Members.mem_bare {x : UInt8} (hx : x ∉ tokenBytes)
    (hnum : ∀ n, ∀ c ∈ num n, c ≠ 34) (ms : Members ν) {sep : List UInt8}
    (hsep : ∀ c ∈ sep, c ∈ tokenBytes) (rest : List UInt8) :
    x ∈ bare (ms.text num sep rest) ↔ (∃ n ∈ ms.numbers, x ∈ num n) ∨ x ∈ bare rest := by
  cases ms with
  | nil => simp [Members.text, Members.numbers]
  | cons pre name mid aft v post ms =>
      have hcomma : ∀ c ∈ [(44 : UInt8)], c ∈ tokenBytes :=
        List.forall_mem_singleton.mpr (by decide)
      rw [Members.text, mem_bare_append hx hsep, mem_bare_ws hx, bare_text, mem_bare_ws hx,
        mem_bare_cons hx (by decide), mem_bare_ws hx, Value.mem_bare hx hnum v, mem_bare_ws hx,
        Members.mem_bare hx hnum ms hcomma, Members.numbers, ← or_assoc]
      simp only [List.mem_append, or_and_right, exists_or]

end

/-- Outside its strings, a JSON text has no characters beyond the alphabet and the
characters of numbers. -/
theorem Text.not_mem_bare (t : Text) {x : UInt8} (hx : x ∉ tokenBytes)
    (hdigit : isNumberByte x = false) : x ∉ bare t.render := by
  have hend : x ∉ bare t.post.bytes := by
    have hws := mem_bare_ws hx t.post []
    rw [List.append_nil] at hws
    rw [hws]
    simp [bare, bareFrom]
  rw [Text.render, mem_bare_ws hx, Value.mem_bare hx Number.bytes_ne_quote]
  rintro (⟨n, -, hn⟩ | hrest)
  · rw [n.isNumberByte x hn] at hdigit
    contradiction
  · exact hend hrest

/-! ## Other numbers -/

mutual

theorem Value.text_map {num' : μ → List UInt8} {f : ν → μ} (v : Value ν)
    (h : ∀ n ∈ v.numbers, num' (f n) = num n) (rest : List UInt8) :
    (v.map f).text num' rest = v.text num rest := by
  cases v with
  | null => rfl
  | bool b => rfl
  | number n => rw [Value.map, Value.text, Value.text, h n (by simp [Value.numbers])]
  | string s => rfl
  | array es close =>
      rw [Value.map, Value.text, Value.text, Elements.text_map es fun n hn => h n hn]
  | object ms close =>
      rw [Value.map, Value.text, Value.text, Members.text_map ms fun n hn => h n hn]

theorem Elements.text_map {num' : μ → List UInt8} {f : ν → μ} (es : Elements ν)
    (h : ∀ n ∈ es.numbers, num' (f n) = num n) (sep rest : List UInt8) :
    (es.map f).text num' sep rest = es.text num sep rest := by
  cases es with
  | nil => rfl
  | cons pre v post es =>
      have hv : ∀ n ∈ v.numbers, num' (f n) = num n :=
        fun n hn => h n (List.mem_append_left _ hn)
      have hes : ∀ n ∈ es.numbers, num' (f n) = num n :=
        fun n hn => h n (List.mem_append_right _ hn)
      rw [Elements.map, Elements.text, Elements.text, Value.text_map v hv,
        Elements.text_map es hes]

theorem Members.text_map {num' : μ → List UInt8} {f : ν → μ} (ms : Members ν)
    (h : ∀ n ∈ ms.numbers, num' (f n) = num n) (sep rest : List UInt8) :
    (ms.map f).text num' sep rest = ms.text num sep rest := by
  cases ms with
  | nil => rfl
  | cons pre name mid aft v post ms =>
      have hv : ∀ n ∈ v.numbers, num' (f n) = num n :=
        fun n hn => h n (List.mem_append_left _ hn)
      have hms : ∀ n ∈ ms.numbers, num' (f n) = num n :=
        fun n hn => h n (List.mem_append_right _ hn)
      rw [Members.map, Members.text, Members.text, Value.text_map v hv,
        Members.text_map ms hms]

end

theorem Elements.toList_map (f : ν → μ) (es : Elements ν) :
    (es.map f).toList = es.toList.map fun v => v.map f := by
  induction es using Elements.toList.induct with
  | case1 => rfl
  | case2 pre v post es ih => rw [Elements.map, Elements.toList, Elements.toList, ih]; rfl

theorem Members.find_map (name : PyStr) (f : ν → μ) (ms : Members ν) :
    (ms.map f).find name = (ms.find name).map fun v => v.map f := by
  induction ms using Members.find.induct name with
  | case1 => rfl
  | case2 pre key mid aft v post ms hkey => simp [Members.map, Members.find, hkey]
  | case3 pre key mid aft v post ms hkey ih => simp [Members.map, Members.find, hkey, ih]

theorem Value.get?_map (name : PyStr) (f : ν → μ) (v : Value ν) :
    (v.map f).get? name = (v.get? name).map fun v => v.map f := by
  cases v with
  | object ms close => exact ms.find_map name f
  | null | bool _ | number _ | string _ | array _ _ => rfl

end Json
end Foundation
