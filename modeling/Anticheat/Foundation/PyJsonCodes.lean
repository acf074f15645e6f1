import Anticheat.Foundation.PyJson

/-!
# Code points that are read

Strings of Python hold code points below 0x110000.  The strings that {lit}`json.loads`
returns do, if its text does: a character of a string stands in the text, is the value of
four hexadecimal digits, or is joined from a surrogate pair.

Main results:

- Theorem {lit}`scanString_codes`: one string literal.
- Theorem {lit}`loads_codes`: the members of an object that is read.
-/

namespace Foundation
namespace PyJson

/-- All code points are ones that Python has. -/
def Codes (s : PyStr) : Prop :=
  ∀ c ∈ s, c < 0x110000

theorem Codes.mono {s t : PyStr} (h : Codes s) (hsub : t ⊆ s) : Codes t :=
  fun c hc => h c (hsub hc)

theorem Codes.skipWs {s : PyStr} (h : Codes s) : Codes (skipWs s) :=
  h.mono (skipWs_suffix s).subset

theorem Codes.leaves {s r : PyStr} (h : Codes s) (hleaves : Leaves s r) : Codes r :=
  h.mono hleaves.suffix.subset

theorem Codes.tail {c : Nat} {s : PyStr} (h : Codes (c :: s)) : Codes s :=
  h.mono (List.subset_cons_self c s)

/-! ## Strings -/

/-- The digits that are still to come keep the value below 0x10000. -/
def StrMode.Ok : StrMode → Prop
  | .plain => True
  | .escape => True
  | .hex need acc => 1 ≤ need ∧ (acc + 1) * 16 ^ need ≤ 0x10000

theorem StrMode.ok_plain : StrMode.plain.Ok :=
  trivial

theorem StrMode.ok_escape : StrMode.escape.Ok :=
  trivial

theorem StrMode.ok_hex : (StrMode.hex 4 0).Ok :=
  ⟨by decide, by decide⟩

/-- One more digit. -/
theorem StrMode.Ok.digit {need acc d : Nat} (h : (StrMode.hex need acc).Ok) (hd : d < 16)
    (hneed : 1 < need) : (StrMode.hex (need - 1) (acc * 16 + d)).Ok := by
  obtain ⟨k, rfl⟩ : ∃ k, need = k + 1 := ⟨need - 1, by omega⟩
  refine ⟨by omega, ?_⟩
  rw [Nat.add_sub_cancel]
  calc (acc * 16 + d + 1) * 16 ^ k ≤ ((acc + 1) * 16) * 16 ^ k :=
        Nat.mul_le_mul_right _ (by omega)
    _ = (acc + 1) * 16 ^ (k + 1) := by ring
    _ ≤ 0x10000 := h.2

/-- The last digit. -/
theorem StrMode.Ok.last {need acc d : Nat} (h : (StrMode.hex need acc).Ok) (hd : d < 16)
    (hneed : need ≤ 1) : acc * 16 + d < 0x110000 := by
  have hone : need = 1 := le_antisymm hneed h.1
  have hacc : (acc + 1) * 16 ^ need ≤ 0x10000 := h.2
  rw [hone] at hacc
  omega

theorem hexValue_lt {c d : Nat} (h : hexValue c = some d) : d < 16 := by
  unfold hexValue at h
  split_ifs at h <;> cases h <;> omega

theorem simpleEscape_lt {c u : Nat} (h : simpleEscape c = some u) : u < 0x110000 := by
  unfold simpleEscape at h
  split_ifs at h <;> cases h <;> omega

theorem scanUnits_codes {m : StrMode} {s r : PyStr} {us : List StrUnit} (hm : m.Ok)
    (hs : Codes s) (h : scanUnits m s = some (us, r)) : ∀ u ∈ us, u.code < 0x110000 := by
  induction s generalizing m us with
  | nil => cases m <;> contradiction
  | cons c s ih =>
      have hone : ∀ {m' : StrMode} (u : StrUnit), m'.Ok → u.code < 0x110000 →
          (scanUnits m' s).map (Prod.map (u :: ·) id) = some (us, r) →
          ∀ u ∈ us, u.code < 0x110000 := by
        intro m' u hm' hu h'
        rcases Option.map_eq_some_iff.1 h' with ⟨⟨us', r'⟩, hrest, heq⟩
        rw [Prod.map_apply, Prod.mk.injEq, id] at heq
        rcases heq with ⟨rfl, rfl⟩
        exact List.forall_mem_cons.2 ⟨hu, ih hm' hs.tail hrest⟩
      cases m with
      | plain =>
          simp only [scanUnits] at h
          split_ifs at h
          · rw [Option.some.injEq, Prod.mk.injEq] at h
            rw [← h.1]
            simp
          · exact ih StrMode.ok_escape hs.tail h
          · exact hone (.raw c) StrMode.ok_plain (hs c List.mem_cons_self) h
      | escape =>
          simp only [scanUnits] at h
          split_ifs at h
          · exact ih StrMode.ok_hex hs.tail h
          · split at h
            · rename_i u hu
              exact hone (.raw u) StrMode.ok_plain (simpleEscape_lt hu) h
            · contradiction
      | hex need acc =>
          simp only [scanUnits] at h
          split at h
          · contradiction
          · rename_i d hd
            have hdigit := hexValue_lt hd
            split_ifs at h with hlast
            · exact hone (.escaped _) StrMode.ok_plain (hm.last hdigit hlast) h
            · exact ih (hm.digit hdigit (by omega)) hs.tail h

theorem joinUnits_codes {us : List StrUnit} (h : ∀ u ∈ us, u.code < 0x110000) :
    Codes (joinUnits us) := by
  induction us using joinUnits.induct with
  | case1 => exact fun c hc => by simp [joinUnits] at hc
  | case2 hi lo us hpair ih =>
      rw [joinUnits, if_pos hpair]
      simp only [isHighSurrogate, isLowSurrogate, Bool.and_eq_true, decide_eq_true_eq] at hpair
      refine List.forall_mem_cons.2 ⟨by omega, ih fun u hu => ?_⟩
      exact h u (List.mem_cons_of_mem _ (List.mem_cons_of_mem _ hu))
  | case3 hi lo us hpair ih =>
      rw [joinUnits, if_neg hpair]
      refine List.forall_mem_cons.2 ⟨h _ List.mem_cons_self, ih fun u hu => ?_⟩
      exact h u (List.mem_cons_of_mem _ hu)
  | case4 u us hne ih =>
      rw [joinUnits]
      · refine List.forall_mem_cons.2 ⟨h _ List.mem_cons_self, ih fun u hu => ?_⟩
        exact h u (List.mem_cons_of_mem _ hu)
      · exact hne

theorem scanString_codes {s t r : PyStr} (hs : Codes s) (h : scanString s = .ok (t, r)) :
    Codes t := by
  rcases scanString_eq_ok h with ⟨us, hus, rfl⟩
  exact joinUnits_codes (scanUnits_codes StrMode.ok_plain hs hus)

/-! ## Values -/

/-- The strings among the members of an object. -/
def MembersCodes (d : List (PyStr × PyVal)) : Prop :=
  ∀ m ∈ d, ∀ t, m.2 = .str t → Codes t

/-- A value is a string of code points, or an object whose strings are, or anything
else. -/
structure ValueCodes (v : PyVal) : Prop where
  str : ∀ t, v = .str t → Codes t
  dict : ∀ d, v = .dict d → MembersCodes d

theorem MembersCodes.set {d : List (PyStr × PyVal)} (hd : MembersCodes d) (key : PyStr)
    {v : PyVal} (hv : ValueCodes v) : MembersCodes (dictSet d key v) := by
  intro m hm t ht
  unfold dictSet at hm
  split_ifs at hm
  · rcases List.mem_map.1 hm with ⟨m', hm', rfl⟩
    split_ifs at ht
    · exact hv.str t ht
    · exact hd m' hm' t ht
  · rcases List.mem_append.1 hm with hm | hm
    · exact hd m hm t ht
    · rw [List.mem_singleton.1 hm] at ht
      exact hv.str t ht

theorem valueCodes_str {t : PyStr} (h : Codes t) : ValueCodes (.str t) := by
  refine ⟨?_, by simp⟩
  rintro t' ⟨⟩
  exact h

theorem valueCodes_dict {d : List (PyStr × PyVal)} (h : MembersCodes d) :
    ValueCodes (.dict d) := by
  refine ⟨by simp, ?_⟩
  rintro d' ⟨⟩
  exact h

theorem valueCodes_list (l : List PyVal) : ValueCodes (.list l) :=
  ⟨by simp, by simp⟩

theorem valueCodes_scalar {v : PyVal} (h : Scalar v) : ValueCodes v := by
  constructor
  · rintro t rfl
    exact h.elim
  · rintro d rfl
    exact h.elim

theorem scan_codes (n : Nat) :
    (∀ depth s v r, Codes s → scanOnce n depth s = .ok (v, r) → ValueCodes v) ∧
    (∀ depth d s v r, MembersCodes d → Codes s → parseMembers n depth d s = .ok (v, r) →
      ValueCodes v) ∧
    ∀ depth l s v r, Codes s → parseElements n depth l s = .ok (v, r) → ValueCodes v := by
  induction n with
  | zero =>
      refine ⟨?_, ?_, ?_⟩
      · intro depth s v r _ h
        contradiction
      · intro depth d s v r _ _ h
        contradiction
      · intro depth l s v r _ h
        contradiction
  | succ n ih =>
      rcases ih with ⟨hvalue, hmembers, helements⟩
      have hnil : MembersCodes [] := fun m hm => by simp at hm
      refine ⟨?_, ?_, ?_⟩
      · intro depth s v r hs h
        cases scanOnce_eq_ok h with
        | string ht hstr => exact valueCodes_str (scanString_codes (hs.leaves ht) hstr)
        | emptyDict _ => exact valueCodes_dict hnil
        | members ht h => exact hmembers _ _ _ _ _ hnil (hs.leaves ht) h
        | emptyList _ => exact valueCodes_list []
        | elements ht h => exact helements _ _ _ _ _ (hs.leaves ht) h
        | scalar hv _ => exact valueCodes_scalar hv
      · intro depth d s v r hd hs h
        rcases parseMembers_eq_ok h with ⟨key, item, t, t', ht, hitem, hrest⟩
        have hnext := hd.set key (hvalue _ _ _ _ (hs.leaves ht) hitem)
        have hs' := (hs.leaves ht).leaves ((scan_leaves n).1 _ _ _ _ hitem)
        rcases hrest with ⟨rfl, -⟩ | ⟨t'', ht', h⟩
        · exact valueCodes_dict hnext
        · exact hmembers _ _ _ _ _ hnext (hs'.leaves ht') h
      · intro depth l s v r hs h
        rcases parseElements_eq_ok h with ⟨item, t, hitem, hrest⟩
        have hs' := hs.leaves ((scan_leaves n).1 _ _ _ _ hitem)
        rcases hrest with ⟨rfl, -⟩ | ⟨t', ht, h⟩
        · exact valueCodes_list _
        · exact helements _ _ _ _ _ (hs'.leaves ht) h

/-- The strings of an object that is read have code points that Python has. -/
theorem loads_codes {depth : Nat} {s : PyStr} {d : List (PyStr × PyVal)} (hs : Codes s)
    (h : loads depth s = .ok (.dict d)) {key t : PyStr} (ht : dictGet d key = .str t) :
    Codes t := by
  unfold loads at h
  split_ifs at h
  rcases bind_eq_ok h with ⟨⟨v, rest⟩, hscan, h⟩
  have hv := (scan_codes _).1 _ _ _ _ hs.skipWs hscan
  dsimp only at h
  split_ifs at h
  rw [Except.ok.injEq] at h
  unfold dictGet at ht
  cases hfind : d.find? fun m => m.1 == key with
  | none =>
      rw [hfind] at ht
      contradiction
  | some m =>
      rw [hfind] at ht
      exact hv.dict d h m (List.mem_of_find?_eq_some hfind) t ht

end PyJson
end Foundation
