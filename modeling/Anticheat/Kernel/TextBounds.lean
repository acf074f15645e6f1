import Mathlib.Data.Bool.AllAny
import Anticheat.Kernel.SyscallTable

/-!
# Bounds that are derived from the system call table

If no symbol that marks the kernel's text can be resolved, the module takes the least and
the greatest plausible entry of the table that it found, rounds them to 2 MiB, and keeps
the result as the bounds of the text.  Later checks read the bounds as a half-open
interval: an entry that is equal to the upper bound is outside.

Rounding up leaves a multiple of 2 MiB as it is.  So if the greatest plausible entry is
one, it is the upper bound itself, and the checks take it for a hook.

Main results:

- Theorem {lit}`deriveLoop_bounds`: the loop finds the least and the greatest entry.
- Theorem {lit}`derived_bounds_cover_iff`: every plausible entry lies within the derived
  bounds exactly if the greatest one is not a multiple of 2 MiB.
-/

namespace Anticheat

open Foundation

/-! ## Rounding by masks -/

/-- A mask that clears the low bits. -/
theorem land_clear_low {w k x : Nat} (hk : k ≤ w) (hx : x < 2 ^ w) :
    x &&& (2 ^ w - 2 ^ k) = x / 2 ^ k * 2 ^ k := by
  have hmask : 2 ^ w - 2 ^ k = (2 ^ (w - k) - 1) <<< k := by
    rw [Nat.shiftLeft_eq, Nat.sub_mul, one_mul, ← pow_add, Nat.sub_add_cancel hk]
  rw [← Nat.shiftRight_eq_div_pow, ← Nat.shiftLeft_eq, hmask]
  apply Nat.eq_of_testBit_eq
  intro i
  rw [Nat.testBit_and, Nat.testBit_shiftLeft, Nat.testBit_shiftLeft, Nat.testBit_shiftRight,
    Nat.testBit_two_pow_sub_one]
  by_cases hi : k ≤ i
  · rw [Nat.add_sub_cancel' hi]
    by_cases hw : i < w
    · simp [hi, show i - k < w - k by omega]
    · have hhigh : x.testBit i = false :=
        Nat.testBit_lt_two_pow (hx.trans_le (Nat.pow_le_pow_right (by decide) (not_lt.1 hw)))
      simp [hhigh]
  · simp [hi]

/-- 2 MiB -/
def textAlign : Nat := 0x200000

theorem toNat_round_down (x : UInt64) :
    (x &&& ~~~0x1FFFFF).toNat = x.toNat / textAlign * textAlign := by
  rw [UInt64.toNat_and]
  exact land_clear_low (by decide : 21 ≤ 64) x.toNat_lt

theorem toNat_round_up {x : UInt64} (hx : x.toNat + textAlign ≤ 2 ^ 64) :
    ((x + 0x1FFFFF) &&& ~~~0x1FFFFF).toNat = (x.toNat + (textAlign - 1)) / textAlign * textAlign := by
  have hmask : (0x1FFFFF : UInt64).toNat = textAlign - 1 := rfl
  have halign : 1 ≤ textAlign := by decide
  rw [toNat_round_down, UInt64.toNat_add, hmask, Nat.mod_eq_of_lt (by omega)]

/-! ## The least and the greatest entry -/

/-- The plausible entries of a table, in the order of the table. -/
def KernelImage.handlers (img : KernelImage) (base anchor : UInt64) : List UInt64 :=
  (List.range img.nrSyscalls).filterMap fun i =>
    (img.entry base i).filter fun e => acPlausibleHandler img.walk e anchor

/-- What one plausible entry does to the least and the greatest one so far. -/
def widen (bounds : UInt64 × UInt64) (e : UInt64) : UInt64 × UInt64 :=
  (if bounds.1 == 0 || e < bounds.1 then e else bounds.1, if e > bounds.2 then e else bounds.2)

theorem deriveLoop_eq (img : KernelImage) (base anchor : UInt64) (fuel i : Nat)
    (lo hi : UInt64) :
    deriveLoop img base anchor fuel i lo hi =
      ((List.range' i fuel).filterMap fun j =>
        (img.entry base j).filter fun e => acPlausibleHandler img.walk e anchor).foldl widen
          (lo, hi) := by
  induction fuel generalizing i lo hi with
  | zero => rfl
  | succ fuel ih =>
      rw [deriveLoop, List.range'_succ, List.filterMap_cons]
      cases hentry : img.entry base i with
      | none => exact ih (i + 1) lo hi
      | some e =>
          cases hhandler : acPlausibleHandler img.walk e anchor with
          | false =>
              simp only [hhandler, Option.filter_some, Bool.not_false, if_true,
                Bool.false_eq_true, if_false]
              exact ih (i + 1) lo hi
          | true =>
              simp only [hhandler, Option.filter_some, Bool.not_true, Bool.false_eq_true,
                if_false, if_true, List.foldl_cons]
              exact ih (i + 1) _ _

/-- The least and the greatest member of a list of numbers other than zero. -/
structure Extremes (l : List UInt64) (bounds : UInt64 × UInt64) : Prop where
  fst_mem : bounds.1 ∈ l
  snd_mem : bounds.2 ∈ l
  le : ∀ e ∈ l, bounds.1 ≤ e ∧ e ≤ bounds.2

theorem Extremes.widen {l : List UInt64} {bounds : UInt64 × UInt64} (h : Extremes l bounds)
    (hne : bounds.1 ≠ 0) (e : UInt64) : Extremes (l ++ [e]) (Anticheat.widen bounds e) := by
  rcases bounds with ⟨lo, hi⟩
  have hlo : (Anticheat.widen (lo, hi) e).1 = if e < lo then e else lo := by
    have hzero : (lo == 0) = false := by simpa using hne
    simp [Anticheat.widen, hzero]
  have hhi : (Anticheat.widen (lo, hi) e).2 = if e > hi then e else hi := rfl
  refine ⟨?_, ?_, ?_⟩
  · rw [hlo]
    split
    · simp
    · exact List.mem_append_left _ h.fst_mem
  · rw [hhi]
    split
    · simp
    · exact List.mem_append_left _ h.snd_mem
  · intro e' he'
    rw [hlo, hhi]
    rcases List.mem_append.1 he' with he' | he'
    · have hle := h.le e' he'
      simp only [UInt64.le_iff_toNat_le, UInt64.lt_iff_toNat_lt, gt_iff_lt] at hle ⊢
      constructor
      · split <;> omega
      · split <;> omega
    · rw [List.mem_singleton.1 he']
      simp only [UInt64.le_iff_toNat_le, UInt64.lt_iff_toNat_lt, gt_iff_lt]
      constructor
      · split <;> omega
      · split <;> omega

theorem foldl_widen {l : List UInt64} (hl : l ≠ []) (hne : ∀ e ∈ l, e ≠ 0) :
    Extremes l (l.foldl Anticheat.widen (0, 0)) := by
  induction l using List.reverseRecOn with
  | nil => contradiction
  | append_singleton l e ih =>
      rw [List.foldl_append, List.foldl_cons, List.foldl_nil]
      have he : e ≠ 0 := hne e (by simp)
      by_cases hempty : l = []
      · subst hempty
        have hfirst : Anticheat.widen (0, 0) e = (e, e) := by
          simp [Anticheat.widen, UInt64.pos_iff_ne_zero.2 he]
        rw [List.foldl_nil, List.nil_append, hfirst]
        refine ⟨List.mem_singleton_self e, List.mem_singleton_self e, ?_⟩
        intro e' he'
        rw [List.mem_singleton.1 he']
        exact ⟨UInt64.le_refl e, UInt64.le_refl e⟩
      · have hprev := ih hempty fun e' he' => hne e' (List.mem_append_left _ he')
        exact hprev.widen (hne _ (List.mem_append_left _ hprev.fst_mem)) e

theorem acPlausibleHandler_ne_zero {walk : List LoadedModule} {e anchor : UInt64}
    (h : acPlausibleHandler walk e anchor = true) : e ≠ 0 ∧ acAddrInModule walk e = false := by
  unfold acPlausibleHandler at h
  split_ifs at h with hzero hmodule
  exact ⟨by simpa using hzero, by simpa using hmodule⟩

theorem mem_handlers_iff {img : KernelImage} {base anchor e : UInt64} :
    e ∈ img.handlers base anchor ↔
      ∃ i < img.nrSyscalls, img.entry base i = some e ∧
        acPlausibleHandler img.walk e anchor = true := by
  simp only [KernelImage.handlers, List.mem_filterMap, List.mem_range, Option.filter_eq_some_iff]

/-- The loop finds the least and the greatest plausible entry. -/
theorem deriveLoop_bounds {img : KernelImage} {base anchor : UInt64}
    (hhandlers : img.handlers base anchor ≠ []) :
    Extremes (img.handlers base anchor) (deriveLoop img base anchor img.nrSyscalls 0 0 0) := by
  rw [deriveLoop_eq, ← List.range_eq_range']
  refine foldl_widen hhandlers ?_
  intro e he
  rcases mem_handlers_iff.1 he with ⟨_, _, _, hhandler⟩
  exact (acPlausibleHandler_ne_zero hhandler).1

/-! ## The statics after module load -/

/-- The address of the read handler, which is the anchor. -/
def KernelImage.readHandler (img : KernelImage) : UInt64 :=
  acNormalizeFunc img (img.acLookup .x64SysRead)

/-- None of the symbols that mark the text could be resolved. -/
def KernelImage.NoTextSymbols (img : KernelImage) : Prop :=
  img.acLookup .stext = 0 ∧ img.acLookup .text = 0 ∧ img.acLookup .etext = 0 ∧
    img.acLookup .sinittext = 0

theorem acResolveTextBounds_of_noTextSymbols {img : KernelImage} (h : img.NoTextSymbols) :
    acResolveTextBounds img {} = {} := by
  rcases h with ⟨hstext, htext, hetext, hsinittext⟩
  simp [acResolveTextBounds, hstext, htext, hetext, hsinittext]

theorem handlers_ne_nil_of_isTable {img : KernelImage} {rh wh base : UInt64}
    (h : IsTable img rh wh base) : img.handlers base rh ≠ [] := by
  have hpos : 0 < (List.range img.nrSyscalls).countP (img.plausibleAt base rh) :=
    Nat.lt_of_lt_of_le (by decide) h.handlers
  rcases List.countP_pos_iff.1 hpos with ⟨i, hi, hhandler⟩
  rw [KernelImage.plausibleAt, Option.any_eq_true] at hhandler
  rcases hhandler with ⟨e, he, hat⟩
  exact List.ne_nil_of_mem (mem_handlers_iff.2 ⟨i, List.mem_range.1 hi, he, hat⟩)

theorem acDeriveBounds_acAnchor (img : KernelImage) (base anchor : UInt64) (st : TextStatics) :
    (acDeriveBounds img base anchor st).acAnchor = st.acAnchor := by
  unfold acDeriveBounds
  dsimp only
  split <;> rfl

/-- A search that succeeds without text symbols leaves a table, and the bounds that its
entries give. -/
theorem loadStatics_of_found {img : KernelImage} (hsymbols : img.NoTextSymbols)
    (hfound : (loadStatics img).acSyscallTable ≠ 0) :
    ∃ wh base, IsTable img img.readHandler wh base ∧ base ≠ 0 ∧
      loadStatics img =
        { acSyscallTable := base
          acStext := (acDeriveBounds img base img.readHandler
            { acAnchor := img.readHandler }).acStext
          acTextEnd := (acDeriveBounds img base img.readHandler
            { acAnchor := img.readHandler }).acTextEnd
          acAnchor := img.readHandler
          nrSyscalls := img.nrSyscalls } := by
  unfold loadStatics at hfound ⊢
  rw [acResolveTextBounds_of_noTextSymbols hsymbols] at hfound ⊢
  dsimp only at hfound ⊢
  set wh := acNormalizeFunc img (img.acLookup .x64SysWrite) with hwh
  by_cases hresolved : img.readHandler ≠ 0 ∧ wh ≠ 0
  · have hsearch : acFindSyscallTable img {} = _ :=
      acFindSyscallTable_eq (rfl : _ = img.readHandler) hwh.symm hresolved.1 hresolved.2
    have htest : ∀ a, (forwardScan img img.readHandler wh (scanStart {} img.readHandler)).or
        (backwardScan img img.readHandler wh) = some a → IsTable img img.readHandler wh a := by
      intro a ha
      rcases Option.or_eq_some_iff.1 ha with ha | ⟨-, ha⟩
      · exact (tableAt_iff img _ wh a).1 (GuardedScan.scan_test ha)
      · exact (tableAt_iff img _ wh a).1 (GuardedScan.scan_test ha)
    rw [hsearch] at hfound ⊢
    generalize (forwardScan img img.readHandler wh (scanStart {} img.readHandler)).or
      (backwardScan img img.readHandler wh) = result at htest hfound ⊢
    cases result with
    | none => contradiction
    | some a =>
        refine ⟨wh, a, htest a rfl, hfound, ?_⟩
        rw [acDeriveBounds_acAnchor]
  · have hnone : acFindSyscallTable img {} = (0, {}) := by
      rw [acFindSyscallTable, if_pos]
      rw [Bool.or_eq_true, beq_iff_eq, beq_iff_eq]
      by_contra hnot
      rw [not_or] at hnot
      exact hresolved hnot
    rw [hnone] at hfound
    contradiction

/-! ## Coverage -/

/-- The plausible entries lie at least 2 MiB above zero and below the end of the address
space. -/
def HandlersInside (l : List UInt64) : Prop :=
  ∀ e ∈ l, textAlign ≤ e.toNat ∧ e.toNat + textAlign ≤ 2 ^ 64

/-- The derived bounds, as numbers. -/
theorem acDeriveBounds_toNat {img : KernelImage} {base anchor : UInt64}
    (hhandlers : img.handlers base anchor ≠ [])
    (hinside : HandlersInside (img.handlers base anchor)) :
    ∃ lo hi, Extremes (img.handlers base anchor) (lo, hi) ∧
      (acDeriveBounds img base anchor { acAnchor := anchor }).acStext.toNat =
        lo.toNat / textAlign * textAlign ∧
      (acDeriveBounds img base anchor { acAnchor := anchor }).acTextEnd.toNat =
        (hi.toNat + (textAlign - 1)) / textAlign * textAlign := by
  have hbounds := deriveLoop_bounds hhandlers
  unfold acDeriveBounds
  rcases hloop : deriveLoop img base anchor img.nrSyscalls 0 0 0 with ⟨lo, hi⟩
  rw [hloop] at hbounds
  have hpos : 0 < textAlign := by decide
  have hne : ∀ e ∈ img.handlers base anchor, e ≠ 0 := by
    rintro e he rfl
    exact absurd (hinside 0 he).1 (by decide)
  have hlo : (lo != 0) = true := bne_iff_ne.2 (hne lo hbounds.fst_mem)
  have hhi : (hi != 0) = true := bne_iff_ne.2 (hne hi hbounds.snd_mem)
  refine ⟨lo, hi, hbounds, ?_, ?_⟩
  · simp only [hlo, hhi, Bool.and_self, if_true, beq_self_eq_true, toNat_round_down]
  · simp only [hlo, hhi, Bool.and_self, if_true, beq_self_eq_true,
      toNat_round_up (hinside hi hbounds.snd_mem).2]

/-- No plausible entry of the table is taken for a hook: not by the classification, and
not by a check of the table that is made on the same memory. -/
def CoversHandlers (img : KernelImage) : Prop :=
  let sys := loadStatics img
  (∀ e ∈ img.handlers sys.acSyscallTable img.readHandler,
    acEntryBad sys img.walk e = false) ∧
  ∃ out emitted, acCheckSyscalls sys ⟨img.kread, fun _ => img.walk⟩ = (.ok (), out, emitted) ∧
    out.hooked = (List.range img.nrSyscalls).countP fun i =>
      badEntry sys ⟨img.kread, fun _ => img.walk⟩ i &&
        !img.plausibleAt sys.acSyscallTable img.readHandler i

/-- The check counts no entry that the classification accepts. -/
theorem coversHandlers_iff {img : KernelImage} (hfound : (loadStatics img).acSyscallTable ≠ 0) :
    CoversHandlers img ↔
      ∀ e ∈ img.handlers (loadStatics img).acSyscallTable img.readHandler,
        acEntryBad (loadStatics img) img.walk e = false := by
  unfold CoversHandlers
  have hnr : (loadStatics img).nrSyscalls = img.nrSyscalls := rfl
  generalize loadStatics img = sys at hfound hnr ⊢
  refine ⟨fun h => h.1, fun h => ⟨h, ?_⟩⟩
  rcases acCheckSyscalls_ok hfound ⟨img.kread, fun _ => img.walk⟩ with
    ⟨out, emitted, hrun, -, -, hhooked, -, -⟩
  refine ⟨out, emitted, hrun, ?_⟩
  rw [hhooked, hnr]
  apply List.countP_congr
  intro i hi
  cases hhandler : img.plausibleAt sys.acSyscallTable img.readHandler i with
  | false => simp
  | true =>
      -- a plausible entry is among the handlers, so it is not bad
      rw [KernelImage.plausibleAt, Option.any_eq_true] at hhandler
      rcases hhandler with ⟨e, he, hat⟩
      have hgood := h e (mem_handlers_iff.2 ⟨i, List.mem_range.1 hi, he, hat⟩)
      have hentry : syscallEntry sys ⟨img.kread, fun _ => img.walk⟩ i = some e := by
        refine Option.filter_eq_some_iff.2 ⟨he, ?_⟩
        exact bne_iff_ne.2 (acPlausibleHandler_ne_zero hat).1
      simp [badEntry, hentry, hgood]

/-- With known bounds, an entry outside the modules is good if it lies between them. -/
theorem acEntryBad_eq_false_iff {sys : SyscallStatics} {walk : List LoadedModule} {e : UInt64}
    (hstext : sys.acStext ≠ 0) (hend : sys.acTextEnd ≠ 0) (hlow : sys.acStext ≤ e)
    (hmodule : acAddrInModule walk e = false) :
    acEntryBad sys walk e = false ↔ e < sys.acTextEnd := by
  have hnot : ¬e < sys.acStext := UInt64.not_lt.2 hlow
  by_cases hlt : e < sys.acTextEnd
  · have hge : ¬sys.acTextEnd ≤ e := UInt64.not_le.2 hlt
    simp [acEntryBad, acInCoreText, hstext, hend, hnot, hmodule, hlt, hge]
  · have hge : sys.acTextEnd ≤ e := UInt64.not_lt.1 hlt
    simp [acEntryBad, acInCoreText, hstext, hend, hlt, hge]

/-- For every table and module layout, if no text symbol could be resolved and the search
succeeded: the derived bounds cover every plausible entry exactly if the greatest one is
not a multiple of 2 MiB. -/
theorem derived_bounds_cover_iff {img : KernelImage} (hsymbols : img.NoTextSymbols)
    (hfound : (loadStatics img).acSyscallTable ≠ 0)
    (hinside : HandlersInside
      (img.handlers (loadStatics img).acSyscallTable img.readHandler)) :
    CoversHandlers img ↔
      ∀ e ∈ img.handlers (loadStatics img).acSyscallTable img.readHandler,
        (∀ e' ∈ img.handlers (loadStatics img).acSyscallTable img.readHandler, e' ≤ e) →
          ¬textAlign ∣ e.toNat := by
  rw [coversHandlers_iff hfound]
  rcases loadStatics_of_found hsymbols hfound with ⟨wh, base, htable, -, hload⟩
  rw [hload] at hinside ⊢
  dsimp only at hinside ⊢
  rcases acDeriveBounds_toNat (handlers_ne_nil_of_isTable htable) hinside with
    ⟨lo, hi, hbounds, hstext, hend⟩
  generalize (acDeriveBounds img base img.readHandler _).acStext = stext at hstext ⊢
  generalize (acDeriveBounds img base img.readHandler _).acTextEnd = textEnd at hend ⊢
  have hlo := hinside lo hbounds.fst_mem
  have hhi := hinside hi hbounds.snd_mem
  have halign : textAlign = 2097152 := rfl
  simp only [halign] at hstext hend hlo hhi ⊢
  have hne : stext ≠ 0 ∧ textEnd ≠ 0 := by
    constructor
    · rintro rfl
      rw [UInt64.toNat_zero] at hstext
      omega
    · rintro rfl
      rw [UInt64.toNat_zero] at hend
      omega
  have hgood : ∀ e ∈ img.handlers base img.readHandler,
      (acEntryBad ⟨base, stext, textEnd, img.readHandler, img.nrSyscalls⟩ img.walk e = false ↔
        e.toNat < textEnd.toNat) := by
    intro e he
    have hle := UInt64.le_iff_toNat_le.1 (hbounds.le e he).1
    rcases mem_handlers_iff.1 he with ⟨_, _, _, hhandler⟩
    rw [← UInt64.lt_iff_toNat_lt]
    refine acEntryBad_eq_false_iff hne.1 hne.2 ?_ (acPlausibleHandler_ne_zero hhandler).2
    rw [UInt64.le_iff_toNat_le]
    dsimp only at hle ⊢
    omega
  constructor
  · -- the greatest entry is good, so it is below its rounded value
    intro hall e he hgreatest hdvd
    have hlt := (hgood e he).1 (hall e he)
    have hle := UInt64.le_iff_toNat_le.1 (hgreatest hi hbounds.snd_mem)
    have hge := UInt64.le_iff_toNat_le.1 (hbounds.le e he).2
    dsimp only at hge
    omega
  · intro hgreatest e he
    have hndvd := hgreatest hi hbounds.snd_mem fun e' he' => (hbounds.le e' he').2
    have hle := UInt64.le_iff_toNat_le.1 (hbounds.le e he).2
    dsimp only at hle
    rw [hgood e he]
    omega

/-! ## A greatest entry on a 2 MiB boundary -/

theorem smallImage_noTextSymbols (top : UInt64) : (smallImage top).NoTextSymbols :=
  ⟨rfl, rfl, rfl, rfl⟩

theorem unaligned_top_covered : CoversHandlers (smallImage 0xffffffff81200008) := by
  have hbase : (loadStatics (smallImage 0xffffffff81200008)).acSyscallTable =
      0xffffffff81100040 := by
    decide +kernel
  have hunaligned : ∀ e ∈ (smallImage 0xffffffff81200008).handlers 0xffffffff81100040
      (smallImage 0xffffffff81200008).readHandler, ¬textAlign ∣ e.toNat :=
    List.all_iff_forall_prop.1 (by decide +kernel)
  refine (derived_bounds_cover_iff (smallImage_noTextSymbols _) ?_ ?_).2 ?_
  · rw [hbase]
    decide
  · rw [hbase]
    exact List.all_iff_forall_prop.1 (by decide +kernel)
  · rw [hbase]
    intro e he _
    exact hunaligned e he

/-- The greatest plausible entry lies on a 2 MiB boundary, and the check reports it as a
hook. -/
theorem aligned_top_reported :
    let img := smallImage 0xffffffff81200000
    img.NoTextSymbols ∧ (loadStatics img).acSyscallTable = 0xffffffff81100040 ∧
      HandlersInside (img.handlers 0xffffffff81100040 img.readHandler) ∧
      acPlausibleHandler img.walk 0xffffffff81200000 img.readHandler = true ∧
      (acCheckSyscalls (loadStatics img) ⟨img.kread, fun _ => img.walk⟩).2.1.hooked = 1 ∧
      ¬CoversHandlers img := by
  intro img
  have hload : loadStatics img =
      { acSyscallTable := 0xffffffff81100040, acStext := 0xffffffff81000000
        acTextEnd := 0xffffffff81200000, acAnchor := 0xffffffff81100000
        nrSyscalls := 402 } := by
    decide +kernel
  have hhandler : acPlausibleHandler img.walk 0xffffffff81200000 img.readHandler = true := by
    decide
  refine ⟨smallImage_noTextSymbols _, by rw [hload], List.all_iff_forall_prop.1 (by decide +kernel),
    hhandler, by rw [hload]; decide +kernel, ?_⟩
  rintro ⟨hgood, -⟩
  rw [hload] at hgood
  have hbad := hgood 0xffffffff81200000 (mem_handlers_iff.2 ⟨2, by decide, by decide, hhandler⟩)
  exact absurd hbad (by decide)

end Anticheat
