import Anticheat.Daemon.BaselineRoundTrip

/-!
# The verdicts on a baseline

`scan --hash --check` and the periodic check each read the first line of a baseline
file, parse it and compare the digest in it with that of the mapping.  The command
starts from the verdict that nothing changed and gives it up only for a line that
parses, so it also vouches for a mapping whose baseline it could not read.  The
periodic check skips such a baseline.

Main results:

- Theorem {lit}`baseline_verdicts_iff`: an `ok` of the command means a match exactly
  when the first line of the baseline parses, and for such a line the two checks agree.
- Theorem {lit}`empty_baseline_ok`: an empty baseline file is reported as a match.
-/

namespace Anticheat

open Foundation

/-- A run hashes the mapping at an index to `d`, and the baseline that it opens for the
mapping holds `text`. -/
def Meets (var : Option CStr) (files : BaselineFiles) (r : ScanRun) (p : Process)
    (priv : Option AcFdState) (v : Nat) (text : List UInt8) (d : CStr) : Prop :=
  ∃ vi, (r.records p)[v]? = some vi ∧ r.digest p priv v = some d ∧
    r.openBaseline files v (baselinePathFor var vi.path) = some text

/-- The command prints, for the mapping at an index, that it matches. -/
def PrintsOk (lines : Option (List (List ScanLine))) (v : Nat) : Prop :=
  ∃ l, (lines.bind fun ls => ls[v]?) = some l ∧ ScanLine.ok ∈ l

section

variable {var : Option CStr} {files : BaselineFiles} {r : ScanRun} {p : Process}
  {priv : Option AcFdState} {v : Nat} {text text' : List UInt8} {d d' : CStr}

theorem Meets.unique (h : Meets var files r p priv v text d)
    (h' : Meets var files r p priv v text' d') : text' = text ∧ d' = d := by
  rcases h with ⟨vi, hvi, hd, hopen⟩
  rcases h' with ⟨vi', hvi', hd', hopen'⟩
  obtain rfl : vi = vi' := Option.some.inj (hvi.symm.trans hvi')
  exact ⟨Option.some.inj (hopen'.symm.trans hopen), Option.some.inj (hd'.symm.trans hd)⟩

/-- What a run finds is settled by the digest and the text that it meets. -/
theorem Meets.findsDifference_iff (h : Meets var files r p priv v text d) :
    FindsDifference var files r p priv v ↔ ∃ d', baselineDigest text = some d' ∧ d' ≠ d := by
  constructor
  · rintro ⟨vi, d₁, text₁, d', hvi, hd₁, hopen, hd', hne⟩
    obtain ⟨rfl, rfl⟩ := h.unique ⟨vi, hvi, hd₁, hopen⟩
    exact ⟨d', hd', hne⟩
  · rintro ⟨d', hd', hne⟩
    rcases h with ⟨vi, hvi, hd, hopen⟩
    exact ⟨vi, d, text, d', hvi, hd, hopen, hd', hne⟩

end

/-- The comparison of `--check` reports a match for every baseline that is open and
does not hold another digest. -/
theorem ok_mem_checkLines_iff (text : Option (List UInt8)) (path hex : CStr) :
    ScanLine.ok ∈ checkLines text path hex ↔
      ∃ t, text = some t ∧ ∀ d, baselineDigest t = some d → d = hex := by
  cases text with
  | none => simp [checkLines]
  | some t =>
      have hsame : baselineChanged t hex = false ↔ ∀ d, baselineDigest t = some d → d = hex := by
        rw [← Bool.not_eq_true, baselineChanged_iff]
        simp only [not_exists, not_and, not_not]
      cases hchanged : baselineChanged t hex with
      | false => simpa [checkLines, hchanged] using hsame.mp hchanged
      | true =>
          refine iff_of_false (by simp [checkLines, hchanged]) ?_
          rintro ⟨t', ht, hd⟩
          cases ht
          rw [hsame.mpr hd] at hchanged
          contradiction

/-- When `scan --hash --check` reports a match. -/
theorem cmdScan_check_ok_iff (var : Option CStr) (verbose : Bool) (r : ScanRun) (p : Process)
    (pid : Int) (files : BaselineFiles) (v : Nat) :
    PrintsOk (cmdScan var (checkFlags verbose) r p pid files).1 v ↔
      ∃ text d, Meets var files r p none v text d ∧
        ∀ d', baselineDigest text = some d' → d' = d := by
  rw [PrintsOk, @cmdScan_check_verdict_iff (checkFlags verbose) rfl rfl rfl .ok rfl]
  simp only [ok_mem_checkLines_iff]
  constructor
  · rintro ⟨vi, d, hvi, hd, text, hopen, hsame⟩
    exact ⟨text, d, ⟨vi, hvi, hd, hopen⟩, hsame⟩
  · rintro ⟨text, d, ⟨vi, hvi, hd, hopen⟩, hsame⟩
    exact ⟨vi, d, hvi, hd, text, hopen, hsame⟩

/-- Where the first line of a baseline parses, the command and the periodic check agree
on the digest of a mapping. -/
theorem verdicts_agree {var var' : Option CStr} {verbose : Bool} {r r' : ScanRun}
    {p p' : Process} {pid : Int} {files files' : BaselineFiles} {v v' k : Nat}
    {c : CheckRound} {priv : Option AcFdState} {item : AcProtItem} {text : List UInt8}
    {d : CStr} (hk : c.listed[k]? = some (item, p', r'))
    (hcmd : Meets var files r p none v text d)
    (hround : Meets var' files' r' p' (c.privAt var' files' priv k) v' text d) :
    PrintsDifference (cmdScan var (checkFlags verbose) r p pid files).1 v ↔
      RoundReports (checkBaselinesPeriodic var' files' c priv).1 k v' := by
  rw [@cmdScan_check_differs_iff (checkFlags verbose) rfl rfl rfl,
    checkBaselinesPeriodic_reports_iff var' files' c priv hk, hcmd.findsDifference_iff,
    hround.findsDifference_iff]

/-- The command vouches for a mapping only if its baseline holds its digest, and it
agrees with the periodic check on every line that parses, exactly when the first line of
the baseline that it opens for a hashed mapping parses. -/
theorem baseline_verdicts_iff (var : Option CStr) (verbose : Bool) (r : ScanRun)
    (p : Process) (pid : Int) (files : BaselineFiles) (v : Nat) :
    ((PrintsOk (cmdScan var (checkFlags verbose) r p pid files).1 v →
        ∃ text d, Meets var files r p none v text d ∧ baselineDigest text = some d) ∧
      ∀ (var' : Option CStr) (files' : BaselineFiles) (c : CheckRound)
        (priv : Option AcFdState) (k v' : Nat) (item : AcProtItem) (p' : Process)
        (r' : ScanRun) (text : List UInt8) (d : CStr),
        c.listed[k]? = some (item, p', r') → Meets var files r p none v text d →
        Meets var' files' r' p' (c.privAt var' files' priv k) v' text d →
        (baselineDigest text).isSome = true →
        (PrintsDifference (cmdScan var (checkFlags verbose) r p pid files).1 v ↔
          RoundReports (checkBaselinesPeriodic var' files' c priv).1 k v')) ↔
      ∀ text d, Meets var files r p none v text d → (baselineDigest text).isSome = true := by
  rw [cmdScan_check_ok_iff]
  constructor
  · rintro ⟨hok, -⟩ text d hmeets
    by_contra hnone
    rw [Bool.not_eq_true, Option.isSome_eq_false_iff, Option.isNone_iff_eq_none] at hnone
    -- a line that does not parse is never found to differ
    obtain ⟨text', d', hmeets', hd'⟩ := hok ⟨text, d, hmeets, by simp [hnone]⟩
    obtain ⟨rfl, -⟩ := hmeets.unique hmeets'
    rw [hnone] at hd'
    contradiction
  · intro hparses
    refine ⟨?_, ?_⟩
    · rintro ⟨text, d, hmeets, hsame⟩
      obtain ⟨d', hd'⟩ := Option.isSome_iff_exists.mp (hparses text d hmeets)
      refine ⟨text, d, hmeets, ?_⟩
      rw [hd', hsame d' hd']
    · intro var' files' c priv k v' item p' r' text d hk hcmd hround _
      exact verdicts_agree hk hcmd hround

/-- With an empty baseline file the command reports that the mapping matches. -/
theorem empty_baseline_ok :
    ¬(PrintsOk (cmdScan none (checkFlags false) cleanRun sharedProc 7 fun _ => some []).1 0 →
      ∃ text d, Meets none (fun _ => some []) cleanRun sharedProc none 0 text d ∧
        baselineDigest text = some d) := by
  have hmeets : Meets none (fun _ => some []) cleanRun sharedProc none 0 []
      (Sha256.hexDigest (List.replicate 4096 0)) :=
    ⟨sharedEntry 0x10000, rfl, sharedProc_digest, rfl⟩
  have hnone (d : CStr) : baselineDigest [] ≠ some d := (Option.some_ne_none d).symm
  intro hok
  obtain ⟨text, d, hmeets', hd⟩ := hok
    ((cmdScan_check_ok_iff none false cleanRun sharedProc 7 _ 0).mpr
      ⟨[], _, hmeets, fun d hd => absurd hd (hnone d)⟩)
  obtain ⟨rfl, -⟩ := hmeets.unique hmeets'
  exact hnone d hd

end Anticheat
