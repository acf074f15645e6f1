import Anticheat.Foundation.CScan
import Mathlib.Data.List.TakeWhile

/-!
# Reading a file line by line through a small buffer

Calls of `fgets`, one after another, cut a text at its newlines and, where a line does
not fit the buffer, also inside the line.  For a reader that takes the first word of
every string it gets, the newlines themselves do not matter: it sees each line cut into
pieces of the size of the buffer.

Main results:

- Theorem {lit}`CStr.filterMap_fgetsAll`: what a reader that ignores a final newline
  sees of a whole file.
- Theorem {lit}`CStr.word_concat_newline`: the first word of a string is such a view.
-/

namespace Foundation
namespace CStr

/-- What `fgets` leaves of the file. -/
def fgetsRest (size : Nat) (text : List UInt8) : List UInt8 :=
  text.drop (min ((text.takeWhile fun c => c != 10).length + 1) (size - 1))

/-- The strings of at most `fuel` calls of `fgets`, up to the end of the file. -/
def fgetsLoop (size : Nat) : Nat → List UInt8 → List CStr
  | 0, _ => []
  | fuel + 1, text =>
      match fgets size text with
      | none => []
      | some line => line :: fgetsLoop size fuel (fgetsRest size text)

/-- The strings of all calls of `fgets` up to the end of the file; a call takes at least
one byte. -/
def fgetsAll (size : Nat) (text : List UInt8) : List CStr :=
  fgetsLoop size text.length text

/-- A line in pieces of `n` bytes.  The last piece may be shorter, and may be empty. -/
def pieces (n : Nat) (line : List UInt8) : List (List UInt8) :=
  (List.range (line.length / n + 1)).map fun k => (line.drop (n * k)).take n

/-- The bytes in front of the first NUL. -/
def cut (s : List UInt8) : CStr :=
  s.takeWhile fun c => c != 0

/-- The lines of a text, without their newlines.  Behind a final newline stands an empty
line. -/
def lines (text : List UInt8) : List (List UInt8) :=
  text.splitOnP fun c => c == 10

/-- The first word of a string, as far as it fits. -/
def word (width : Nat) (s : CStr) : Option CStr :=
  (scanWord width s).map Prod.fst

/-! ## Pieces of a line -/

theorem pieces_of_lt {n : Nat} {line : List UInt8} (h : line.length < n) :
    pieces n line = [line] := by
  rw [pieces, Nat.div_eq_of_lt h]
  simp [List.take_of_length_le h.le]

theorem pieces_nil {n : Nat} (hn : 0 < n) : pieces n [] = [[]] :=
  pieces_of_lt hn

theorem pieces_of_le {n : Nat} (hn : 0 < n) {line : List UInt8} (h : n ≤ line.length) :
    pieces n line = line.take n :: pieces n (line.drop n) := by
  have hcount : line.length / n = (line.length - n) / n + 1 := by
    rw [Nat.div_eq_sub_div hn h]
  rw [pieces, pieces, hcount, List.range_succ_eq_map, List.map_cons, List.map_map,
    List.length_drop]
  simp only [Nat.mul_zero, List.drop_zero, List.cons.injEq, true_and]
  apply List.map_congr_left
  intro k _
  simp only [Function.comp_apply, List.drop_drop, Nat.mul_succ]
  rw [Nat.add_comm]

/-! ## One call -/

theorem lines_newline {line : List UInt8} (hline : ∀ c ∈ line, c ≠ 10)
    (rest : List UInt8) : lines (line ++ 10 :: rest) = line :: lines rest := by
  apply List.splitOnP_append_cons_of_forall_mem
  · intro c hc
    simpa using hline c hc
  · rfl

theorem lines_last {line : List UInt8} (hline : ∀ c ∈ line, c ≠ 10) :
    lines line = [line] := by
  apply List.splitOnP_eq_singleton
  intro c hc
  simpa using hline c hc

@[simp]
theorem lines_nil : lines [] = [[]] :=
  rfl

/-- A text is one line, or one line and what follows its newline. -/
theorem line_cases (text : List UInt8) :
    ∃ line, (∀ c ∈ line, c ≠ 10) ∧ (text = line ∨ ∃ rest, text = line ++ 10 :: rest) := by
  refine ⟨text.takeWhile fun c => c != 10, ?_, ?_⟩
  · intro c hc
    simpa using List.mem_takeWhile_imp hc
  · have hsplit := List.takeWhile_append_dropWhile (p := fun c : UInt8 => c != 10) (l := text)
    cases hdrop : text.dropWhile fun c => c != 10 with
    | nil =>
        rw [hdrop, List.append_nil] at hsplit
        exact Or.inl hsplit.symm
    | cons c rest =>
        have hc : c = 10 := by
          have hhead := List.head_dropWhile_not (fun c : UInt8 => c != 10) (l := text) (by simp [hdrop])
          simpa [hdrop] using hhead
        rw [hdrop, hc] at hsplit
        exact Or.inr ⟨rest, hsplit.symm⟩

theorem takeWhile_line {line : List UInt8} (hline : ∀ c ∈ line, c ≠ 10) (rest : List UInt8) :
    (line ++ 10 :: rest).takeWhile (fun c => c != 10) = line := by
  rw [List.takeWhile_append_of_pos fun c hc => by simpa using hline c hc]
  simp

theorem takeWhile_last {line : List UInt8} (hline : ∀ c ∈ line, c ≠ 10) :
    line.takeWhile (fun c => c != 10) = line :=
  List.takeWhile_eq_self_iff.2 fun c hc => by simpa using hline c hc

/-- The first line of a text does not fit: what is left when a piece of it has been read
has the rest of the line as its first line. -/
theorem lines_long {n : Nat} {line text : List UInt8} (hline : ∀ c ∈ line, c ≠ 10)
    (htext : text = line ∨ ∃ rest, text = line ++ 10 :: rest) (hlong : n ≤ line.length) :
    (text.takeWhile fun c => c != 10) = line ∧ text.take n = line.take n ∧
      ∃ more, lines text = line :: more ∧ lines (text.drop n) = line.drop n :: more := by
  have hrest : ∀ c ∈ line.drop n, c ≠ 10 := fun c hc => hline c (List.mem_of_mem_drop hc)
  rcases htext with rfl | ⟨rest, rfl⟩
  · exact ⟨takeWhile_last hline, rfl, [], lines_last hline, lines_last hrest⟩
  · refine ⟨takeWhile_line hline rest, List.take_append_of_le_length hlong, lines rest,
      lines_newline hline rest, ?_⟩
    rw [List.drop_append_of_le_length hlong, lines_newline hrest]

/-- A call in front of a line that does not fit reads a piece of it. -/
theorem fgets_long {n : Nat} {text : List UInt8} (hn : 0 < n)
    (hlong : n ≤ (text.takeWhile fun c => c != 10).length) :
    fgets (n + 1) text = some (cut (text.take n)) ∧ fgetsRest (n + 1) text = text.drop n := by
  have hne : text ≠ [] := by
    rintro rfl
    simp at hlong
    omega
  have htake : min n ((text.takeWhile fun c => c != 10).length + 1) = n := by omega
  have hdrop : min ((text.takeWhile fun c => c != 10).length + 1) n = n := by omega
  constructor
  · simp [fgets, hne, List.take_take, htake, cut]
  · simp [fgetsRest, hdrop]

/-- A call in front of a line that fits reads the line with its newline. -/
theorem fgets_short {n : Nat} {line : List UInt8} (hline : ∀ c ∈ line, c ≠ 10)
    (hshort : line.length < n) (rest : List UInt8) :
    fgets (n + 1) (line ++ 10 :: rest) = some (cut (line ++ [10])) ∧
      fgetsRest (n + 1) (line ++ 10 :: rest) = rest := by
  have htake : (line ++ 10 :: rest).take (line.length + 1) = line ++ [10] := by
    rw [List.take_length_add_append]
    rfl
  have hdrop : (line ++ 10 :: rest).drop (line.length + 1) = rest := by
    rw [List.drop_length_add_append]
    rfl
  have hfit : (line ++ [10]).length ≤ n := by simpa using hshort
  constructor
  · simp only [fgets, takeWhile_line hline, htake, Nat.add_sub_cancel,
      List.take_of_length_le hfit, cut]
    simp
  · rw [fgetsRest, takeWhile_line hline, Nat.add_sub_cancel, Nat.min_eq_left hshort, hdrop]

/-- A call in front of a last line that fits reads it. -/
theorem fgets_last {n : Nat} {line : List UInt8} (hline : ∀ c ∈ line, c ≠ 10)
    (hshort : line.length < n) (hne : line ≠ []) :
    fgets (n + 1) line = some (cut line) ∧ fgetsRest (n + 1) line = [] := by
  have hwhole : line.take (line.length + 1) = line := List.take_of_length_le (by omega)
  constructor
  · simp [fgets, hne, takeWhile_last hline, hwhole, List.take_of_length_le hshort.le, cut]
  · rw [fgetsRest, takeWhile_last hline]
    exact List.drop_eq_nil_of_le (by omega)

/-! ## A whole file -/

variable {β : Type} {view : List UInt8 → Option β}

/-- The pieces of the lines are seen in order, whatever the alignment of the lines. -/
theorem filterMap_fgetsLoop {n : Nat} (hn : 0 < n) (hnil : view [] = none)
    (hview : ∀ s, view (cut (s ++ [10])) = view (cut s)) {fuel : Nat} {text : List UInt8}
    (hfuel : text.length ≤ fuel) :
    (fgetsLoop (n + 1) fuel text).filterMap view =
      (lines text).flatMap fun line => (pieces n line).filterMap fun s => view (cut s) := by
  induction fuel generalizing text with
  | zero =>
      have htext : text = [] := List.eq_nil_of_length_eq_zero (by omega)
      subst htext
      simp [fgetsLoop, pieces_nil hn, cut, hnil]
  | succ fuel ih =>
      rcases line_cases text with ⟨line, hline, htext⟩
      -- the first line is longer than the buffer, or the call takes it whole
      by_cases hlong : n ≤ line.length
      · rcases lines_long hline htext hlong with ⟨hfirst, htake, more, hlines, hleftLines⟩
        rcases fgets_long hn (by rw [hfirst]; exact hlong) with ⟨hget, hleft⟩
        have hlength : (text.drop n).length ≤ fuel := by
          rw [List.length_drop]
          omega
        rw [hlines, List.flatMap_cons, pieces_of_le hn hlong, List.filterMap_cons]
        simp only [fgetsLoop, hget, hleft, List.filterMap_cons, ih hlength, htake]
        rw [hleftLines, List.flatMap_cons]
        cases view (cut (line.take n)) <;> rfl
      · have hshort : line.length < n := by omega
        rcases htext with rfl | ⟨rest, rfl⟩
        · by_cases hne : text = []
          · subst hne
            simp [fgetsLoop, fgets, pieces_nil hn, cut, hnil]
          · rcases fgets_last hline hshort hne with ⟨hget, hleft⟩
            have hend : fgetsLoop (n + 1) fuel [] = [] := by cases fuel <;> rfl
            simp only [fgetsLoop, hget, hleft, hend, lines_last hline, List.flatMap_cons,
              pieces_of_lt hshort, List.filterMap_cons, List.filterMap_nil, List.flatMap_nil,
              List.append_nil]
        · rcases fgets_short hline hshort rest with ⟨hget, hleft⟩
          have hlength : rest.length ≤ fuel := by
            rw [List.length_append, List.length_cons] at hfuel
            omega
          rw [lines_newline hline, List.flatMap_cons, pieces_of_lt hshort]
          simp only [fgetsLoop, hget, hleft, List.filterMap_cons, hview, ih hlength,
            List.filterMap_nil]
          cases view (cut line) <;> rfl

theorem filterMap_fgetsAll {n : Nat} (hn : 0 < n) (hnil : view [] = none)
    (hview : ∀ s, view (cut (s ++ [10])) = view (cut s)) (text : List UInt8) :
    (fgetsAll (n + 1) text).filterMap view =
      (lines text).flatMap fun line => (pieces n line).filterMap fun s => view (cut s) :=
  filterMap_fgetsLoop hn hnil hview le_rfl

/-! ## First words -/

/-- White space behind a string does not change its first word. -/
theorem word_concat (width : Nat) (s : CStr) {c : UInt8} (hc : isSpace c = true) :
    word width (s ++ [c]) = word width s := by
  have hskip : (skipSpaces (s ++ [c])).takeWhile (fun c => !isSpace c) =
      (skipSpaces s).takeWhile fun c => !isSpace c := by
    rw [skipSpaces, skipSpaces, List.dropWhile_append]
    split
    · rename_i hempty
      rw [List.isEmpty_iff.1 hempty]
      simp [hc]
    · rw [List.takeWhile_append]
      split
      · rename_i hall
        have hself := (List.takeWhile_sublist fun c => !isSpace c).eq_of_length hall
        simp [hc, hself]
      · rfl
  simp only [word, scanWord, hskip]
  split <;> rfl

theorem word_concat_newline (width : Nat) (s : List UInt8) :
    word width (cut (s ++ [10])) = word width (cut s) := by
  unfold cut
  rw [List.takeWhile_append]
  split
  · rename_i hall
    rw [(List.takeWhile_sublist fun c : UInt8 => c != 0).eq_of_length hall]
    exact word_concat width s rfl
  · rfl

end CStr
end Foundation
