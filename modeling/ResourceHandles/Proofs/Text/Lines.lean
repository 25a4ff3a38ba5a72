import ResourceHandles.Proofs.Text.Tokens
import ResourceHandles.Text.Line

/-!
# The lines of a text

A text that starts with a line is that line and the lines of the rest, whichever of the
two line ends stands between them.  The carriage return that belongs to a line end is a
blank, so trimming a line does not show whether it was there.
-/

namespace ResourceHandles.Text

/-- A line feed, with or without a carriage return before it. -/
inductive LineEnd : List Char → Prop where
  | feed : LineEnd ['\n']
  | returnFeed : LineEnd ['\r', '\n']

theorem linesFrom_append
    {line : List Char} (hline : '\n' ∉ line) (reversed rest : List Char) :
    linesFrom reversed (line ++ '\n' :: rest) =
      dropFinalReturn (reversed.reverse ++ line) :: linesFrom [] rest := by
  induction line generalizing reversed with
  | nil => simp [linesFrom]
  | cons c line ih =>
      rw [List.mem_cons, not_or] at hline
      rw [List.cons_append, linesFrom, if_neg (Ne.symm hline.1), ih hline.2]
      simp

theorem lines_append
    {line : List Char} (hline : '\n' ∉ line) (rest : List Char) :
    lines (line ++ '\n' :: rest) = dropFinalReturn line :: lines rest :=
  linesFrom_append hline [] rest

theorem dropTrailingBlanks_append
    (text : List Char) {after : List Char} (hafter : Blanks after) :
    dropTrailingBlanks (text ++ after) = dropTrailingBlanks text := by
  unfold dropTrailingBlanks
  rw [List.reverse_append, List.dropWhile_append_of_pos (blanks_reverse.mpr hafter)]

theorem trim_append_of_blanks
    (text : List Char) {after : List Char} (hafter : Blanks after) :
    trim (text ++ after) = trim text := by
  unfold trim skipBlanks
  rw [List.dropWhile_append]
  split
  · next hempty =>
      rw [List.isEmpty_iff.mp hempty, List.dropWhile_eq_nil_iff.mpr hafter]
  · exact dropTrailingBlanks_append _ hafter

theorem trim_dropFinalReturn (line : List Char) :
    trim (dropFinalReturn line) = trim line := by
  unfold dropFinalReturn
  split
  · next hlast =>
      obtain ⟨front, rfl⟩ := List.getLast?_eq_some_iff.mp hlast
      rw [List.dropLast_concat]
      exact (trim_append_of_blanks front (by simp [isBlank])).symm
  · rfl

/-- Up to trimming, a text that starts with an ended line has this line first. -/
theorem lines_append_lineEnd
    {line ending : List Char} (hline : '\n' ∉ line) (hending : LineEnd ending)
    (rest : List Char) :
    ∃ first, lines (line ++ ending ++ rest) = first :: lines rest ∧ trim first = trim line := by
  cases hending with
  | feed =>
      refine ⟨dropFinalReturn line, ?_, trim_dropFinalReturn line⟩
      rw [List.append_assoc]
      exact lines_append hline rest
  | returnFeed =>
      refine ⟨dropFinalReturn (line ++ ['\r']), ?_, ?_⟩
      · have hlonger : '\n' ∉ line ++ ['\r'] := by simp [hline]
        simpa using lines_append hlonger rest
      · rw [trim_dropFinalReturn, trim_append_of_blanks line (by simp [isBlank])]

end ResourceHandles.Text
