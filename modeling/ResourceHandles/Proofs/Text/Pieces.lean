import ResourceHandles.Text.Split
import Mathlib.Tactic

/-!
# Pieces of a text

The pieces of a text contain no separator, and joining them gives the text back.  What is
put behind a text or taken away from its end changes the last piece only, as long as no
separator is involved.
-/

namespace ResourceHandles.Text

variable {separator : Char} {text last : List Char} {front pieces : List (List Char)}

/-! ## Splitting at every separator -/

theorem splitOn_ne_nil (separator : Char) (text : List Char) : splitOn separator text ≠ [] := by
  cases text with
  | nil => simp [splitOn]
  | cons c rest =>
      rw [splitOn]
      split
      · simp
      · split
        · simp
        · simp

theorem splitOn_eq (separator : Char) (text : List Char) :
    splitOn separator text = text.splitOn separator := by
  rw [List.splitOn_eq_splitOnP]
  induction text with
  | nil => rfl
  | cons c rest ih =>
      rw [splitOn, List.splitOnP_cons_eq_if_modifyHead]
      by_cases hseparator : c = separator
      · rw [if_pos hseparator, if_pos (by simpa using hseparator), ih]
      · rw [if_neg hseparator, if_neg (by simpa using hseparator), ← ih]
        cases hrest : splitOn separator rest with
        | nil => exact absurd hrest (splitOn_ne_nil separator rest)
        | cons piece pieces => rfl

theorem joinWith_splitOn (separator : Char) (text : List Char) :
    joinWith separator (splitOn separator text) = text := by
  rw [splitOn_eq]
  exact List.intercalate_splitOn separator

theorem splitOn_joinWith
    (hpieces : ∀ piece ∈ pieces, separator ∉ piece) (hne : pieces ≠ []) :
    splitOn separator (joinWith separator pieces) = pieces := by
  rw [splitOn_eq]
  exact List.splitOn_intercalate separator hpieces hne

theorem notMem_of_mem_splitOn {piece : List Char} (hmem : piece ∈ splitOn separator text) :
    separator ∉ piece := by
  induction text generalizing piece with
  | nil =>
      rw [List.mem_singleton.mp hmem]
      exact List.not_mem_nil
  | cons c rest ih =>
      rw [splitOn] at hmem
      split at hmem
      · rcases List.mem_cons.mp hmem with rfl | hrest
        · exact List.not_mem_nil
        · exact ih hrest
      · next hne =>
          split at hmem
          · rw [List.mem_singleton.mp hmem, List.mem_singleton]
            exact Ne.symm hne
          · next first others hsplit =>
              rw [hsplit] at ih
              rcases List.mem_cons.mp hmem with rfl | hrest
              · rw [List.mem_cons, not_or]
                exact ⟨Ne.symm hne, ih List.mem_cons_self⟩
              · exact ih (List.mem_cons_of_mem _ hrest)

/-- What stands behind the last piece belongs to it. -/
theorem joinWith_concat (separator : Char) (front : List (List Char)) (last more : List Char) :
    joinWith separator (front ++ [last ++ more]) =
      joinWith separator (front ++ [last]) ++ more := by
  unfold joinWith
  induction front with
  | nil => simp
  | cons piece front ih =>
      rw [List.cons_append, List.cons_append, List.intercalate_cons_of_ne_nil (by simp),
        List.intercalate_cons_of_ne_nil (by simp), ih, List.append_assoc _ _ more]

/-- A text ends with its last piece, and another piece may take the place of it. -/
theorem exists_of_splitOn (hsplit : splitOn separator text = front ++ [last]) :
    ∃ before, text = before ++ last ∧
      ∀ other, separator ∉ other → splitOn separator (before ++ other) = front ++ [other] := by
  refine ⟨joinWith separator (front ++ [[]]), ?_, ?_⟩
  · rw [← joinWith_concat, List.nil_append, ← hsplit, joinWith_splitOn]
  · intro other hother
    rw [← joinWith_concat, List.nil_append]
    apply splitOn_joinWith
    · intro piece hmem
      rcases List.mem_append.mp hmem with hfront | hlast
      · apply notMem_of_mem_splitOn
        rw [hsplit]
        exact List.mem_append_left _ hfront
      · rw [List.mem_singleton.mp hlast]
        exact hother
    · simp

/-- A text of several pieces of which the last is empty ends with a separator. -/
theorem getLast?_joinWith (separator : Char) (hne : front ≠ []) :
    (joinWith separator (front ++ [[]])).getLast? = some separator := by
  unfold joinWith
  induction front with
  | nil => exact absurd rfl hne
  | cons piece front ih =>
      rw [List.cons_append, List.intercalate_cons_of_ne_nil (by simp)]
      cases front with
      | nil => simp
      | cons next front =>
          rw [List.getLast?_append, ih (by simp)]
          rfl

/-! ## Splitting at the last separator -/

theorem splitAtLast?_eq_none_iff : splitAtLast? separator text = none ↔ separator ∉ text := by
  induction text with
  | nil => simp [splitAtLast?]
  | cons c rest ih =>
      rw [splitAtLast?, List.mem_cons, not_or, ← ih]
      cases splitAtLast? separator rest with
      | none => simp [eq_comm]
      | some parts => simp

theorem splitAtLast?_append {before after : List Char} (hafter : separator ∉ after) :
    splitAtLast? separator (before ++ separator :: after) = some (before, after) := by
  induction before with
  | nil =>
      rw [List.nil_append, splitAtLast?, splitAtLast?_eq_none_iff.mpr hafter]
      simp
  | cons c before ih => rw [List.cons_append, splitAtLast?, ih]

theorem splitAtLast?_eq_some {before after : List Char}
    (hsplit : splitAtLast? separator text = some (before, after)) :
    text = before ++ separator :: after ∧ separator ∉ after := by
  induction text generalizing before with
  | nil => cases hsplit
  | cons c rest ih =>
      rw [splitAtLast?] at hsplit
      split at hsplit
      · next front back hrest =>
          cases hsplit
          obtain ⟨rfl, hafter⟩ := ih hrest
          exact ⟨rfl, hafter⟩
      · next hrest =>
          split at hsplit
          · next hseparator =>
              cases hsplit
              rw [hseparator, List.nil_append]
              exact ⟨rfl, splitAtLast?_eq_none_iff.mp hrest⟩
          · cases hsplit

end ResourceHandles.Text
