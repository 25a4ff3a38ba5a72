import ResourceHandles.Manifest.TypeExpr
import ResourceHandles.Proofs.Text.Tokens
import Mathlib.Tactic

/-!
# The texts of a type

A type text is a base word with any number of brackets behind it, each pair
after any number of blanks.  Reading takes the brackets off from the right and
trims at every level, while the grammar puts them on from the left; the two
meet in the number of brackets and in the base word that is left.
-/

namespace ResourceHandles

open Text

/-- The texts that denote a type. -/
inductive TypeText : List Char → TypeExpr → Prop where
  | int : TypeText "int".toList .int
  | string : TypeText "string".toList .string
  | nil : TypeText "nil".toList .nil
  | list {text gap : List Char} {element : TypeExpr}
      (htext : TypeText text element) (hgap : Blanks gap) :
      TypeText (text ++ gap ++ ['[', ']']) (.list element)

/-! ## Base words -/

theorem TypeExpr.typeText_of_ofWord?
    {word : String} {base : TypeExpr}
    (hword : TypeExpr.ofWord? word = some base) :
    TypeText word.toList base := by
  unfold TypeExpr.ofWord? at hword
  split at hword
  next heq =>
    subst heq
    obtain rfl := Option.some.inj hword
    exact .int
  next =>
    split at hword
    next heq =>
      subst heq
      obtain rfl := Option.some.inj hword
      exact .string
    next =>
      split at hword
      next heq =>
        subst heq
        obtain rfl := Option.some.inj hword
        exact .nil
      next => simp at hword

/-! ## From reading to the grammar -/

theorem TypeExpr.splitBrackets_pair (rest : List Char) :
    splitBrackets (']' :: '[' :: rest) =
      ((splitBrackets rest).1 + 1, (splitBrackets rest).2) := rfl

theorem TypeExpr.splitBrackets_cons
    {c : Char} {rest : List Char}
    (hpair : ∀ tail, c = ']' → rest = '[' :: tail → False) :
    splitBrackets (c :: rest) =
      if isBlank c then splitBrackets rest else (0, c :: rest) := by
  rw [splitBrackets.eq_def]
  split
  · next tail heq =>
      cases heq
      exact (hpair tail rfl rfl).elim
  · next heq =>
      cases heq
      rfl
  · next heq => cases heq

/-- If what stands before the brackets is a type text between blanks, so is the
whole text. -/
theorem TypeExpr.typeText_of_splitBrackets
    (reversed : List Char) {base : TypeExpr}
    {before core after : List Char}
    (hword : (splitBrackets reversed).2.reverse = before ++ core ++ after)
    (hafter : Blanks after)
    (hcore : TypeText core base) :
    ∃ core' after', reversed.reverse = before ++ core' ++ after' ∧
      Blanks after' ∧
      TypeText core' (nested base (splitBrackets reversed).1) := by
  induction reversed using splitBrackets.induct with
  | case1 rest ih =>
      rw [splitBrackets_pair] at hword ⊢
      obtain ⟨inner, gap, hsplit, hgap, hinner⟩ := ih hword
      refine ⟨inner ++ gap ++ ['[', ']'], [], ?_, blanks_nil, .list hinner hgap⟩
      simp [hsplit]
  | case2 c rest hbrackets hblank ih =>
      have hskip :
          splitBrackets (c :: rest) = splitBrackets rest := by
        rw [splitBrackets_cons hbrackets]
        simp [hblank]
      rw [hskip] at hword ⊢
      obtain ⟨inner, gap, hsplit, hgap, hinner⟩ := ih hword
      refine ⟨inner, gap ++ [c], ?_, ?_, hinner⟩
      · simp [hsplit]
      · simp [hgap, hblank]
  | case3 c rest hbrackets hblank =>
      have hstop : splitBrackets (c :: rest) = (0, c :: rest) := by
        rw [splitBrackets_cons hbrackets]
        simp [hblank]
      rw [hstop] at hword ⊢
      exact ⟨core, after, hword, hafter, hcore⟩
  | case4 =>
      exact ⟨core, after, hword, hafter, hcore⟩

/-! ## From the grammar to reading -/

theorem TypeExpr.splitBrackets_append_of_blanks
    {gap : List Char} (hgap : Blanks gap) (reversed : List Char) :
    splitBrackets (gap ++ reversed) = splitBrackets reversed := by
  induction gap with
  | nil => rfl
  | cons c gap ih =>
      rw [blanks_cons] at hgap
      have hbracket : ∀ rest, c = ']' → gap ++ reversed = '[' :: rest → False := by
        intro rest hc
        subst hc
        simp [isBlank] at hgap
      rw [List.cons_append, splitBrackets_cons hbracket, if_pos hgap.1, ih hgap.2]

theorem TypeExpr.splitBrackets_of_word
    {word : String} {base : TypeExpr}
    (hword : TypeExpr.ofWord? word = some base)
    (hfirst : ∃ c rest, word.toList = c :: rest ∧ isBlank c = false)
    (hlast : ∃ c rest, word.toList.reverse = c :: rest ∧
      isBlank c = false ∧ c ≠ ']')
    {before after : List Char} (hbefore : Blanks before) (hafter : Blanks after) :
    ∃ base' depth reversed,
      splitBrackets (before ++ word.toList ++ after).reverse = (depth, reversed) ∧
      ofWord? (String.ofList (trim reversed.reverse)) = some base' ∧
      base = nested base' depth := by
  obtain ⟨first, rest, hhead, hfirstBlank⟩ := hfirst
  obtain ⟨last, rest', hback, hlastBlank, hlastBracket⟩ := hlast
  refine ⟨base, 0, (before ++ word.toList).reverse, ?_, ?_, rfl⟩
  · rw [List.reverse_append,
      splitBrackets_append_of_blanks (blanks_reverse.mpr hafter),
      List.reverse_append, hback, List.cons_append, splitBrackets_cons]
    · simp [hlastBlank]
    · intro tail heq
      exact (hlastBracket heq).elim
  · have htrim : trim (before ++ word.toList ++ []) = word.toList := by
      apply trim_append hbefore blanks_nil
      · rw [hhead]
        exact stopsAt_cons.mpr hfirstBlank
      · rw [hback]
        exact stopsAt_cons.mpr hlastBlank
    rw [List.append_nil] at htrim
    rw [List.reverse_reverse, htrim, String.ofList_toList]
    exact hword

theorem TypeText.exists_splitBrackets
    {before core : List Char} {type : TypeExpr}
    (hbefore : Blanks before) (hcore : TypeText core type)
    {after : List Char} (hafter : Blanks after) :
    ∃ base depth word,
      TypeExpr.splitBrackets (before ++ core ++ after).reverse = (depth, word) ∧
      TypeExpr.ofWord? (String.ofList (trim word.reverse)) = some base ∧
      type = TypeExpr.nested base depth := by
  induction hcore generalizing after with
  | int =>
      exact TypeExpr.splitBrackets_of_word rfl
        ⟨_, _, rfl, by decide⟩ ⟨_, _, rfl, by decide⟩ hbefore hafter
  | string =>
      exact TypeExpr.splitBrackets_of_word rfl
        ⟨_, _, rfl, by decide⟩ ⟨_, _, rfl, by decide⟩ hbefore hafter
  | nil =>
      exact TypeExpr.splitBrackets_of_word rfl
        ⟨_, _, rfl, by decide⟩ ⟨_, _, rfl, by decide⟩ hbefore hafter
  | list htext hgap ih =>
      obtain ⟨base, depth, word, hsplit, hword, htype⟩ := ih hgap
      refine ⟨base, depth + 1, word, ?_, hword, ?_⟩
      · simp only [List.reverse_append] at hsplit ⊢
        rw [TypeExpr.splitBrackets_append_of_blanks (blanks_reverse.mpr hafter)]
        simp only [List.reverse_cons, List.reverse_nil, List.nil_append,
          List.cons_append, List.append_assoc]
        rw [TypeExpr.splitBrackets_pair, hsplit]
      · rw [htype]
        rfl

/-- Reading a text gives a type exactly if the text is one of the type's texts
between blanks. -/
theorem TypeExpr.parse_eq_ok_iff {text : List Char} {type : TypeExpr} :
    TypeExpr.parse text = .ok type ↔
      ∃ before core after, text = before ++ core ++ after ∧
        Blanks before ∧ TypeText core type ∧ Blanks after := by
  unfold TypeExpr.parse
  constructor
  · intro hparse
    simp only at hparse
    split at hparse
    next base hbase =>
      obtain rfl := Except.ok.inj hparse
      obtain ⟨before, after, hword, hbefore, hafter⟩ :=
        exists_eq_append_trim (splitBrackets text.reverse).2.reverse
      have hcore := typeText_of_ofWord? hbase
      rw [String.toList_ofList] at hcore
      obtain ⟨core, gap, hsplit, hgap, htype⟩ :=
        typeText_of_splitBrackets text.reverse hword hafter hcore
      rw [List.reverse_reverse] at hsplit
      exact ⟨before, core, gap, hsplit, hbefore, htype, hgap⟩
    next => simp at hparse
  · rintro ⟨before, core, after, rfl, hbefore, hcore, hafter⟩
    obtain ⟨base, depth, word, hsplit, hword, rfl⟩ :=
      hcore.exists_splitBrackets hbefore hafter
    rw [hsplit]
    simp only
    rw [hword]

end ResourceHandles
