import ResourceHandles.Manifest.Shape
import ResourceHandles.Proofs.Text.Numeral
import Mathlib.Tactic

/-!
# The texts of a shape

A shape is found in a text exactly if the text is the shape written down with
blanks in the places where they are allowed.  Type texts and digits are still
unread here: a type text is whatever stands between the colon of a group and
the next round bracket, blanks included.
-/

namespace ResourceHandles

open Text

/-! ## Groups -/

/-- A group written down: blanks may stand behind the bracket, and on both
sides of the colon. -/
def Group.IsSpelled (group : Group) (text : List Char) : Prop :=
  ∃ gap name gap', text =
      '(' :: (gap ++ (name ++ (gap' ++ ':' :: (group.typeText ++ [')'])))) ∧
    Blanks gap ∧ IsName name ∧ Blanks gap' ∧
    group.name = String.ofList name ∧
    group.typeText ≠ [] ∧ ∀ c ∈ group.typeText, isTypeChar c = true

theorem stopsAt_isBlank_of_isName
    {name : List Char} (hname : IsName name) (rest : List Char) :
    StopsAt isBlank (name ++ rest) := by
  obtain ⟨c, tail, rfl, hstart, -⟩ := hname
  exact stopsAt_cons.mpr (isBlank_eq_false_of_isNameStart hstart)

theorem takeGroup?_eq_some_iff
    {text rest : List Char} {group : Group} :
    takeGroup? text = some (group, rest) ↔
      ∃ spelled, text = spelled ++ rest ∧ group.IsSpelled spelled := by
  simp only [takeGroup?, Option.bind_eq_bind, Option.bind_eq_some_iff]
  constructor
  · rintro ⟨inner, hinner, ⟨name, afterName⟩, hname, typed, htyped, after,
      hafter, hgroup⟩
    dsimp only at htyped
    split at hgroup
    next => simp at hgroup
    next hne =>
      obtain ⟨rfl, rfl⟩ := Prod.mk.inj (Option.some.inj hgroup)
      rw [dropChar?_eq_some_iff] at hinner htyped hafter
      obtain ⟨hnamed, hisName, -⟩ := takeName?_eq_some_iff.mp hname
      obtain ⟨gap, hgapSplit, hgap, -⟩ := skipBlanks_eq_iff.mp hnamed
      obtain ⟨gap', hgapSplit', hgap', -⟩ := skipBlanks_eq_iff.mp htyped
      obtain ⟨htype, htypeChars, -⟩ :=
        takeWhile_dropWhile_eq_iff.mp ⟨rfl, hafter⟩
      refine ⟨_, ?_, gap, name, gap', rfl, hgap, hisName, hgap', rfl, ?_,
        htypeChars⟩
      · rw [hinner, hgapSplit, hgapSplit']
        nth_rewrite 1 [htype]
        simp
      · simpa using hne
  · rintro ⟨spelled, rfl, gap, name, gap', rfl, hgap, hisName, hgap', hname,
      hne, htypeChars⟩
    obtain ⟨groupName, typeText⟩ := group
    dsimp only at hname hne htypeChars ⊢
    subst hname
    have hcolon :
        StopsAt isNameChar (gap' ++ ':' :: (typeText ++ ')' :: rest)) :=
      stopsAt_append_of_blanks
        (fun c hblank => isNameChar_eq_false_of_isBlank hblank)
        hgap' (stopsAt_cons.mpr (by decide))
    have hbracket : StopsAt isTypeChar (')' :: rest) :=
      stopsAt_cons.mpr (by decide)
    obtain ⟨htake, hdrop⟩ :=
      takeWhile_append_of_stopsAt htypeChars hbracket
    refine ⟨gap ++ (name ++ (gap' ++ ':' :: (typeText ++ ')' :: rest))),
      dropChar?_eq_some_iff.mpr (by simp),
      (name, gap' ++ ':' :: (typeText ++ ')' :: rest)), ?_,
      typeText ++ ')' :: rest, ?_, rest, ?_, ?_⟩
    · rw [skipBlanks_append hgap (stopsAt_isBlank_of_isName hisName _)]
      exact takeName?_eq_some_iff.mpr ⟨rfl, hisName, hcolon⟩
    · dsimp only
      rw [skipBlanks_append hgap' (stopsAt_cons.mpr (by decide))]
      exact dropChar?_eq_some_iff.mpr rfl
    · rw [hdrop]
      exact dropChar?_eq_some_iff.mpr rfl
    · rw [htake]
      simp [hne]

/-! ## Rows of groups -/

/-- A row of groups written down, with blanks before, between and behind
them. -/
inductive GroupsText : List Char → List Group → Prop where
  | nil {gap : List Char} (hgap : Blanks gap) : GroupsText gap []
  | cons {gap spelled rest : List Char} {group : Group} {groups : List Group}
      (hgap : Blanks gap) (hgroup : group.IsSpelled spelled)
      (hrest : GroupsText rest groups) :
      GroupsText (gap ++ (spelled ++ rest)) (group :: groups)

theorem GroupsText.blank_cons
    {c : Char} {text : List Char} {groups : List Group}
    (hblank : isBlank c = true) (hgroups : GroupsText text groups) :
    GroupsText (c :: text) groups := by
  cases hgroups with
  | nil hgap => exact .nil (blanks_cons.mpr ⟨hblank, hgap⟩)
  | @cons gap spelled rest group groups hgap hgroup hrest =>
      rw [← List.cons_append]
      exact .cons (blanks_cons.mpr ⟨hblank, hgap⟩) hgroup hrest

theorem takeGroup?_of_isBlank
    {c : Char} {tail : List Char} (hblank : isBlank c = true) :
    takeGroup? (c :: tail) = none := by
  have hbracket : c ≠ '(' := by
    rintro rfl
    simp [isBlank] at hblank
  simp [takeGroup?, dropChar?, hbracket]

theorem splitGroups_of_takeGroup?
    {text rest : List Char} {group : Group}
    (htake : takeGroup? text = some (group, rest)) :
    splitGroups text =
      (group :: (splitGroups rest).1, (splitGroups rest).2) := by
  cases text with
  | nil => simp [takeGroup?, dropChar?] at htake
  | cons c tail =>
      rw [splitGroups]
      split
      next found after hfound =>
        rw [htake] at hfound
        obtain ⟨rfl, rfl⟩ := Prod.mk.inj (Option.some.inj hfound)
        rfl
      next hnone =>
        rw [htake] at hnone
        contradiction

theorem splitGroups_of_takeGroup?_eq_none
    {c : Char} {tail : List Char} (htake : takeGroup? (c :: tail) = none) :
    splitGroups (c :: tail) =
      ((splitGroups tail).1, c :: (splitGroups tail).2) := by
  rw [splitGroups]
  split
  next found after hfound =>
    rw [htake] at hfound
    contradiction
  next => rfl

/-- The search for groups leaves nothing but blanks over exactly if the text is
a row of groups, and then it finds that row. -/
theorem splitGroups_blanks_iff {text : List Char} {groups : List Group} :
    (splitGroups text).1 = groups ∧ Blanks (splitGroups text).2 ↔
      GroupsText text groups := by
  constructor
  · rintro ⟨rfl, hstray⟩
    induction text using splitGroups.induct with
    | case1 =>
        rw [splitGroups]
        exact .nil blanks_nil
    | case2 c tail group rest htake _ _ _ ih =>
        rw [splitGroups_of_takeGroup? htake] at hstray ⊢
        obtain ⟨spelled, hsplit, hgroup⟩ := takeGroup?_eq_some_iff.mp htake
        rw [hsplit]
        exact .cons blanks_nil hgroup (ih hstray)
    | case3 c tail htake _ _ _ ih =>
        rw [splitGroups_of_takeGroup?_eq_none htake] at hstray ⊢
        rw [blanks_cons] at hstray
        exact (ih hstray.2).blank_cons hstray.1
  · intro hgroups
    have hskip :
        ∀ gap rest, Blanks gap →
          (splitGroups (gap ++ rest)).1 = (splitGroups rest).1 ∧
            (Blanks (splitGroups (gap ++ rest)).2 ↔
              Blanks (splitGroups rest).2) := by
      intro gap rest hgap
      induction gap with
      | nil => exact ⟨rfl, Iff.rfl⟩
      | cons c gap ih =>
          rw [blanks_cons] at hgap
          rw [List.cons_append,
            splitGroups_of_takeGroup?_eq_none (takeGroup?_of_isBlank hgap.1)]
          simpa [hgap.1] using ih hgap.2
    induction hgroups with
    | @nil gap hgap =>
        have hempty := hskip gap [] hgap
        rw [List.append_nil] at hempty
        rw [hempty.1, hempty.2, splitGroups]
        exact ⟨rfl, blanks_nil⟩
    | @cons gap spelled rest group groups hgap hgroup hrest ih =>
        have htake : takeGroup? (spelled ++ rest) = some (group, rest) :=
          takeGroup?_eq_some_iff.mpr ⟨spelled, rfl, hgroup⟩
        rw [(hskip gap (spelled ++ rest) hgap).1,
          (hskip gap (spelled ++ rest) hgap).2,
          splitGroups_of_takeGroup? htake]
        exact ⟨congrArg (group :: ·) ih.1, ih.2⟩

/-! ## Constants -/

theorem takeSign_signText
    {negative : Bool} {digits : List Char} (hne : digits ≠ [])
    (hdigits : ∀ c ∈ digits, isDecimalDigit c = true) (rest : List Char) :
    takeSign (signText negative ++ (digits ++ rest)) =
      (negative, digits ++ rest) := by
  cases negative with
  | true => rfl
  | false =>
      cases digits with
      | nil => exact (hne rfl).elim
      | cons c tail =>
          have hdigit : isDecimalDigit c = true := hdigits c (by simp)
          have hminus : c ≠ '-' := by
            rintro rfl
            revert hdigit
            decide
          simp [signText, takeSign, hminus]

theorem stopsAt_isBlank_of_digits
    (negative : Bool) {digits : List Char} (hne : digits ≠ [])
    (hdigits : ∀ c ∈ digits, isDecimalDigit c = true) (rest : List Char) :
    StopsAt isBlank (signText negative ++ (digits ++ rest)) := by
  cases negative with
  | true => exact stopsAt_cons.mpr (by decide)
  | false =>
      cases digits with
      | nil => exact (hne rfl).elim
      | cons c tail =>
          apply stopsAt_cons.mpr
          by_contra hblank
          have hnot := isDecimalDigit_eq_false_of_isBlank
            (c := c) (by simpa using hblank)
          rw [hdigits c (by simp)] at hnot
          contradiction

theorem eq_signText_append (text : List Char) :
    text = signText (takeSign text).1 ++ (takeSign text).2 := by
  unfold takeSign signText
  split <;> rfl

theorem constantShape?_eq_some_iff
    {text : List Char} {shape : ConstantShape} :
    constantShape? text = some shape ↔
      ∃ gap name gap' gap'', text = "(def".toList ++ (gap ++ (name ++
          (gap' ++ (signText shape.negative ++
            (shape.digits ++ (gap'' ++ [')'])))))) ∧
        gap ≠ [] ∧ Blanks gap ∧ IsName name ∧
        gap' ≠ [] ∧ Blanks gap' ∧ Blanks gap'' ∧
        shape.name = String.ofList name ∧
        shape.digits ≠ [] ∧ ∀ c ∈ shape.digits, isDecimalDigit c = true := by
  simp only [constantShape?, Option.bind_eq_bind, Option.bind_eq_some_iff]
  constructor
  · rintro ⟨afterWord, hword, named, hnamed, ⟨name, afterName⟩, hname,
      numbered, hnumbered, hshape⟩
    dsimp only at hnumbered hshape
    split at hshape
    next => simp at hshape
    next hne =>
      split at hshape
      next hend =>
        obtain rfl := Option.some.inj hshape
        obtain ⟨gap, hgapSplit, hgapNe, hgap, -⟩ :=
          skipSomeBlanks?_eq_some_iff.mp hnamed
        obtain ⟨hnameSplit, hisName, -⟩ := takeName?_eq_some_iff.mp hname
        obtain ⟨gap', hgapSplit', hgapNe', hgap', -⟩ :=
          skipSomeBlanks?_eq_some_iff.mp hnumbered
        obtain ⟨hdigitSplit, hdigits, -⟩ :=
          (takeWhile_dropWhile_eq_iff (p := isDecimalDigit)).mp ⟨rfl, rfl⟩
        obtain ⟨gap'', hgapSplit'', hgap'', -⟩ := skipBlanks_eq_iff.mp hend
        have hnumeral :
            numbered = signText (takeSign numbered).1 ++
              ((takeSign numbered).2.takeWhile isDecimalDigit ++
                (gap'' ++ [')'])) := by
          rw [← hgapSplit'', ← hdigitSplit]
          exact eq_signText_append numbered
        refine ⟨gap, name, gap', gap'', ?_, hgapNe, hgap, hisName, hgapNe',
          hgap', hgap'', rfl, by simpa using hne, hdigits⟩
        dsimp only
        rw [← hnumeral, ← hgapSplit', ← hnameSplit, ← hgapSplit]
        exact dropWord?_eq_some_iff.mp hword
      next => simp at hshape
  · rintro ⟨gap, name, gap', gap'', rfl, hgapNe, hgap, hisName, hgapNe',
      hgap', hgap'', hname, hdigitsNe, hdigits⟩
    obtain ⟨shapeName, negative, digits⟩ := shape
    dsimp only at hname hdigitsNe hdigits ⊢
    subst hname
    have hclosing : StopsAt isDecimalDigit (gap'' ++ [')']) :=
      stopsAt_append_of_blanks
        (fun c hblank => isDecimalDigit_eq_false_of_isBlank hblank)
        hgap'' (stopsAt_cons.mpr (by decide))
    obtain ⟨htake, hdrop⟩ := takeWhile_append_of_stopsAt hdigits hclosing
    refine ⟨_, dropWord?_eq_some_iff.mpr rfl,
      name ++ (gap' ++ (signText negative ++ (digits ++ (gap'' ++ [')'])))), ?_,
      (name, gap' ++ (signText negative ++ (digits ++ (gap'' ++ [')'])))), ?_,
      signText negative ++ (digits ++ (gap'' ++ [')'])), ?_, ?_⟩
    · exact skipSomeBlanks?_eq_some_iff.mpr
        ⟨gap, rfl, hgapNe, hgap, stopsAt_isBlank_of_isName hisName _⟩
    · refine takeName?_eq_some_iff.mpr ⟨rfl, hisName, ?_⟩
      exact stopsAt_append_of_blanks_ne_nil
        (fun c hblank => isNameChar_eq_false_of_isBlank hblank)
        hgapNe' hgap' _
    · exact skipSomeBlanks?_eq_some_iff.mpr
        ⟨gap', rfl, hgapNe', hgap',
          stopsAt_isBlank_of_digits negative hdigitsNe hdigits _⟩
    · rw [takeSign_signText hdigitsNe hdigits]
      dsimp only
      rw [htake, hdrop, skipBlanks_append hgap'' (stopsAt_cons.mpr (by decide))]
      simp [hdigitsNe]

/-! ## Functions -/

/-- The closing of a function is found behind the last `]` that only blanks
separate from the end. -/
theorem dropClosing?_eq_some_iff {text inner : List Char} :
    dropClosing? text = some inner ↔
      ∃ gap, text = inner ++ ']' :: (gap ++ [')']) ∧ Blanks gap := by
  simp only [dropClosing?, Option.bind_eq_bind, Option.bind_eq_some_iff,
    dropChar?_eq_some_iff, Option.pure_def, Option.some.injEq]
  constructor
  · rintro ⟨bracketed, hbracketed, reversed, hreversed, rfl⟩
    obtain ⟨gap, hgapSplit, hgap, -⟩ := skipBlanks_eq_iff.mp hreversed
    refine ⟨gap.reverse, ?_, blanks_reverse.mpr hgap⟩
    rw [← List.reverse_inj, hbracketed, hgapSplit]
    simp
  · rintro ⟨gap, rfl, hgap⟩
    refine ⟨gap.reverse ++ ']' :: inner.reverse, by simp, inner.reverse, ?_,
      List.reverse_reverse inner⟩
    exact skipBlanks_append (blanks_reverse.mpr hgap)
      (stopsAt_cons.mpr (by decide))

theorem functionShape?_eq_some_iff
    {text : List Char} {shape : FunctionShape} :
    functionShape? text = some shape ↔
      ∃ gap spelled gap' gap'', text = "(defun".toList ++ (gap ++ (spelled ++
          (gap' ++ '[' :: (shape.paramText ++ ']' :: (gap'' ++ [')']))))) ∧
        gap ≠ [] ∧ Blanks gap ∧ shape.head.IsSpelled spelled ∧
        Blanks gap' ∧ Blanks gap'' ∧ '\n' ∉ shape.paramText := by
  simp only [functionShape?, Option.bind_eq_bind, Option.bind_eq_some_iff]
  constructor
  · rintro ⟨afterWord, hword, grouped, hgrouped, ⟨head, afterHead⟩, hhead,
      bracketed, hbracketed, paramText, hparams, hshape⟩
    dsimp only at hbracketed hshape
    split at hshape
    next => simp at hshape
    next hfeed =>
      obtain rfl := Option.some.inj hshape
      obtain ⟨gap, hgapSplit, hgapNe, hgap, -⟩ :=
        skipSomeBlanks?_eq_some_iff.mp hgrouped
      obtain ⟨spelled, hspelledSplit, hspelled⟩ := takeGroup?_eq_some_iff.mp hhead
      obtain ⟨gap', hgapSplit', hgap', -⟩ :=
        skipBlanks_eq_iff.mp (dropChar?_eq_some_iff.mp hbracketed)
      obtain ⟨gap'', hclosing, hgap''⟩ := dropClosing?_eq_some_iff.mp hparams
      refine ⟨gap, spelled, gap', gap'', ?_, hgapNe, hgap, hspelled, hgap',
        hgap'', by simpa using hfeed⟩
      dsimp only
      rw [← hclosing, ← hgapSplit', ← hspelledSplit, ← hgapSplit]
      exact dropWord?_eq_some_iff.mp hword
  · rintro ⟨gap, spelled, gap', gap'', rfl, hgapNe, hgap, hspelled, hgap',
      hgap'', hfeed⟩
    obtain ⟨head, paramText⟩ := shape
    dsimp only at hspelled hfeed ⊢
    refine ⟨_, dropWord?_eq_some_iff.mpr rfl,
      spelled ++ (gap' ++ '[' :: (paramText ++ ']' :: (gap'' ++ [')']))), ?_,
      (head, gap' ++ '[' :: (paramText ++ ']' :: (gap'' ++ [')']))), ?_,
      paramText ++ ']' :: (gap'' ++ [')']), ?_, paramText, ?_, ?_⟩
    · refine skipSomeBlanks?_eq_some_iff.mpr ⟨gap, rfl, hgapNe, hgap, ?_⟩
      obtain ⟨_, _, _, rfl, -⟩ := hspelled
      exact stopsAt_cons.mpr (by decide)
    · exact takeGroup?_eq_some_iff.mpr ⟨spelled, rfl, hspelled⟩
    · rw [skipBlanks_append hgap' (stopsAt_cons.mpr (by decide))]
      exact dropChar?_eq_some_iff.mpr rfl
    · exact dropClosing?_eq_some_iff.mpr ⟨gap'', rfl, hgap''⟩
    · simp [hfeed]

/-- No text has both shapes. -/
theorem constantShape?_of_functionShape?
    {text : List Char} {shape : FunctionShape}
    (hshape : functionShape? text = some shape) :
    constantShape? text = none := by
  obtain ⟨gap, spelled, gap', gap'', rfl, -⟩ :=
    functionShape?_eq_some_iff.mp hshape
  rfl

end ResourceHandles
