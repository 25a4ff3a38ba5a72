import ResourceHandles.Proofs.Manifest.CanonicalText
import ResourceHandles.Proofs.Manifest.Refusals

/-!
# The spellings of a type

A type has one text of its own and many spellings, which differ from that text in blanks
only: in those at both ends and in those before a pair of brackets.  A spelling is told by
the word it begins with and by the number of brackets behind it, so reading and writing meet
in the word and the depth of a type.  Once this is known no proof looks at how a text is
read.
-/

namespace ResourceHandles

open Text

/-- The words that name a type. -/
def typeWords : List (List Char) :=
  ["int".toList, "string".toList, "nil".toList]

/-- The word of the innermost type. -/
def TypeExpr.word : TypeExpr → List Char
  | .list element => element.word
  | type => type.text.toList

/-- So many pairs of brackets and nothing else. -/
def bareBrackets : Nat → List Char
  | 0 => []
  | pairs + 1 => '[' :: ']' :: bareBrackets pairs

/-- The number of pairs of brackets in a text. -/
def bracketPairs : List Char → Nat
  | [] => 0
  | c :: rest =>
    if c = '[' ∧ rest.head? = some ']' then bracketPairs rest + 1 else bracketPairs rest

/-- Leaves out the blanks that stand before a pair of brackets. -/
def closeGaps : List Char → List Char
  | [] => []
  | c :: rest =>
    if isBlank c = true ∧ ['[', ']'] <+: skipBlanks rest then closeGaps rest
    else c :: closeGaps rest

variable {text before word between after gap run rest : List Char} {type : TypeExpr}

/-! ## Words -/

theorem TypeExpr.word_mem_typeWords (type : TypeExpr) : type.word ∈ typeWords := by
  induction type with
  | int => decide
  | string => decide
  | nil => decide
  | list element ih => exact ih

theorem TypeExpr.exists_word_eq (hword : word ∈ typeWords) (levels : Nat) :
    ∃ type : TypeExpr, type.word = word ∧ type.depth = levels := by
  induction levels with
  | zero =>
      simp only [typeWords, List.mem_cons, List.not_mem_nil, or_false] at hword
      rcases hword with rfl | rfl | rfl
      · exact ⟨.int, rfl, rfl⟩
      · exact ⟨.string, rfl, rfl⟩
      · exact ⟨.nil, rfl, rfl⟩
  | succ levels ih =>
      obtain ⟨element, hword, hdepth⟩ := ih
      exact ⟨.list element, hword, by rw [TypeExpr.depth, hdepth]⟩

theorem ne_nil_of_mem_typeWords : ∀ word ∈ typeWords, word ≠ [] := by
  decide

theorem isBlank_of_mem_typeWords : ∀ word ∈ typeWords, ∀ c ∈ word, isBlank c = false := by
  have hwords : typeWords.all (fun word => word.all (!isBlank ·)) = true := by decide
  intro word hword c hc
  simpa using List.all_eq_true.mp (List.all_eq_true.mp hwords word hword) c hc

theorem bracket_notMem_of_mem_typeWords : ∀ word ∈ typeWords, '[' ∉ word := by
  decide

/-- No word begins another. -/
theorem eq_of_prefix_of_mem_typeWords :
    ∀ word ∈ typeWords, ∀ other ∈ typeWords, word <+: other → word = other := by
  decide

theorem stopsAt_of_forall
    {p : Char → Bool} (htext : ∀ c ∈ text, p c = false) : StopsAt p text := by
  intro c hc
  exact htext c (List.mem_of_mem_head? hc)

theorem stopsAt_word_append
    {p : Char → Bool} (hword : word ∈ typeWords) (hclass : ∀ c ∈ word, p c = false)
    (rest : List Char) :
    StopsAt p (word ++ rest) := by
  rw [StopsAt, List.head?_append_of_ne_nil _ (ne_nil_of_mem_typeWords word hword)]
  exact stopsAt_of_forall hclass

theorem baseWord_of_mem_typeWords
    (hword : word ∈ typeWords) (hbefore : Blanks before) (hafter : Brackets after) :
    BaseWord (before ++ word ++ after) word := by
  have hblank := isBlank_of_mem_typeWords word hword
  refine ⟨⟨before, after, rfl, hbefore, hafter⟩, stopsAt_of_forall hblank,
    stopsAt_of_forall ?_, ?_⟩
  · intro c hc
    exact hblank c (List.mem_reverse.mp hc)
  · intro hsuffix
    exact bracket_notMem_of_mem_typeWords word hword (hsuffix.subset List.mem_cons_self)

/-! ## Brackets -/

theorem bracket_notMem_of_blanks (hgap : Blanks gap) : '[' ∉ gap := by
  intro hmem
  exact absurd (hgap '[' hmem) (by decide)

theorem Brackets.append (hbetween : Brackets between) (hafter : Brackets after) :
    Brackets (between ++ after) := by
  induction hbetween with
  | @nil gap hgap =>
      cases hafter with
      | nil hgap' => exact .nil (blanks_append.mpr ⟨hgap, hgap'⟩)
      | cons hgap' hrest =>
          rw [← List.append_assoc]
          exact .cons (blanks_append.mpr ⟨hgap, hgap'⟩) hrest
  | cons hgap hrest ih =>
      rw [List.append_assoc]
      exact .cons hgap ih

theorem Brackets.ne_closing_cons (hbrackets : Brackets text) : text ≠ ']' :: rest := by
  rintro rfl
  generalize htext : ']' :: rest = text at hbrackets
  cases hbrackets with
  | nil hgap =>
      subst htext
      exact absurd (hgap ']' List.mem_cons_self) (by decide)
  | @cons gap tail hgap hrest =>
      cases gap with
      | nil => exact absurd (List.cons.inj htext).1 (by decide)
      | cons c gap =>
          obtain ⟨rfl, -⟩ := List.cons.inj htext
          exact absurd (hgap ']' List.mem_cons_self) (by decide)

/-- What is left when brackets are taken away from the end of brackets. -/
theorem Brackets.of_append
    (hwhole : Brackets text) (htext : text = between ++ after) (hafter : Brackets after) :
    Brackets between := by
  induction hwhole generalizing between with
  | nil hgap =>
      rw [htext, blanks_append] at hgap
      exact .nil hgap.1
  | @cons gap rest hgap hrest ih =>
      rcases List.append_eq_append_iff.mp htext with
        ⟨front, rfl, hfront⟩ | ⟨back, rfl, -⟩
      · -- The cut is behind the first gap: before, inside or behind the first pair.
        rcases front with _ | ⟨c, _ | ⟨d, front⟩⟩
        · simpa using Brackets.nil hgap
        · obtain ⟨-, hclosing⟩ := List.cons.inj hfront
          exact absurd hclosing.symm hafter.ne_closing_cons
        · simp only [List.cons_append, List.cons.injEq] at hfront
          obtain ⟨rfl, rfl, hfront⟩ := hfront
          exact .cons hgap (ih hfront)
      · exact .nil (blanks_append.mp hgap).1

theorem bracketPairs_append_of_notMem (hrun : '[' ∉ run) (rest : List Char) :
    bracketPairs (run ++ rest) = bracketPairs rest := by
  induction run with
  | nil => rfl
  | cons c run ih =>
      rw [List.mem_cons, not_or] at hrun
      rw [List.cons_append, bracketPairs, if_neg (fun hpair => hrun.1 hpair.1.symm), ih hrun.2]

theorem bracketPairs_blanks (hgap : Blanks gap) : bracketPairs gap = 0 := by
  have hnone := bracketPairs_append_of_notMem (bracket_notMem_of_blanks hgap) []
  rwa [List.append_nil] at hnone

theorem bracketPairs_pair (hgap : Blanks gap) (rest : List Char) :
    bracketPairs (gap ++ '[' :: ']' :: rest) = bracketPairs rest + 1 := by
  rw [bracketPairs_append_of_notMem (bracket_notMem_of_blanks hgap)]
  simp [bracketPairs]

theorem Brackets.bracketPairs_append (hbetween : Brackets between) (after : List Char) :
    bracketPairs (between ++ after) = bracketPairs between + bracketPairs after := by
  induction hbetween with
  | @nil gap hgap =>
      rw [bracketPairs_append_of_notMem (bracket_notMem_of_blanks hgap), bracketPairs_blanks hgap,
        Nat.zero_add]
  | @cons gap rest hgap hrest ih =>
      rw [List.append_assoc, List.cons_append, List.cons_append, bracketPairs_pair hgap,
        bracketPairs_pair hgap, ih, Nat.add_right_comm]

/-! ## Reading -/

theorem TypeExpr.nested_list (base : TypeExpr) (levels : Nat) :
    nested (list base) levels = list (nested base levels) := by
  induction levels with
  | zero => rfl
  | succ levels ih => exact congrArg list ih

/-- What a word and the brackets behind it denote, when the type of the word is known. -/
theorem TypeText.append_brackets
    (htext : TypeText text type) (hafter : Brackets after) :
    ∃ brackets gap, after = brackets ++ gap ∧ Blanks gap ∧
      TypeText (text ++ brackets) (TypeExpr.nested type (bracketPairs after)) := by
  -- Brackets are taken from the left, so the first pair goes to the type of the word and the
  -- rest of them to the list of it.
  induction hafter generalizing text type with
  | @nil gap hgap =>
      refine ⟨[], gap, rfl, hgap, ?_⟩
      rw [List.append_nil, bracketPairs_blanks hgap]
      exact htext
  | @cons gap rest hgap hrest ih =>
      obtain ⟨brackets, last, rfl, hlast, htype⟩ := ih (.list htext hgap)
      refine ⟨gap ++ ['[', ']'] ++ brackets, last, by simp, hlast, ?_⟩
      rw [bracketPairs_pair hgap, TypeExpr.nested, ← TypeExpr.nested_list]
      simpa using htype

theorem TypeText.exists_brackets (htext : TypeText text type) :
    ∃ after, text = type.word ++ after ∧ Brackets after ∧ bracketPairs after = type.depth := by
  have hnone : Brackets [] := .nil blanks_nil
  induction htext with
  | int => exact ⟨[], rfl, hnone, rfl⟩
  | string => exact ⟨[], rfl, hnone, rfl⟩
  | nil => exact ⟨[], rfl, hnone, rfl⟩
  | @list text gap element htext hgap ih =>
      obtain ⟨after, rfl, hafter, hpairs⟩ := ih
      have hpair : Brackets (gap ++ ['[', ']']) := .cons hgap hnone
      refine ⟨after ++ (gap ++ ['[', ']']), by simp [TypeExpr.word], hafter.append hpair, ?_⟩
      rw [hafter.bracketPairs_append, hpairs, bracketPairs_pair hgap]
      rfl

theorem TypeExpr.exists_typeText_word (type : TypeExpr) :
    ∃ base, TypeText type.word base ∧ nested base type.depth = type := by
  induction type with
  | int => exact ⟨.int, .int, rfl⟩
  | string => exact ⟨.string, .string, rfl⟩
  | nil => exact ⟨.nil, .nil, rfl⟩
  | list element ih =>
      obtain ⟨base, hword, hbase⟩ := ih
      exact ⟨base, hword, congrArg list hbase⟩

/-- Reading gives a type exactly if the text is, behind blanks, the word of the type and
brackets to its depth. -/
theorem TypeExpr.parse_eq_ok_iff_brackets :
    parse text = .ok type ↔
      ∃ before after, text = before ++ type.word ++ after ∧ Blanks before ∧ Brackets after ∧
        bracketPairs after = type.depth := by
  rw [parse_eq_ok_iff]
  constructor
  · rintro ⟨before, core, gap, rfl, hbefore, hcore, hgap⟩
    obtain ⟨after, rfl, hafter, hpairs⟩ := hcore.exists_brackets
    refine ⟨before, after ++ gap, by simp, hbefore, hafter.append (.nil hgap), ?_⟩
    rw [hafter.bracketPairs_append, hpairs, bracketPairs_blanks hgap, Nat.add_zero]
  · rintro ⟨before, after, rfl, hbefore, hafter, hpairs⟩
    obtain ⟨base, hword, hbase⟩ := type.exists_typeText_word
    obtain ⟨brackets, gap, rfl, hgap, htype⟩ := hword.append_brackets hafter
    rw [hpairs, hbase] at htype
    exact ⟨before, type.word ++ brackets, gap, by simp, hbefore, htype, hgap⟩

/-! ## Closing the gaps -/

theorem closeGaps_blanks (hgap : Blanks gap) : closeGaps gap = gap := by
  induction gap with
  | nil => rfl
  | cons c gap ih =>
      rw [blanks_cons] at hgap
      have hskip : skipBlanks gap = [] :=
        skipBlanks_eq_iff.mpr ⟨gap, (List.append_nil gap).symm, hgap.2, by simp [StopsAt]⟩
      rw [closeGaps, hskip, if_neg (by simp), ih hgap.2]

theorem closeGaps_pair (hgap : Blanks gap) (rest : List Char) :
    closeGaps (gap ++ '[' :: ']' :: rest) = '[' :: ']' :: closeGaps rest := by
  induction gap with
  | nil => simp [closeGaps, isBlank]
  | cons c gap ih =>
      rw [blanks_cons] at hgap
      have hskip : skipBlanks (gap ++ '[' :: ']' :: rest) = '[' :: ']' :: rest :=
        skipBlanks_append hgap.2 (stopsAt_cons.mpr (by decide))
      rw [List.cons_append, closeGaps, hskip, if_pos ⟨hgap.1, rest, rfl⟩, ih hgap.2]

theorem closeGaps_append_of_solid (hrun : ∀ c ∈ run, isBlank c = false) (rest : List Char) :
    closeGaps (run ++ rest) = run ++ closeGaps rest := by
  induction run with
  | nil => rfl
  | cons c run ih =>
      rw [List.forall_mem_cons] at hrun
      rw [List.cons_append, closeGaps, if_neg (by simp [hrun.1]), ih hrun.2]
      rfl

theorem closeGaps_append_of_blanks
    (hgap : Blanks gap) (hstop : StopsAt isBlank rest) (hbracket : StopsAt (· == '[') rest) :
    closeGaps (gap ++ rest) = gap ++ closeGaps rest := by
  induction gap with
  | nil => rfl
  | cons c gap ih =>
      rw [blanks_cons] at hgap
      have hpair : ¬ ['[', ']'] <+: rest := by
        rintro ⟨tail, rfl⟩
        exact absurd (stopsAt_cons.mp hbracket) (by decide)
      rw [List.cons_append, closeGaps, skipBlanks_append hgap.2 hstop,
        if_neg (fun hclose => hpair hclose.2), ih hgap.2]
      rfl

/-- Closing the gaps leaves of brackets the pairs and the blanks behind the last of them. -/
theorem Brackets.exists_closeGaps_eq (hafter : Brackets after) :
    ∃ gap, Blanks gap ∧ closeGaps after = bareBrackets (bracketPairs after) ++ gap := by
  induction hafter with
  | @nil gap hgap =>
      refine ⟨gap, hgap, ?_⟩
      rw [closeGaps_blanks hgap, bracketPairs_blanks hgap]
      rfl
  | cons hgap hrest ih =>
      obtain ⟨last, hlast, hclose⟩ := ih
      refine ⟨last, hlast, ?_⟩
      rw [closeGaps_pair hgap, bracketPairs_pair hgap, hclose]
      rfl

/-- A character stays unless a gap begins with it. -/
theorem closeGaps_cons (c : Char) (rest : List Char) :
    closeGaps (c :: rest) = c :: closeGaps rest ∨
      ∃ gap tail, c :: rest = gap ++ '[' :: ']' :: tail ∧ Blanks gap := by
  rw [closeGaps]
  split
  · next hpair =>
      obtain ⟨hblank, tail, htail⟩ := hpair
      obtain ⟨gap, rfl, hgap, -⟩ := skipBlanks_eq_iff.mp htail.symm
      exact .inr ⟨c :: gap, tail, rfl, blanks_cons.mpr ⟨hblank, hgap⟩⟩
  · exact .inl rfl

/-- What closing the gaps leaves comes from the text in order, and nothing but blanks before
an opening bracket is left out. -/
theorem exists_eq_of_closeGaps_eq_cons
    {c : Char} {out : List Char} (hclose : closeGaps text = c :: out) :
    ∃ gap tail, text = gap ++ c :: tail ∧ Blanks gap ∧ (c ≠ '[' → gap = []) ∧
      closeGaps tail = out := by
  cases text with
  | nil => cases hclose
  | cons d text =>
      rcases closeGaps_cons d text with hkept | ⟨gap, rest, hsplit, hgap⟩
      · rw [hkept] at hclose
        obtain ⟨rfl, rfl⟩ := List.cons.inj hclose
        exact ⟨[], text, rfl, blanks_nil, fun _ => rfl, rfl⟩
      · rw [hsplit, closeGaps_pair hgap] at hclose
        obtain ⟨rfl, rfl⟩ := List.cons.inj hclose
        have htail : closeGaps ([']'] ++ rest) = [']'] ++ closeGaps rest :=
          closeGaps_append_of_solid (by simp [isBlank]) rest
        exact ⟨gap, ']' :: rest, hsplit, hgap, fun hne => absurd rfl hne, htail⟩

theorem eq_nil_of_closeGaps_eq_nil (hclose : closeGaps text = []) : text = [] := by
  cases text with
  | nil => rfl
  | cons c rest =>
      rcases closeGaps_cons c rest with hkept | ⟨gap, tail, hsplit, hgap⟩
      · rw [hkept] at hclose
        cases hclose
      · rw [hsplit, closeGaps_pair hgap] at hclose
        cases hclose

theorem exists_eq_of_closeGaps_eq_append
    {out : List Char} (hrun : '[' ∉ run) (hclose : closeGaps text = run ++ out) :
    ∃ tail, text = run ++ tail ∧ closeGaps tail = out := by
  induction run generalizing text with
  | nil => exact ⟨text, rfl, hclose⟩
  | cons c run ih =>
      rw [List.mem_cons, not_or] at hrun
      obtain ⟨gap, tail, rfl, -, hgap, htail⟩ := exists_eq_of_closeGaps_eq_cons hclose
      obtain ⟨rest, rfl, hrest⟩ := ih hrun.2 htail
      rw [hgap (Ne.symm hrun.1)]
      exact ⟨rest, rfl, hrest⟩

theorem brackets_of_closeGaps_eq
    {pairs : Nat} (hgap : Blanks gap) (hclose : closeGaps text = bareBrackets pairs ++ gap) :
    Brackets text ∧ bracketPairs text = pairs := by
  induction pairs generalizing text with
  | zero =>
      have hbracket := bracket_notMem_of_blanks hgap
      obtain ⟨tail, rfl, htail⟩ :=
        exists_eq_of_closeGaps_eq_append hbracket (hclose.trans (List.append_nil gap).symm)
      rw [eq_nil_of_closeGaps_eq_nil htail, List.append_nil]
      exact ⟨.nil hgap, bracketPairs_blanks hgap⟩
  | succ pairs ih =>
      obtain ⟨first, tail, rfl, hfirst, -, htail⟩ := exists_eq_of_closeGaps_eq_cons hclose
      have hclosing : closeGaps tail = [']'] ++ (bareBrackets pairs ++ gap) := htail
      obtain ⟨rest, rfl, hrest⟩ := exists_eq_of_closeGaps_eq_append (by decide) hclosing
      obtain ⟨hbrackets, hpairs⟩ := ih hrest
      exact ⟨.cons hfirst hbrackets,
        (bracketPairs_pair hfirst rest).trans (congrArg (· + 1) hpairs)⟩

/-! ## The text of a type -/

theorem bareBrackets_succ (pairs : Nat) :
    bareBrackets (pairs + 1) = bareBrackets pairs ++ ['[', ']'] := by
  induction pairs with
  | zero => rfl
  | succ pairs ih =>
      exact congrArg (fun rest => '[' :: ']' :: rest) ih

theorem TypeExpr.text_eq (type : TypeExpr) :
    type.text.toList = type.word ++ bareBrackets type.depth := by
  induction type with
  | int => rfl
  | string => rfl
  | nil => rfl
  | list element ih =>
      rw [text, String.toList_append, ih, depth, bareBrackets_succ, List.append_assoc]
      rfl

theorem TypeExpr.isBlank_text (type : TypeExpr) : ∀ c ∈ type.text.toList, isBlank c = false := by
  induction type with
  | int => exact isBlank_of_mem_typeWords _ (word_mem_typeWords int)
  | string => exact isBlank_of_mem_typeWords _ (word_mem_typeWords string)
  | nil => exact isBlank_of_mem_typeWords _ (word_mem_typeWords nil)
  | list element ih =>
      have hpair : ∀ c ∈ ['[', ']'], isBlank c = false := by simp [isBlank]
      intro c hc
      rw [text, String.toList_append] at hc
      rcases List.mem_append.mp hc with hc | hc
      · exact ih c hc
      · exact hpair c hc

theorem TypeExpr.trim_closeGaps_of_brackets
    (hbefore : Blanks before) (hafter : Brackets after)
    (hpairs : bracketPairs after = type.depth) :
    trim (closeGaps (before ++ type.word ++ after)) = type.text.toList := by
  have hword := isBlank_of_mem_typeWords _ type.word_mem_typeWords
  have hbracket := bracket_notMem_of_mem_typeWords _ type.word_mem_typeWords
  obtain ⟨gap, hgap, hclose⟩ := hafter.exists_closeGaps_eq
  have hstop := stopsAt_word_append type.word_mem_typeWords hword after
  have hopening : StopsAt (· == '[') (type.word ++ after) := by
    apply stopsAt_word_append type.word_mem_typeWords
    intro c hc
    exact beq_false_of_ne (ne_of_mem_of_not_mem hc hbracket)
  have hclosed :
      closeGaps (before ++ type.word ++ after) = before ++ type.text.toList ++ gap := by
    rw [List.append_assoc, closeGaps_append_of_blanks hbefore hstop hopening,
      closeGaps_append_of_solid hword, hclose, hpairs, text_eq]
    simp
  rw [hclosed]
  apply trim_append hbefore hgap (stopsAt_of_forall type.isBlank_text)
  apply stopsAt_of_forall
  intro c hc
  exact type.isBlank_text c (List.mem_reverse.mp hc)

/-- Without the gaps and the blanks at both ends a text is the text of a type exactly if it is,
behind blanks, the word of the type and brackets to its depth. -/
theorem TypeExpr.trim_closeGaps_eq_iff :
    trim (closeGaps text) = type.text.toList ↔
      ∃ before after, text = before ++ type.word ++ after ∧ Blanks before ∧ Brackets after ∧
        bracketPairs after = type.depth := by
  constructor
  · intro htrim
    obtain ⟨before, gap, hsplit, hbefore, hgap⟩ := exists_eq_append_trim (closeGaps text)
    have hclose :
        closeGaps text = before ++ (type.word ++ (bareBrackets type.depth ++ gap)) := by
      rw [hsplit, htrim, text_eq]
      simp
    -- What is left out stands before a bracket, so blanks and word come first in the text too.
    obtain ⟨core, rfl, hcore⟩ :=
      exists_eq_of_closeGaps_eq_append (bracket_notMem_of_blanks hbefore) hclose
    obtain ⟨after, rfl, hafter⟩ :=
      exists_eq_of_closeGaps_eq_append
        (bracket_notMem_of_mem_typeWords _ type.word_mem_typeWords) hcore
    obtain ⟨hbrackets, hpairs⟩ := brackets_of_closeGaps_eq hgap hafter
    exact ⟨before, after, (List.append_assoc _ _ _).symm, hbefore, hbrackets, hpairs⟩
  · rintro ⟨before, after, rfl, hbefore, hafter, hpairs⟩
    exact trim_closeGaps_of_brackets hbefore hafter hpairs

/-! ## Base words -/

/-- A text denotes a type exactly if its base word is the word of the type and it has as many
pairs of brackets as the type has levels. -/
theorem TypeExpr.parse_eq_ok_iff_baseWord :
    parse text = .ok type ↔ BaseWord text type.word ∧ bracketPairs text = type.depth := by
  have hpairs : ∀ before after, Blanks before →
      bracketPairs (before ++ type.word ++ after) = bracketPairs after := by
    intro before after hbefore
    rw [List.append_assoc, bracketPairs_append_of_notMem (bracket_notMem_of_blanks hbefore),
      bracketPairs_append_of_notMem (bracket_notMem_of_mem_typeWords _ type.word_mem_typeWords)]
  rw [parse_eq_ok_iff_brackets]
  constructor
  · rintro ⟨before, after, rfl, hbefore, hafter, hdepth⟩
    exact ⟨baseWord_of_mem_typeWords type.word_mem_typeWords hbefore hafter,
      (hpairs before after hbefore).trans hdepth⟩
  · rintro ⟨hword, hdepth⟩
    obtain ⟨before, after, rfl, hbefore, hafter⟩ := hword.split
    exact ⟨before, after, rfl, hbefore, hafter, (hpairs before after hbefore).symm.trans hdepth⟩

/-! ## Refusals -/

theorem TypeExpr.exists_parse_eq_error (hparse : ∀ type, parse text ≠ .ok type) :
    ∃ fault, parse text = .error fault := by
  cases hresult : parse text with
  | ok type => exact absurd hresult (hparse type)
  | error fault => exact ⟨fault, rfl⟩

/-- Every opening bracket is closed by the next character. -/
def ClosedAtOnce (text : List Char) : Prop :=
  text.IsChain fun c next => c = '[' → next = ']'

theorem ClosedAtOnce.append_left (hrun : '[' ∉ run) (hrest : ClosedAtOnce rest) :
    ClosedAtOnce (run ++ rest) := by
  induction run with
  | nil => exact hrest
  | cons c run ih =>
      rw [List.mem_cons, not_or] at hrun
      exact (ih hrun.2).cons fun next _ hc => absurd hc.symm hrun.1

theorem Brackets.closedAtOnce (hafter : Brackets after) : ClosedAtOnce after := by
  have hempty : ClosedAtOnce [] := .nil
  induction hafter with
  | @nil gap hgap =>
      rw [← List.append_nil gap]
      exact hempty.append_left (bracket_notMem_of_blanks hgap)
  | @cons gap rest hgap hrest ih =>
      apply ClosedAtOnce.append_left (bracket_notMem_of_blanks hgap)
      have hclosing : ClosedAtOnce ([']'] ++ rest) := ih.append_left (by decide)
      exact List.isChain_cons_cons.mpr ⟨fun _ => rfl, hclosing⟩

theorem TypeExpr.closedAtOnce_of_parse (hparse : parse text = .ok type) : ClosedAtOnce text := by
  obtain ⟨before, after, rfl, hbefore, hafter, -⟩ := parse_eq_ok_iff_brackets.mp hparse
  rw [List.append_assoc]
  exact (hafter.closedAtOnce.append_left
    (bracket_notMem_of_mem_typeWords _ type.word_mem_typeWords)).append_left
    (bracket_notMem_of_blanks hbefore)

/-- Behind a word nothing is read but brackets. -/
theorem TypeExpr.brackets_of_parse
    (hbefore : Blanks before) (hword : word ∈ typeWords)
    (hparse : parse (before ++ word ++ rest) = .ok type) :
    Brackets rest := by
  obtain ⟨front, after, hsplit, hfront, hafter, -⟩ := parse_eq_ok_iff_brackets.mp hparse
  have hstops : ∀ word ∈ typeWords, ∀ rest, StopsAt isBlank (word ++ rest) := by
    intro word hword
    exact stopsAt_word_append hword (isBlank_of_mem_typeWords word hword)
  have hwords : word ++ rest = type.word ++ after := by
    have hskip := skipBlanks_append hbefore (hstops word hword rest)
    rw [← List.append_assoc, hsplit, List.append_assoc,
      skipBlanks_append hfront (hstops type.word type.word_mem_typeWords after)] at hskip
    exact hskip.symm
  have hsame : word = type.word := by
    have hprefix : type.word <+: word ++ rest := ⟨after, hwords.symm⟩
    rcases List.prefix_or_prefix_of_prefix (List.prefix_append word rest) hprefix with
      hshort | hshort
    · exact eq_of_prefix_of_mem_typeWords _ hword _ type.word_mem_typeWords hshort
    · exact (eq_of_prefix_of_mem_typeWords _ type.word_mem_typeWords _ hword hshort).symm
  rw [hsame] at hwords
  rw [List.append_cancel_left hwords]
  exact hafter

theorem TypeExpr.parse_brackets (hbrackets : Brackets text) : parse text = .error ⟨""⟩ := by
  rw [parse_eq_error_iff]
  exact ⟨⟨⟨[], text, rfl, blanks_nil, hbrackets⟩, by simp [StopsAt], by simp [StopsAt], by simp⟩,
    by decide, by decide, by decide⟩

/-- Reading and writing are inverse up to the blanks that a spelling may have: a text is read
as a type exactly if without these it is the text of the type, every type is read from its own
text, and two texts are read as one type exactly if they have the same word and equally many
pairs of brackets.  So an opening bracket is followed by its closing one, brackets have a word
before them, and nothing stands between the two. -/
theorem TypeExpr.parse_inverts_text :
    (∀ (text : List Char) (type : TypeExpr),
      parse text = .ok type ↔ trim (closeGaps text) = type.text.toList) ∧
    (∀ type : TypeExpr, parse type.text.toList = .ok type) ∧
    (∀ text other : List Char,
      (∃ type, parse text = .ok type ∧ parse other = .ok type) ↔
        ∃ word ∈ typeWords, BaseWord text word ∧ BaseWord other word ∧
          bracketPairs text = bracketPairs other) ∧
    (∀ (front back : List Char) (c : Char), c ≠ ']' →
      ∃ fault, parse (front ++ '[' :: c :: back) = .error fault) ∧
    (∀ text : List Char, Brackets text → parse text = .error ⟨""⟩) ∧
    (∀ before word between after : List Char, Blanks before → word ∈ typeWords →
      Brackets after → ¬ Brackets between →
      ∃ fault, parse (before ++ word ++ (between ++ after)) = .error fault) := by
  refine ⟨?_, ?_, ?_, ?_, ?_, ?_⟩
  · intro text type
    rw [parse_eq_ok_iff_brackets, trim_closeGaps_eq_iff]
  · intro type
    exact type.parse_text
  · intro text other
    simp only [parse_eq_ok_iff_baseWord]
    constructor
    · rintro ⟨type, ⟨htext, hdepth⟩, hother, hdepth'⟩
      exact ⟨type.word, type.word_mem_typeWords, htext, hother, hdepth.trans hdepth'.symm⟩
    · rintro ⟨word, hword, htext, hother, hpairs⟩
      obtain ⟨type, rfl, hdepth⟩ := exists_word_eq hword (bracketPairs text)
      exact ⟨type, ⟨htext, hdepth.symm⟩, hother, hpairs.symm.trans hdepth.symm⟩
  · intro front back c hc
    apply exists_parse_eq_error
    intro type hparse
    have hclosed := closedAtOnce_of_parse hparse
    exact hc ((List.isChain_append_cons_cons.mp hclosed).2.1 rfl)
  · intro text hbrackets
    exact parse_brackets hbrackets
  · intro before word between after hbefore hword hafter hbetween
    apply exists_parse_eq_error
    intro type hparse
    exact hbetween ((brackets_of_parse hbefore hword hparse).of_append rfl hafter)

theorem TypeExpr.lists_read_by_spelling :
    parse "\tstring []\n[] ".toList = .ok (list (list string)) ∧
    (' ' ≠ ']' ∧ ∃ fault, parse "int[ ]".toList = .error fault) ∧
    (Brackets " []".toList ∧ parse " []".toList = .error ⟨""⟩) ∧
    Blanks [] ∧ "int".toList ∈ typeWords ∧ Brackets "[]".toList ∧ ¬ Brackets " x ".toList ∧
      ∃ fault, parse "int x []".toList = .error fault := by
  obtain ⟨hread, -, -, hopening, halone, hbetween⟩ := parse_inverts_text
  have hpair : Brackets "[]".toList := .cons blanks_nil (.nil blanks_nil)
  have hspaced : Brackets " []".toList := .cons blanks_space (.nil blanks_nil)
  have hword : "int".toList ∈ typeWords := by decide
  have hstray : ¬ Brackets " x ".toList := by
    intro hbrackets
    exact absurd (parse_brackets hbrackets) (by decide)
  exact ⟨(hread _ _).mpr (by decide), ⟨by decide, hopening "int".toList [']'] ' ' (by decide)⟩,
    ⟨hspaced, halone _ hspaced⟩, blanks_nil, hword, hpair, hstray,
    hbetween [] "int".toList " x ".toList "[]".toList blanks_nil hword hpair hstray⟩

end ResourceHandles
