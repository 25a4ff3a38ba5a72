import ResourceHandles.Proofs.Manifest.DirectiveGrammar

/-!
# Why a text is refused

A text that is no directive is refused for one reason, although several things may be wrong
with it.  The reasons are given as relations on the text, again without a word about how it
is read: the shape of the text decides first, then its return type, then what stands between
its parameters, then the parameter types from the left.  In a constant the first digit with
which reading cannot go on decides.
-/

namespace ResourceHandles

open Text

/-! ## The reasons -/

/-- Digits that can be read, with a value that fits. -/
def ReadableDigits (negative : Bool) (digits : List Char) : Prop :=
  (∀ c ∈ digits, IsAsciiDigit c) ∧ minInteger ≤ signed negative (decimalValue digits) ∧
    signed negative (decimalValue digits) ≤ maxInteger

/-- Digits that can be read up to one of them, why they cannot be read on with that one, and
the wording of it. -/
inductive FaultyDigits : Bool → List Char → IntegerFault → String → Prop where
  | invalidDigit {negative : Bool} {before after : List Char} {c : Char}
      (hbefore : ReadableDigits negative before) (hdigit : ¬ IsAsciiDigit c) :
      FaultyDigits negative (before ++ c :: after) .invalidDigit "invalid digit found in string"
  | tooLarge {before after : List Char} {c : Char}
      (hbefore : ReadableDigits false before) (hdigit : IsAsciiDigit c)
      (hrange : maxInteger < (decimalValue (before ++ [c]) : Int)) :
      FaultyDigits false (before ++ c :: after) .tooLarge
        "number too large to fit in target type"
  | tooSmall {before after : List Char} {c : Char}
      (hbefore : ReadableDigits true before) (hdigit : IsAsciiDigit c)
      (hrange : -(decimalValue (before ++ [c]) : Int) < minInteger) :
      FaultyDigits true (before ++ c :: after) .tooSmall
        "number too small to fit in target type"

/-- Any number of brackets, with blanks wherever two parts meet. -/
inductive Brackets : List Char → Prop where
  | nil {gap : List Char} (hgap : Blanks gap) : Brackets gap
  | cons {gap rest : List Char} (hgap : Blanks gap) (hrest : Brackets rest) :
      Brackets (gap ++ '[' :: ']' :: rest)

/-- The word of a type text: what is left without the brackets at its end and without blanks
on both sides. -/
structure BaseWord (text word : List Char) : Prop where
  split :
    ∃ before after, text = before ++ word ++ after ∧ Blanks before ∧ Brackets after
  first : StopsAt isBlank word
  last : StopsAt isBlank word.reverse
  bare : ¬ ['[', ']'] <:+ word

/-- A type text with a word that names no type. -/
def UnknownTypeText (text : List Char) (word : String) : Prop :=
  BaseWord text word.toList ∧ word ≠ "int" ∧ word ≠ "string" ∧ word ≠ "nil"

/-- A text of some type, between blanks. -/
def DenotesType (text : List Char) : Prop :=
  ∃ type before core after, text = before ++ core ++ after ∧
    Blanks before ∧ TypeText core type ∧ Blanks after

/-- The groups of a text from the left, each of which begins where none before it reaches,
and what is left of the text without them. -/
inductive LeftoverText : List Char → List Group → List Char → Prop where
  | nil : LeftoverText [] [] []
  | group {spelled rest stray : List Char} {group : Group} {groups : List Group}
      (hgroup : group.IsSpelled spelled) (hrest : LeftoverText rest groups stray) :
      LeftoverText (spelled ++ rest) (group :: groups) stray
  | stray {c : Char} {rest stray : List Char} {groups : List Group}
      (hnone : ∀ group : Group, ∀ spelled later, group.IsSpelled spelled →
        c :: rest ≠ spelled ++ later)
      (hrest : LeftoverText rest groups stray) :
      LeftoverText (c :: rest) groups (c :: stray)

/-- The text of a constant, with a numeral that may be made of any digits. -/
def ConstantShape.IsSpelled (shape : ConstantShape) (text : List Char) : Prop :=
  ∃ gap name gap' gap'', text = "(def".toList ++ (gap ++ (name ++
      (gap' ++ (signText shape.negative ++
        (shape.digits ++ (gap'' ++ [')'])))))) ∧
    gap ≠ [] ∧ Blanks gap ∧ IsName name ∧
    gap' ≠ [] ∧ Blanks gap' ∧ Blanks gap'' ∧
    shape.name = String.ofList name ∧
    shape.digits ≠ [] ∧ ∀ c ∈ shape.digits, isDecimalDigit c = true

/-- The text of a function, with any type texts and with anything but line feeds for its
parameters. -/
def FunctionShape.IsSpelled (shape : FunctionShape) (text : List Char) : Prop :=
  ∃ gap spelled gap' gap'', text = "(defun".toList ++ (gap ++ (spelled ++
      (gap' ++ '[' :: (shape.paramText ++ ']' :: (gap'' ++ [')']))))) ∧
    gap ≠ [] ∧ Blanks gap ∧ shape.head.IsSpelled spelled ∧
    Blanks gap' ∧ Blanks gap'' ∧ '\n' ∉ shape.paramText

/-- Why a text is refused, and the wording of it. -/
inductive Refusal (text : List Char) : DirectiveError → String → Prop where
  | outOfRange {shape : ConstantShape} {fault : IntegerFault} {reason : String}
      (hshape : shape.IsSpelled text)
      (hdigits : FaultyDigits shape.negative shape.digits fault reason) :
      Refusal text (.outOfRange shape.name fault)
        ("constant " ++ shape.name ++ " out of range: " ++ reason)
  | returnType {shape : FunctionShape} {word : String}
      (hshape : shape.IsSpelled text) (hreturns : UnknownTypeText shape.head.typeText word) :
      Refusal text (.returnType shape.head.name ⟨word⟩)
        ("return type of " ++ shape.head.name ++ ": " ++ ("unknown type '" ++ word ++ "'"))
  | strayText {shape : FunctionShape} {groups : List Group} {stray : List Char}
      (hshape : shape.IsSpelled text) (hreturns : DenotesType shape.head.typeText)
      (hstray : LeftoverText shape.paramText groups stray) (hleft : ¬ Blanks stray) :
      Refusal text (.strayText shape.head.name (String.ofList (trim stray)))
        ("params of " ++ shape.head.name ++ ": unexpected text '" ++
          String.ofList (trim stray) ++ "'")
  | paramType {shape : FunctionShape} {known later : List Group} {group : Group}
      {stray : List Char} {word : String}
      (hshape : shape.IsSpelled text) (hreturns : DenotesType shape.head.typeText)
      (hstray : LeftoverText shape.paramText (known ++ group :: later) stray)
      (hblanks : Blanks stray) (hknown : ∀ earlier ∈ known, DenotesType earlier.typeText)
      (hunknown : UnknownTypeText group.typeText word) :
      Refusal text (.paramType shape.head.name ⟨word⟩)
        ("params of " ++ shape.head.name ++ ": " ++ ("unknown type '" ++ word ++ "'"))
  | unrecognised
      (hconstant : ∀ shape : ConstantShape, ¬ shape.IsSpelled text)
      (hfunction : ∀ shape : FunctionShape, ¬ shape.IsSpelled text) :
      Refusal text (.unrecognised (String.ofList text))
        ("unrecognised directive: " ++ String.ofList text)

/-! ## Digits -/

/-- Reading stops at the first digit that cannot be appended. -/
theorem Text.readDigits_eq_error_iff
    {negative : Bool} {value : Int} {digits : List Char} {fault : IntegerFault} :
    readDigits negative value digits = .error fault ↔
      ∃ before c after reached, digits = before ++ c :: after ∧
        readDigits negative value before = .ok reached ∧
        appendDigit negative reached c = .error fault := by
  induction digits generalizing value with
  | nil => simp [readDigits]
  | cons c rest ih =>
      rw [readDigits]
      cases happend : appendDigit negative value c with
      | error found =>
          constructor
          · intro hfault
            exact ⟨[], c, rest, value, rfl, rfl, happend.trans hfault⟩
          · rintro ⟨before, d, after, reached, hsplit, hbefore, hreached⟩
            cases before with
            | nil =>
                obtain ⟨rfl, rfl⟩ := List.cons.inj hsplit
                obtain rfl := Except.ok.inj hbefore
                exact happend.symm.trans hreached
            | cons e before =>
                obtain ⟨rfl, rfl⟩ := List.cons.inj hsplit
                rw [readDigits, happend] at hbefore
                cases hbefore
      | ok next =>
          dsimp only
          rw [ih]
          constructor
          · rintro ⟨before, d, after, reached, rfl, hbefore, hreached⟩
            refine ⟨c :: before, d, after, reached, rfl, ?_, hreached⟩
            rw [readDigits, happend]
            exact hbefore
          · rintro ⟨before, d, after, reached, hsplit, hbefore, hreached⟩
            cases before with
            | nil =>
                obtain ⟨rfl, rfl⟩ := List.cons.inj hsplit
                obtain rfl := Except.ok.inj hbefore
                rw [happend] at hreached
                cases hreached
            | cons e before =>
                obtain ⟨rfl, rfl⟩ := List.cons.inj hsplit
                rw [readDigits, happend] at hbefore
                exact ⟨before, d, after, reached, rfl, hbefore, hreached⟩

theorem readableDigits_iff {negative : Bool} {digits : List Char} :
    ReadableDigits negative digits ↔
      readInteger negative digits = .ok (signed negative (decimalValue digits)) := by
  rw [readInteger_eq_ok_iff, ReadableDigits]
  cases negative with
  | true =>
      simp only [signed, magnitudeLimit, minInteger, maxInteger, if_true]
      constructor
      · rintro ⟨hdigits, hlow, -⟩
        exact ⟨hdigits, by omega, trivial⟩
      · rintro ⟨hdigits, hlimit, -⟩
        exact ⟨hdigits, by omega, by omega⟩
  | false =>
      simp only [signed, magnitudeLimit, minInteger, maxInteger, Bool.false_eq_true, if_false]
      constructor
      · rintro ⟨hdigits, -, hhigh⟩
        exact ⟨hdigits, by omega, trivial⟩
      · rintro ⟨hdigits, hlimit, -⟩
        exact ⟨hdigits, by omega, by omega⟩

theorem appendDigit_of_not_isAsciiDigit
    {c : Char} (hdigit : ¬ IsAsciiDigit c) (negative : Bool) (value : Int) :
    appendDigit negative value c = .error .invalidDigit := by
  rw [appendDigit, asciiDigit?_eq_none_iff.mpr hdigit]

/-- The fault of a digit that cannot be appended. -/
theorem faultyDigits_of_appendDigit
    {negative : Bool} {before : List Char} {c : Char} {fault : IntegerFault}
    (hbefore : ReadableDigits negative before)
    (happend :
      appendDigit negative (signed negative (decimalValue before)) c = .error fault)
    (after : List Char) :
    FaultyDigits negative (before ++ c :: after) fault fault.message := by
  by_cases hdigit : IsAsciiDigit c
  · have hvalue := decimalValue_concat before c
    unfold appendDigit at happend
    rw [asciiDigit?_eq_some_iff.mpr ⟨hdigit, rfl⟩] at happend
    cases negative with
    | true =>
        simp only [signed, if_true] at happend
        split at happend
        · next hlow =>
            obtain rfl := Except.error.inj happend
            exact .tooSmall hbefore hdigit (by omega)
        · cases happend
    | false =>
        simp only [signed, Bool.false_eq_true, if_false] at happend
        split at happend
        · next hhigh =>
            obtain rfl := Except.error.inj happend
            exact .tooLarge hbefore hdigit (by omega)
        · cases happend
  · rw [appendDigit_of_not_isAsciiDigit hdigit] at happend
    obtain rfl := Except.error.inj happend
    exact .invalidDigit hbefore hdigit

theorem readInteger_eq_error_iff
    {negative : Bool} {digits : List Char} {fault : IntegerFault} {reason : String} :
    FaultyDigits negative digits fault reason ↔
      readInteger negative digits = .error fault ∧ fault.message = reason := by
  have hfirst :
      ∀ {negative : Bool} {before after : List Char} {c : Char} {fault : IntegerFault},
        ReadableDigits negative before →
          appendDigit negative (signed negative (decimalValue before)) c = .error fault →
            readInteger negative (before ++ c :: after) = .error fault := by
    intro negative before after c fault hbefore happend
    exact readDigits_eq_error_iff.mpr
      ⟨before, c, after, _, rfl, readableDigits_iff.mp hbefore, happend⟩
  constructor
  · intro hfaulty
    cases hfaulty with
    | invalidDigit hbefore hdigit =>
        exact ⟨hfirst hbefore (appendDigit_of_not_isAsciiDigit hdigit _ _), rfl⟩
    | @tooLarge before after c hbefore hdigit hrange =>
        refine ⟨hfirst hbefore ?_, rfl⟩
        have hvalue := decimalValue_concat before c
        unfold appendDigit
        rw [asciiDigit?_eq_some_iff.mpr ⟨hdigit, rfl⟩]
        simp only [signed, Bool.false_eq_true, if_false]
        rw [if_pos (by omega)]
    | @tooSmall before after c hbefore hdigit hrange =>
        refine ⟨hfirst hbefore ?_, rfl⟩
        have hvalue := decimalValue_concat before c
        unfold appendDigit
        rw [asciiDigit?_eq_some_iff.mpr ⟨hdigit, rfl⟩]
        simp only [signed, if_true]
        rw [if_pos (by omega)]
  · rintro ⟨hread, rfl⟩
    obtain ⟨before, c, after, reached, rfl, hbefore, happend⟩ :=
      readDigits_eq_error_iff.mp hread
    have hreached := (readInteger_eq_ok_iff.mp hbefore).2.2
    subst hreached
    exact faultyDigits_of_appendDigit (readableDigits_iff.mpr hbefore) happend after

/-! ## Type texts -/

/-- Brackets at the end of a text are counted, and what stands before them is left. -/
theorem TypeExpr.splitBrackets_append
    {after : List Char} (hafter : Brackets after) (reversed : List Char) :
    (splitBrackets (after.reverse ++ reversed)).2 = (splitBrackets reversed).2 := by
  induction hafter generalizing reversed with
  | nil hgap => rw [splitBrackets_append_of_blanks (blanks_reverse.mpr hgap)]
  | @cons gap rest hgap hrest ih =>
      have hshape :
          (gap ++ '[' :: ']' :: rest).reverse ++ reversed =
            rest.reverse ++ (']' :: '[' :: (gap.reverse ++ reversed)) := by
        simp
      rw [hshape, ih, splitBrackets_pair,
        splitBrackets_append_of_blanks (blanks_reverse.mpr hgap)]

theorem BaseWord.trim_splitBrackets
    {text word : List Char} (hword : BaseWord text word) :
    trim (TypeExpr.splitBrackets text.reverse).2.reverse = word := by
  obtain ⟨before, after, rfl, hbefore, hafter⟩ := hword.split
  have hsplit :
      (TypeExpr.splitBrackets (before ++ word ++ after).reverse).2 =
        (TypeExpr.splitBrackets (before ++ word).reverse).2 := by
    rw [List.reverse_append]
    exact TypeExpr.splitBrackets_append hafter _
  rw [hsplit]
  rcases hback : word.reverse with _ | ⟨c, rest⟩
  · obtain rfl := List.reverse_eq_nil_iff.mp hback
    have hblanks := TypeExpr.splitBrackets_append_of_blanks (blanks_reverse.mpr hbefore) []
    rw [List.append_nil] at hblanks
    rw [List.append_nil, hblanks]
    rfl
  · have hlast := hword.last
    rw [hback, stopsAt_cons] at hlast
    have hpair : ∀ tail, c = ']' → rest ++ before.reverse = '[' :: tail → False := by
      rintro tail rfl htail
      cases rest with
      | nil =>
          -- The bracket would open among the blanks in front of the word.
          rw [List.nil_append] at htail
          have hopening : isBlank '[' = true :=
            hbefore '[' (by rw [← List.mem_reverse, htail]; exact List.mem_cons_self)
          exact absurd hopening (by decide)
      | cons d rest =>
          obtain ⟨rfl, -⟩ := List.cons.inj htail
          apply hword.bare
          rw [← List.reverse_prefix, hback]
          exact ⟨rest, rfl⟩
    have hstop :
        TypeExpr.splitBrackets (c :: (rest ++ before.reverse)) =
          (0, c :: (rest ++ before.reverse)) := by
      rw [TypeExpr.splitBrackets_cons hpair, hlast]
      rfl
    rw [List.reverse_append, hback, List.cons_append, hstop]
    have htrim := trim_append hbefore blanks_nil hword.first hword.last
    rw [List.append_nil] at htrim
    rw [← List.cons_append, ← hback, ← List.reverse_append, List.reverse_reverse]
    exact htrim

/-- Every type text has a word. -/
theorem exists_baseWord (reversed : List Char) : ∃ word, BaseWord reversed.reverse word := by
  induction reversed using TypeExpr.splitBrackets.induct with
  | case1 rest ih =>
      obtain ⟨word, ⟨before, after, hsplit, hbefore, hafter⟩, hfirst, hlast, hbare⟩ := ih
      refine ⟨word, ⟨before, after ++ ['[', ']'], ?_, hbefore, ?_⟩, hfirst, hlast, hbare⟩
      · simp [hsplit]
      · clear hsplit
        induction hafter with
        | nil hgap => exact .cons hgap (.nil blanks_nil)
        | cons hgap hrest ih =>
            rw [List.append_assoc]
            exact .cons hgap ih
  | case2 c rest hbrackets hblank ih =>
      obtain ⟨word, ⟨before, after, hsplit, hbefore, hafter⟩, hfirst, hlast, hbare⟩ := ih
      refine ⟨word, ⟨before, after ++ [c], ?_, hbefore, ?_⟩, hfirst, hlast, hbare⟩
      · simp [hsplit]
      · clear hsplit
        induction hafter with
        | nil hgap => exact .nil (blanks_append.mpr ⟨hgap, by simpa using hblank⟩)
        | cons hgap hrest ih =>
            rw [List.append_assoc]
            exact .cons hgap ih
  | case3 c rest hbrackets hblank =>
      obtain ⟨before, hsplit, hbefore, hfirst⟩ :=
        skipBlanks_eq_iff.mp (rfl : skipBlanks (c :: rest).reverse = _)
      rcases List.eq_nil_or_concat (skipBlanks (c :: rest).reverse) with hnil | ⟨front, d, hlast⟩
      · -- Then the last character would be among the blanks that are skipped.
        rw [hnil, List.append_nil] at hsplit
        have hmem : c ∈ before := by
          rw [← hsplit]
          simp
        exact absurd (hbefore c hmem) hblank
      · have hback := hlast.trans List.concat_eq_append
        have hjoined : rest.reverse ++ [c] = (before ++ front) ++ [d] := by
          rw [← List.reverse_cons, hsplit, hback, List.append_assoc]
        obtain rfl := List.singleton_inj.mp (List.append_inj' hjoined rfl).2
        refine ⟨skipBlanks (c :: rest).reverse,
          ⟨before, [], by rw [List.append_nil]; exact hsplit, hbefore, .nil blanks_nil⟩,
          hfirst, ?_, ?_⟩
        · rw [hback, List.reverse_concat, stopsAt_cons]
          simpa using hblank
        · intro hsuffix
          have hprefix : [']', '['] <+: c :: rest := by
            have hwhole : ['[', ']'] <:+ (c :: rest).reverse := by
              rw [hsplit]
              exact hsuffix.trans (List.suffix_append before _)
            simpa using List.reverse_prefix.mpr hwhole
          obtain ⟨tail, htail⟩ := hprefix
          obtain ⟨rfl, rfl⟩ := List.cons.inj htail
          exact hbrackets tail rfl rfl
  | case4 =>
      exact ⟨[], ⟨[], [], rfl, blanks_nil, .nil blanks_nil⟩, by simp [StopsAt], by simp [StopsAt],
        by simp⟩

theorem baseWord_iff (text : List Char) {word : List Char} :
    BaseWord text word ↔ trim (TypeExpr.splitBrackets text.reverse).2.reverse = word := by
  constructor
  · exact BaseWord.trim_splitBrackets
  · rintro rfl
    obtain ⟨word, hword⟩ := exists_baseWord text.reverse
    rw [List.reverse_reverse] at hword
    rw [hword.trim_splitBrackets]
    exact hword

theorem TypeExpr.ofWord?_eq_none_iff {word : String} :
    ofWord? word = none ↔ word ≠ "int" ∧ word ≠ "string" ∧ word ≠ "nil" := by
  unfold ofWord?
  split
  · next hint => simp [hint]
  · next hint =>
      split
      · next hstring => simp [hstring]
      · next hstring =>
          split
          · next hnil => simp [hnil]
          · next hnil => simp [hint, hstring, hnil]

theorem TypeExpr.parse_eq_error_iff {text : List Char} (fault : UnknownType) :
    parse text = .error fault ↔ UnknownTypeText text fault.word := by
  have hword := (baseWord_iff text).mpr rfl
  rw [UnknownTypeText, ← ofWord?_eq_none_iff, parse]
  dsimp only
  constructor
  · intro hparse
    split at hparse
    · cases hparse
    · next hnone =>
        obtain rfl := Except.error.inj hparse
        exact ⟨by simpa using hword, hnone⟩
  · rintro ⟨hbase, hnone⟩
    rw [(baseWord_iff text).mp hbase, String.ofList_toList, hnone]

theorem denotesType_iff {text : List Char} :
    DenotesType text ↔ ∃ type, TypeExpr.parse text = .ok type := by
  simp only [DenotesType, TypeExpr.parse_eq_ok_iff]

/-! ## What stands between the parameters -/

theorem takeGroup?_eq_none_iff {text : List Char} :
    takeGroup? text = none ↔
      ∀ group : Group, ∀ spelled later, group.IsSpelled spelled → text ≠ spelled ++ later := by
  constructor
  · rintro hnone group spelled later hgroup rfl
    rw [takeGroup?_eq_some_iff.mpr ⟨spelled, rfl, hgroup⟩] at hnone
    cases hnone
  · intro hnever
    cases htake : takeGroup? text with
    | none => rfl
    | some found =>
        obtain ⟨spelled, hsplit, hgroup⟩ := takeGroup?_eq_some_iff.mp htake
        exact absurd hsplit (hnever _ _ _ hgroup)

theorem leftoverText_iff (text : List Char) {stray : List Char} {groups : List Group} :
    LeftoverText text groups stray ↔ splitGroups text = (groups, stray) := by
  constructor
  · intro hleftover
    induction hleftover with
    | nil => rw [splitGroups]
    | group hgroup hrest ih =>
        rw [splitGroups_of_takeGroup? (takeGroup?_eq_some_iff.mpr ⟨_, rfl, hgroup⟩), ih]
    | stray hnone hrest ih =>
        rw [splitGroups_of_takeGroup?_eq_none (takeGroup?_eq_none_iff.mpr hnone), ih]
  · intro hsplit
    induction text using splitGroups.induct generalizing groups stray with
    | case1 =>
        rw [splitGroups] at hsplit
        obtain ⟨rfl, rfl⟩ := Prod.mk.inj hsplit
        exact .nil
    | case2 c tail group rest htake _ _ _ ih =>
        rw [splitGroups_of_takeGroup? htake] at hsplit
        obtain ⟨rfl, rfl⟩ := Prod.mk.inj hsplit
        obtain ⟨spelled, hspelled, hgroup⟩ := takeGroup?_eq_some_iff.mp htake
        rw [hspelled]
        exact .group hgroup (ih rfl)
    | case3 c tail htake _ _ _ ih =>
        rw [splitGroups_of_takeGroup?_eq_none htake] at hsplit
        obtain ⟨rfl, rfl⟩ := Prod.mk.inj hsplit
        exact .stray (takeGroup?_eq_none_iff.mp htake) (ih rfl)

theorem readParams_cons_eq_error_iff
    {function : String} {group : Group} {groups : List Group} {fault : DirectiveError} :
    readParams function (group :: groups) = .error fault ↔
      (∃ word, UnknownTypeText group.typeText word ∧ fault = .paramType function ⟨word⟩) ∨
      DenotesType group.typeText ∧ readParams function groups = .error fault := by
  have hunknown : ∀ word, UnknownTypeText group.typeText word ↔
      TypeExpr.parse group.typeText = .error ⟨word⟩ := by
    intro word
    exact (TypeExpr.parse_eq_error_iff ⟨word⟩).symm
  simp only [hunknown, denotesType_iff]
  rw [readParams]
  cases TypeExpr.parse group.typeText with
  | error found =>
      obtain ⟨word⟩ := found
      simp [eq_comm]
  | ok type => cases readParams function groups <;> simp

/-- The parameters are refused for the first of them whose type is unknown. -/
theorem readParams_eq_error_iff
    (function : String) {groups : List Group} {fault : DirectiveError} :
    readParams function groups = .error fault ↔
      ∃ known group later word, groups = known ++ group :: later ∧
        (∀ earlier ∈ known, DenotesType earlier.typeText) ∧
        UnknownTypeText group.typeText word ∧ fault = .paramType function ⟨word⟩ := by
  constructor
  · intro hread
    induction groups with
    | nil => cases hread
    | cons first rest ih =>
        rcases readParams_cons_eq_error_iff.mp hread with ⟨word, hword, hfault⟩ | ⟨hfirst, hlater⟩
        · exact ⟨[], first, rest, word, rfl, by simp, hword, hfault⟩
        · obtain ⟨known, group, later, word, rfl, hknown, hword, hfault⟩ := ih hlater
          exact ⟨first :: known, group, later, word, rfl,
            List.forall_mem_cons.mpr ⟨hfirst, hknown⟩, hword, hfault⟩
  · rintro ⟨known, group, later, word, rfl, hknown, hword, hfault⟩
    induction known with
    | nil => exact readParams_cons_eq_error_iff.mpr (.inl ⟨word, hword, hfault⟩)
    | cons first known ih =>
        rw [List.forall_mem_cons] at hknown
        exact readParams_cons_eq_error_iff.mpr (.inr ⟨hknown.1, ih hknown.2⟩)

/-! ## Shapes -/

theorem ConstantShape.read_eq_error_iff
    {shape : ConstantShape} {fault : DirectiveError} :
    shape.read = .error fault ↔
      ∃ found, readInteger shape.negative shape.digits = .error found ∧
        fault = .outOfRange shape.name found := by
  unfold ConstantShape.read
  cases readInteger shape.negative shape.digits with
  | error found => simp [eq_comm]
  | ok value => simp

variable {shape : FunctionShape} {fault : DirectiveError} {returns : TypeExpr}

theorem FunctionShape.read_of_stray
    (hreturns : TypeExpr.parse shape.head.typeText = .ok returns)
    (hstray : ¬ (trim (splitGroups shape.paramText).2).isEmpty) :
    shape.read = .error
      (.strayText shape.head.name (String.ofList (trim (splitGroups shape.paramText).2))) := by
  unfold FunctionShape.read
  rw [hreturns]
  exact if_neg hstray

theorem FunctionShape.read_eq_error_of_blank
    (hreturns : TypeExpr.parse shape.head.typeText = .ok returns)
    (hblank : (trim (splitGroups shape.paramText).2).isEmpty) :
    shape.read = .error fault ↔
      readParams shape.head.name (splitGroups shape.paramText).1 = .error fault := by
  unfold FunctionShape.read
  rw [hreturns]
  dsimp only
  rw [if_pos hblank]
  cases readParams shape.head.name (splitGroups shape.paramText).1 <;> simp

/-- A function is refused for its return type, for what stands between its parameters, or for
one of their types, in this order. -/
theorem FunctionShape.read_eq_error_iff :
    shape.read = .error fault ↔
      (∃ word, UnknownTypeText shape.head.typeText word ∧
        fault = .returnType shape.head.name ⟨word⟩) ∨
      DenotesType shape.head.typeText ∧ ∃ groups stray,
        LeftoverText shape.paramText groups stray ∧
          (¬ Blanks stray ∧
              fault = .strayText shape.head.name (String.ofList (trim stray)) ∨
            Blanks stray ∧ readParams shape.head.name groups = .error fault) := by
  have hstray := (leftoverText_iff shape.paramText).mpr rfl
  cases hreturns : TypeExpr.parse shape.head.typeText with
  | error unknown =>
      have hunknown := (TypeExpr.parse_eq_error_iff _).mp hreturns
      have hnone : ¬ DenotesType shape.head.typeText := by
        rw [denotesType_iff, hreturns]
        simp
      unfold FunctionShape.read
      rw [hreturns]
      constructor
      · intro hfault
        obtain rfl := Except.error.inj hfault
        exact .inl ⟨unknown.word, hunknown, rfl⟩
      · rintro (⟨word, hword, rfl⟩ | ⟨hdenotes, -⟩)
        · have hparse := (TypeExpr.parse_eq_error_iff ⟨word⟩).mpr hword
          rw [hreturns] at hparse
          rw [Except.error.inj hparse]
        · exact absurd hdenotes hnone
  | ok returns =>
      have hdenotes := denotesType_iff.mpr ⟨returns, hreturns⟩
      constructor
      · intro hread
        refine .inr ⟨hdenotes, _, _, hstray, ?_⟩
        by_cases hblank : (trim (splitGroups shape.paramText).2).isEmpty
        · have hparams := (FunctionShape.read_eq_error_of_blank hreturns hblank).mp hread
          exact .inr ⟨isEmpty_trim_iff.mp hblank, hparams⟩
        · rw [FunctionShape.read_of_stray hreturns hblank] at hread
          exact .inl ⟨mt isEmpty_trim_iff.mpr hblank, (Except.error.inj hread).symm⟩
      · rintro (⟨word, hword, -⟩ | ⟨-, groups, stray, hleftover, hfault⟩)
        · have hparse := (TypeExpr.parse_eq_error_iff ⟨word⟩).mpr hword
          rw [hreturns] at hparse
          cases hparse
        · have hsplit := (leftoverText_iff _).mp hleftover
          rcases hfault with ⟨hleft, rfl⟩ | ⟨hblanks, hread⟩
          · rw [FunctionShape.read_of_stray hreturns, hsplit]
            rw [hsplit]
            exact mt isEmpty_trim_iff.mp hleft
          · rw [FunctionShape.read_eq_error_of_blank hreturns, hsplit]
            · exact hread
            · rw [hsplit]
              exact isEmpty_trim_iff.mpr hblanks

theorem constantShape?_iff {text : List Char} {shape : ConstantShape} :
    constantShape? text = some shape ↔ shape.IsSpelled text := constantShape?_eq_some_iff

theorem functionShape?_iff {text : List Char} {shape : FunctionShape} :
    functionShape? text = some shape ↔ shape.IsSpelled text := functionShape?_eq_some_iff

/-! ## Refusals -/

/-- Reading refuses what one of the two shapes of the text holds, or a text of neither. -/
theorem Directive.read_eq_error_iff
    {text : String} {fault : DirectiveError} :
    Directive.read text = .error fault ↔
      (∃ shape : ConstantShape, shape.IsSpelled text.toList ∧ shape.read = .error fault) ∨
      (∃ shape : FunctionShape, shape.IsSpelled text.toList ∧ shape.read = .error fault) ∨
      (∀ shape : ConstantShape, ¬ shape.IsSpelled text.toList) ∧
        (∀ shape : FunctionShape, ¬ shape.IsSpelled text.toList) ∧
        fault = .unrecognised text := by
  simp only [← constantShape?_iff, ← functionShape?_iff]
  unfold Directive.read
  cases hconstant : constantShape? text.toList with
  | some shape =>
      have hfunction : functionShape? text.toList = none := by
        cases hshape : functionShape? text.toList with
        | none => rfl
        | some other =>
            rw [constantShape?_of_functionShape? hshape] at hconstant
            cases hconstant
      cases hread : shape.read <;> simp [hfunction, hread, Except.map]
  | none =>
      cases hfunction : functionShape? text.toList with
      | none => simp [eq_comm]
      | some shape => cases hread : shape.read <;> simp [hread, Except.map]

theorem Refusal.read_eq_error
    {text : String} {fault : DirectiveError} {message : String}
    (hrefusal : Refusal text.toList fault message) :
    Directive.read text = .error fault ∧ fault.message = message := by
  rw [Directive.read_eq_error_iff]
  cases hrefusal with
  | @outOfRange shape fault reason hshape hdigits =>
      obtain ⟨hread, rfl⟩ := readInteger_eq_error_iff.mp hdigits
      exact ⟨.inl ⟨shape, hshape, ConstantShape.read_eq_error_iff.mpr ⟨fault, hread, rfl⟩⟩, rfl⟩
  | @returnType shape word hshape hreturns =>
      exact ⟨.inr (.inl ⟨shape, hshape,
        FunctionShape.read_eq_error_iff.mpr (.inl ⟨word, hreturns, rfl⟩)⟩), rfl⟩
  | @strayText shape groups stray hshape hreturns hstray hleft =>
      exact ⟨.inr (.inl ⟨shape, hshape, FunctionShape.read_eq_error_iff.mpr
        (.inr ⟨hreturns, groups, stray, hstray, .inl ⟨hleft, rfl⟩⟩)⟩), rfl⟩
  | @paramType shape known later group stray word hshape hreturns hstray hblanks hknown
      hunknown =>
      have hparams :=
        (readParams_eq_error_iff shape.head.name).mpr
          ⟨known, group, later, word, rfl, hknown, hunknown, rfl⟩
      exact ⟨.inr (.inl ⟨shape, hshape, FunctionShape.read_eq_error_iff.mpr
        (.inr ⟨hreturns, _, stray, hstray, .inr ⟨hblanks, hparams⟩⟩)⟩), rfl⟩
  | unrecognised hconstant hfunction =>
      rw [String.ofList_toList]
      exact ⟨.inr (.inr ⟨hconstant, hfunction, rfl⟩), rfl⟩

theorem refusal_of_read_eq_error
    {text : String} {fault : DirectiveError} (hread : Directive.read text = .error fault) :
    Refusal text.toList fault fault.message := by
  rcases Directive.read_eq_error_iff.mp hread with
    ⟨shape, hshape, hfault⟩ | ⟨shape, hshape, hfault⟩ | ⟨hconstant, hfunction, rfl⟩
  · obtain ⟨found, hdigits, rfl⟩ := ConstantShape.read_eq_error_iff.mp hfault
    exact .outOfRange hshape (readInteger_eq_error_iff.mpr ⟨hdigits, rfl⟩)
  · rcases FunctionShape.read_eq_error_iff.mp hfault with
      ⟨word, hword, rfl⟩ | ⟨hreturns, groups, stray, hstray, hrest⟩
    · exact .returnType hshape hword
    · rcases hrest with ⟨hleft, rfl⟩ | ⟨hblanks, hparams⟩
      · exact .strayText hshape hreturns hstray hleft
      · obtain ⟨known, group, later, word, rfl, hknown, hword, rfl⟩ :=
          (readParams_eq_error_iff _).mp hparams
        exact .paramType hshape hreturns hstray hblanks hknown hword
  · have hrefusal := Refusal.unrecognised hconstant hfunction
    rwa [String.ofList_toList] at hrefusal

/-- A text is refused for exactly one reason with exactly one wording, unless it is the text of
a directive, and reading reports this reason. -/
theorem Directive.refused_for_one_reason (text : String) :
    (∀ fault message, Refusal text.toList fault message ↔
      Directive.read text = .error fault ∧ fault.message = message) ∧
    ((∀ directive, ¬ DirectiveText text.toList directive) ↔
      ∃! refusal : DirectiveError × String, Refusal text.toList refusal.1 refusal.2) := by
  have hiff :
      ∀ fault message, Refusal text.toList fault message ↔
        Directive.read text = .error fault ∧ fault.message = message := by
    intro fault message
    constructor
    · exact Refusal.read_eq_error
    · rintro ⟨hread, rfl⟩
      exact refusal_of_read_eq_error hread
  have haccepts : ∀ directive, Directive.read text = .ok directive ↔
      DirectiveText text.toList directive := by
    intro directive
    rw [Directive.read_eq_ok_iff]
    cases directive with
    | constant declared =>
        rw [directiveText_constant_iff]
        simp
    | function declared =>
        rw [directiveText_function_iff]
        simp
  refine ⟨hiff, ?_⟩
  simp only [hiff, ← haccepts]
  cases hread : Directive.read text with
  | ok directive => simp [ExistsUnique]
  | error fault =>
      simp only [reduceCtorEq, not_false_eq_true, implies_true, true_iff]
      refine ⟨(fault, fault.message), ⟨rfl, rfl⟩, ?_⟩
      rintro ⟨other, message⟩ ⟨hother, hmessage⟩
      obtain rfl := Except.error.inj hother
      exact Prod.ext rfl hmessage.symm

end ResourceHandles
