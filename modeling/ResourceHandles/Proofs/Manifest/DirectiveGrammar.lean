import ResourceHandles.Manifest.Reading
import ResourceHandles.Proofs.Manifest.ShapeText
import ResourceHandles.Proofs.Manifest.TypeText
import Mathlib.Tactic

/-!
# The grammar of directives

The grammar is given as relations between texts and what they declare, without
a word about how they are read.  The main theorem says that reading accepts the
texts of the grammar and no others, and that it returns what the grammar says
they declare.

The shapes carry the proof: a text has a shape exactly if it spells it, and
what the shape holds is then read by the theorems on type texts and numerals.
-/

namespace ResourceHandles

open Text

/-- `(NAME: TYPE)`, with blanks wherever two parts meet. -/
inductive TypedNameText : List Char → String → TypeExpr → Prop where
  | intro {gap name gap' before type after : List Char} {denoted : TypeExpr}
      (hgap : Blanks gap) (hname : IsName name) (hgap' : Blanks gap')
      (hbefore : Blanks before) (htype : TypeText type denoted)
      (hafter : Blanks after) :
      TypedNameText
        ('(' :: (gap ++ (name ++ (gap' ++
          ':' :: ((before ++ type ++ after) ++ [')'])))))
        (String.ofList name) denoted

/-- Blanks, and then the parameters in order with blanks behind each of
them. -/
inductive ParamsText : List Char → List Param → Prop where
  | nil {gap : List Char} (hgap : Blanks gap) : ParamsText gap []
  | cons {gap param rest : List Char} {name : String} {type : TypeExpr}
      {params : List Param}
      (hgap : Blanks gap) (hparam : TypedNameText param name type)
      (hrest : ParamsText rest params) :
      ParamsText (gap ++ (param ++ rest)) (⟨name, type⟩ :: params)

/-- The texts of a directive: `(def NAME NUMERAL)` and
`(defun (NAME: TYPE) [PARAMETERS])`. -/
inductive DirectiveText : List Char → Directive → Prop where
  | constant {gap name gap' numeral gap'' : List Char} {value : Int}
      (hne : gap ≠ []) (hgap : Blanks gap) (hname : IsName name)
      (hne' : gap' ≠ []) (hgap' : Blanks gap')
      (hnumeral : NumeralText numeral value) (hgap'' : Blanks gap'') :
      DirectiveText
        ("(def".toList ++ (gap ++ (name ++ (gap' ++ (numeral ++
          (gap'' ++ [')']))))))
        (.constant ⟨String.ofList name, value⟩)
  | function {gap head gap' list gap'' : List Char} {name : String}
      {returns : TypeExpr} {params : List Param}
      (hne : gap ≠ []) (hgap : Blanks gap)
      (hhead : TypedNameText head name returns) (hgap' : Blanks gap')
      (hparams : ParamsText list params) (hfeed : '\n' ∉ list)
      (hgap'' : Blanks gap'') :
      DirectiveText
        ("(defun".toList ++ (gap ++ (head ++ (gap' ++
          '[' :: (list ++ ']' :: (gap'' ++ [')']))))))
        (.function ⟨name, returns, params⟩)

/-! ## Typed names -/

theorem TypeText.ne_nil
    {text : List Char} {type : TypeExpr} (htext : TypeText text type) :
    text ≠ [] := by
  cases htext <;> simp

theorem TypeText.isTypeChar
    {text : List Char} {type : TypeExpr} (htext : TypeText text type) :
    ∀ c ∈ text, isTypeChar c = true := by
  induction htext with
  | int => exact List.all_eq_true.mp rfl
  | string => exact List.all_eq_true.mp rfl
  | nil => exact List.all_eq_true.mp rfl
  | list _ hgap ih =>
      intro c hc
      simp only [List.mem_append] at hc
      rcases hc with (hc | hc) | hc
      · exact ih c hc
      · exact eq_of_isBlank (by decide) (hgap c hc)
      · exact List.all_eq_true.mp rfl c hc

theorem typedNameText_iff
    {text : List Char} {name : String} {type : TypeExpr} :
    TypedNameText text name type ↔
      ∃ group : Group, group.IsSpelled text ∧ group.name = name ∧
        TypeExpr.parse group.typeText = .ok type := by
  constructor
  · rintro ⟨hgap, hname, hgap', hbefore, htype, hafter⟩
    rename_i gap name gap' before type after
    refine ⟨⟨String.ofList name, before ++ type ++ after⟩,
      ⟨gap, name, gap', rfl, hgap, hname, hgap', rfl, ?_, ?_⟩, rfl,
      TypeExpr.parse_eq_ok_iff.mpr
        ⟨before, type, after, rfl, hbefore, htype, hafter⟩⟩
    · simp [htype.ne_nil]
    · intro c hc
      simp only [List.mem_append] at hc
      rcases hc with (hc | hc) | hc
      · exact eq_of_isBlank (by decide) (hbefore c hc)
      · exact htype.isTypeChar c hc
      · exact eq_of_isBlank (by decide) (hafter c hc)
  · rintro ⟨group, ⟨gap, name, gap', rfl, hgap, hisName, hgap', hname, -, -⟩,
      rfl, hparse⟩
    obtain ⟨before, core, after, hsplit, hbefore, hcore, hafter⟩ :=
      TypeExpr.parse_eq_ok_iff.mp hparse
    rw [hname, hsplit]
    exact .intro hgap hisName hgap' hbefore hcore hafter

/-! ## Parameters -/

theorem readParams_cons_eq_ok_iff
    {function : String} {group : Group} {groups : List Group}
    {params : List Param} :
    readParams function (group :: groups) = .ok params ↔
      ∃ type rest, TypeExpr.parse group.typeText = .ok type ∧
        readParams function groups = .ok rest ∧
        params = ⟨group.name, type⟩ :: rest := by
  rw [readParams]
  cases htype : TypeExpr.parse group.typeText with
  | error fault => simp
  | ok type =>
      cases hrest : readParams function groups with
      | error fault => simp
      | ok rest =>
          simp [eq_comm]

theorem paramsText_iff
    (function : String) {text : List Char} {params : List Param} :
    ParamsText text params ↔
      ∃ groups, GroupsText text groups ∧
        readParams function groups = .ok params := by
  constructor
  · intro hparams
    induction hparams with
    | nil hgap => exact ⟨[], .nil hgap, rfl⟩
    | @cons gap param rest name type params hgap hparam hrest ih =>
        obtain ⟨group, hspelled, rfl, hparse⟩ := typedNameText_iff.mp hparam
        obtain ⟨groups, hgroups, hread⟩ := ih
        exact ⟨group :: groups, .cons hgap hspelled hgroups,
          readParams_cons_eq_ok_iff.mpr ⟨type, params, hparse, hread, rfl⟩⟩
  · rintro ⟨groups, hgroups, hread⟩
    induction hgroups generalizing params with
    | nil hgap =>
        obtain rfl := Except.ok.inj hread
        exact .nil hgap
    | cons hgap hspelled hrest ih =>
        obtain ⟨type, later, hparse, hlater, rfl⟩ :=
          readParams_cons_eq_ok_iff.mp hread
        exact .cons hgap
          (typedNameText_iff.mpr ⟨_, hspelled, rfl, hparse⟩) (ih hlater)

/-! ## What the shapes hold -/

theorem ConstantShape.read_eq_ok_iff
    {shape : ConstantShape} {declared : Constant} :
    shape.read = .ok declared ↔
      ∃ value, readInteger shape.negative shape.digits = .ok value ∧
        declared = ⟨shape.name, value⟩ := by
  unfold ConstantShape.read
  cases readInteger shape.negative shape.digits with
  | error fault => simp
  | ok value => simp [eq_comm]

theorem FunctionShape.read_eq_ok_iff
    {shape : FunctionShape} {declared : FunctionDecl} :
    shape.read = .ok declared ↔
      ∃ returns params, TypeExpr.parse shape.head.typeText = .ok returns ∧
        ParamsText shape.paramText params ∧
        declared = ⟨shape.head.name, returns, params⟩ := by
  unfold FunctionShape.read
  simp only
  cases hreturns : TypeExpr.parse shape.head.typeText with
  | error fault => simp
  | ok returns =>
      simp only
      constructor
      · intro hread
        split at hread
        next hstray =>
          have hgroups :=
            splitGroups_blanks_iff.mp ⟨rfl, isEmpty_trim_iff.mp hstray⟩
          split at hread
          next => simp at hread
          next params hparams =>
            obtain rfl := Except.ok.inj hread
            exact ⟨returns, params, rfl,
              (paramsText_iff shape.head.name).mpr ⟨_, hgroups, hparams⟩, rfl⟩
        next => simp at hread
      · rintro ⟨returns', params, hreturns', hparams, rfl⟩
        obtain rfl := Except.ok.inj hreturns'
        obtain ⟨groups, hgroups, hread⟩ :=
          (paramsText_iff shape.head.name).mp hparams
        obtain ⟨rfl, hstray⟩ := splitGroups_blanks_iff.mpr hgroups
        rw [if_pos (isEmpty_trim_iff.mpr hstray), hread]

/-! ## Directives -/

theorem directiveText_constant_iff
    {text : List Char} {declared : Constant} :
    DirectiveText text (.constant declared) ↔
      ∃ shape, constantShape? text = some shape ∧
        shape.read = .ok declared := by
  constructor
  · intro htext
    cases htext with
    | @constant gap name gap' numeral gap'' value hne hgap hname hne' hgap'
        hnumeral hgap'' =>
        obtain ⟨negative, digits, rfl, hdigits, hread⟩ :=
          numeralText_iff.mp hnumeral
        have hascii := (readInteger_eq_ok_iff.mp hread).1
        refine ⟨⟨String.ofList name, negative, digits⟩,
          constantShape?_eq_some_iff.mpr
            ⟨gap, name, gap', gap'', by simp, hne, hgap, hname, hne', hgap',
              hgap'', rfl, hdigits, ?_⟩,
          ConstantShape.read_eq_ok_iff.mpr ⟨value, hread, rfl⟩⟩
        intro c hc
        exact isDecimalDigit_of_isAsciiDigit (hascii c hc)
  · rintro ⟨shape, hshape, hread⟩
    obtain ⟨gap, name, gap', gap'', rfl, hne, hgap, hisName, hne', hgap',
      hgap'', hname, hdigits, -⟩ := constantShape?_eq_some_iff.mp hshape
    obtain ⟨value, hvalue, rfl⟩ := ConstantShape.read_eq_ok_iff.mp hread
    have hnumeral :=
      numeralText_iff.mpr ⟨shape.negative, shape.digits, rfl, hdigits, hvalue⟩
    have htext :=
      DirectiveText.constant hne hgap hisName hne' hgap' hnumeral hgap''
    rw [hname]
    simpa using htext

theorem directiveText_function_iff
    {text : List Char} {declared : FunctionDecl} :
    DirectiveText text (.function declared) ↔
      ∃ shape, functionShape? text = some shape ∧
        shape.read = .ok declared := by
  constructor
  · intro htext
    cases htext with
    | @function gap head gap' list gap'' name returns params hne hgap hhead
        hgap' hparams hfeed hgap'' =>
        obtain ⟨group, hspelled, rfl, hparse⟩ := typedNameText_iff.mp hhead
        exact ⟨⟨group, list⟩,
          functionShape?_eq_some_iff.mpr
            ⟨gap, head, gap', gap'', rfl, hne, hgap, hspelled, hgap', hgap'',
              hfeed⟩,
          FunctionShape.read_eq_ok_iff.mpr
            ⟨returns, params, hparse, hparams, rfl⟩⟩
  · rintro ⟨shape, hshape, hread⟩
    obtain ⟨gap, spelled, gap', gap'', rfl, hne, hgap, hspelled, hgap', hgap'',
      hfeed⟩ := functionShape?_eq_some_iff.mp hshape
    obtain ⟨returns, params, hparse, hparams, rfl⟩ :=
      FunctionShape.read_eq_ok_iff.mp hread
    have hhead := typedNameText_iff.mpr ⟨shape.head, hspelled, rfl, hparse⟩
    exact .function hne hgap hhead hgap' hparams hfeed hgap''

/-- Reading returns what one of the two shapes of the text holds. -/
theorem Directive.read_eq_ok_iff
    {text : String} {directive : Directive} :
    Directive.read text = .ok directive ↔
      (∃ shape declared, constantShape? text.toList = some shape ∧
        shape.read = .ok declared ∧ directive = .constant declared) ∨
      ∃ shape declared, functionShape? text.toList = some shape ∧
        shape.read = .ok declared ∧ directive = .function declared := by
  unfold Directive.read
  cases hconstant : constantShape? text.toList with
  | some shape =>
      have hfunction : functionShape? text.toList = none := by
        cases hshape : functionShape? text.toList with
        | none => rfl
        | some other =>
            rw [constantShape?_of_functionShape? hshape] at hconstant
            contradiction
      cases hread : shape.read with
      | error fault => simp [hfunction, hread, Except.map]
      | ok declared => simp [hfunction, hread, Except.map, eq_comm]
  | none =>
      cases hfunction : functionShape? text.toList with
      | none => simp
      | some shape =>
          cases hread : shape.read with
          | error fault => simp [hread, Except.map]
          | ok declared => simp [hread, Except.map, eq_comm]

/-- Reading accepts exactly the texts of the grammar and returns what they
declare; so no text declares two things. -/
theorem Directive.read_accepts_grammar (text : String) :
    (∀ directive, Directive.read text = .ok directive ↔
      DirectiveText text.toList directive) ∧
    ∀ directive other, DirectiveText text.toList directive →
      DirectiveText text.toList other → directive = other := by
  have hiff :
      ∀ directive, Directive.read text = .ok directive ↔
        DirectiveText text.toList directive := by
    intro directive
    rw [Directive.read_eq_ok_iff]
    cases directive with
    | constant declared =>
        rw [directiveText_constant_iff]
        simp
    | function declared =>
        rw [directiveText_function_iff]
        simp
  refine ⟨hiff, ?_⟩
  intro directive other hdirective hother
  have hread := (hiff directive).mpr hdirective
  rw [(hiff other).mpr hother] at hread
  exact (Except.ok.inj hread).symm

end ResourceHandles
