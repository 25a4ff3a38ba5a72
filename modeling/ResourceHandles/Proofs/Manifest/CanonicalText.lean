import ResourceHandles.Proofs.Manifest.DirectiveGrammar

/-!
# The text of a directive

The text in which a directive is written is one of the texts of the grammar, so reading
it gives the directive again.  It is a single line that starts and ends with a bracket.
-/

namespace ResourceHandles

open Text

/-- The names of a directive are names and its value is in range. -/
def Directive.Writable : Directive → Prop
  | .constant declared =>
    IsName declared.name.toList ∧ minInteger ≤ declared.value ∧ declared.value ≤ maxInteger
  | .function declared =>
    IsName declared.name.toList ∧ ∀ param ∈ declared.params, IsName param.name.toList

theorem blanks_space : Blanks [' '] := by
  simp [isBlank]

/-! ## Line feeds -/

theorem feed_notMem_of_isName
    {name : List Char} (hname : IsName name) : '\n' ∉ name := by
  obtain ⟨c, rest, rfl, hstart, hrest⟩ := hname
  intro hmem
  rcases List.mem_cons.mp hmem with rfl | hmem
  · exact absurd hstart (by decide)
  · exact absurd (hrest _ hmem) (by decide)

theorem TypeExpr.feed_notMem_text (type : TypeExpr) : '\n' ∉ type.text.toList := by
  induction type with
  | int => decide
  | string => decide
  | nil => decide
  | list element ih => simp [TypeExpr.text, ih]

theorem Param.feed_notMem_text
    {param : Param} (hname : IsName param.name.toList) : '\n' ∉ param.text.toList := by
  simp [Param.text, feed_notMem_of_isName hname, param.type.feed_notMem_text]

theorem notMem_intercalate
    {c : Char} {separator : List Char} {texts : List (List Char)} (hseparator : c ∉ separator)
    (htexts : ∀ text ∈ texts, c ∉ text) :
    c ∉ separator.intercalate texts := by
  induction texts with
  | nil => simp
  | cons text rest ih =>
      rw [List.forall_mem_cons] at htexts
      cases rest with
      | nil => simpa using htexts.1
      | cons next rest =>
          have hrest := ih htexts.2
          simp [htexts.1, hseparator, hrest]

theorem feed_notMem_params
    {params : List Param} (hnames : ∀ param ∈ params, IsName param.name.toList) :
    '\n' ∉ (String.intercalate " " (params.map Param.text)).toList := by
  rw [String.toList_intercalate]
  apply notMem_intercalate (by decide)
  intro text hmem
  obtain ⟨shown, hshown, rfl⟩ := List.mem_map.mp hmem
  obtain ⟨param, hparam, rfl⟩ := List.mem_map.mp hshown
  exact Param.feed_notMem_text (hnames param hparam)

theorem feed_notMem_toString
    {value : Int} (hlow : minInteger ≤ value) (hhigh : value ≤ maxInteger) :
    '\n' ∉ (toString value).toList := by
  have hnumeral := numeralText_toString hlow hhigh
  have hdigit : ¬IsAsciiDigit '\n' := by
    unfold IsAsciiDigit
    decide
  intro hmem
  generalize (toString value).toList = text at hnumeral hmem
  cases hnumeral with
  | natural _ hdigits => exact hdigit (hdigits _ hmem)
  | negative _ hdigits =>
      rcases List.mem_cons.mp hmem with hminus | hmem
      · cases hminus
      · exact hdigit (hdigits _ hmem)

/-! ## Texts of the grammar -/

theorem TypeExpr.typeText_text (type : TypeExpr) : TypeText type.text.toList type := by
  induction type with
  | int => exact .int
  | string => exact .string
  | nil => exact .nil
  | list element ih =>
      have hlist := TypeText.list ih blanks_nil
      simpa [TypeExpr.text] using hlist

theorem TypeExpr.parse_text (type : TypeExpr) : parse type.text.toList = .ok type :=
  parse_eq_ok_iff.mpr
    ⟨[], type.text.toList, [], by simp, blanks_nil, type.typeText_text, blanks_nil⟩

theorem Param.typedNameText_text
    {param : Param} (hname : IsName param.name.toList) :
    TypedNameText param.text.toList param.name param.type := by
  have htyped :=
    TypedNameText.intro blanks_nil hname blanks_nil blanks_space param.type.typeText_text
      blanks_nil
  simpa [Param.text] using htyped

theorem paramsText_text
    {params : List Param} (hnames : ∀ param ∈ params, IsName param.name.toList)
    {gap : List Char} (hgap : Blanks gap) :
    ParamsText (gap ++ (String.intercalate " " (params.map Param.text)).toList) params := by
  induction params generalizing gap with
  | nil => simpa using ParamsText.nil hgap
  | cons param rest ih =>
      rw [List.forall_mem_cons] at hnames
      have hparam := Param.typedNameText_text hnames.1
      cases rest with
      | nil => simpa using ParamsText.cons hgap hparam (.nil blanks_nil)
      | cons next rest =>
          have hrest := ih hnames.2 blanks_space
          simpa using ParamsText.cons hgap hparam hrest

theorem Directive.Writable.directiveText
    {directive : Directive} (hwritable : directive.Writable) :
    DirectiveText directive.text.toList directive := by
  cases directive with
  | constant declared =>
      obtain ⟨hname, hlow, hhigh⟩ := hwritable
      have htext :=
        DirectiveText.constant (List.cons_ne_nil _ _) blanks_space hname (List.cons_ne_nil _ _)
          blanks_space (numeralText_toString hlow hhigh) blanks_nil
      simpa [Directive.text] using htext
  | function declared =>
      obtain ⟨hname, hparams⟩ := hwritable
      have hhead :
          TypedNameText (Param.text ⟨declared.name, declared.returns⟩).toList declared.name
            declared.returns :=
        Param.typedNameText_text hname
      have htext :=
        DirectiveText.function (List.cons_ne_nil _ _) blanks_space hhead blanks_space
          (paramsText_text hparams blanks_nil) (feed_notMem_params hparams) blanks_nil
      simpa [Directive.text, Param.text] using htext

/-- Reading the text of a directive gives the directive again. -/
theorem Directive.Writable.read_text
    {directive : Directive} (hwritable : directive.Writable) :
    Directive.read directive.text = .ok directive := by
  have htext := hwritable.directiveText
  rw [Directive.read_eq_ok_iff]
  cases directive with
  | constant declared =>
      obtain ⟨shape, hshape, hread⟩ := directiveText_constant_iff.mp htext
      exact Or.inl ⟨shape, declared, hshape, hread, rfl⟩
  | function declared =>
      obtain ⟨shape, hshape, hread⟩ := directiveText_function_iff.mp htext
      exact Or.inr ⟨shape, declared, hshape, hread, rfl⟩

/-! ## The outside of a text -/

theorem Directive.Writable.feed_notMem_text
    {directive : Directive} (hwritable : directive.Writable) :
    '\n' ∉ directive.text.toList := by
  cases directive with
  | constant declared =>
      obtain ⟨hname, hlow, hhigh⟩ := hwritable
      simp only [Directive.text, String.toList_append, List.mem_append, not_or]
      exact ⟨⟨⟨⟨by decide, feed_notMem_of_isName hname⟩, by decide⟩,
        feed_notMem_toString hlow hhigh⟩, by decide⟩
  | function declared =>
      obtain ⟨hname, hparams⟩ := hwritable
      simp only [Directive.text, String.toList_append, List.mem_append, not_or]
      exact ⟨⟨⟨⟨⟨⟨by decide, feed_notMem_of_isName hname⟩, by decide⟩,
        declared.returns.feed_notMem_text⟩, by decide⟩, feed_notMem_params hparams⟩, by decide⟩

theorem Directive.exists_text_eq (directive : Directive) :
    ∃ rest, directive.text.toList = '(' :: rest := by
  cases directive with
  | constant declared =>
      simp only [Directive.text, String.toList_append]
      exact ⟨_, rfl⟩
  | function declared =>
      simp only [Directive.text, String.toList_append]
      exact ⟨_, rfl⟩

theorem Directive.exists_reverse_text_eq (directive : Directive) :
    ∃ rest, directive.text.toList.reverse = ')' :: rest := by
  cases directive with
  | constant declared =>
      simp only [Directive.text, String.toList_append, List.reverse_append]
      exact ⟨_, rfl⟩
  | function declared =>
      simp only [Directive.text, String.toList_append, List.reverse_append]
      exact ⟨_, rfl⟩

end ResourceHandles
