import ResourceHandles.Manifest.Extraction
import ResourceHandles.Proofs.Manifest.CanonicalText
import ResourceHandles.Proofs.Text.Lines

/-!
# Annotated source text

A source text is annotated with directives if each of them stands on a line of its own
behind the marker, with other lines between them that do not pass for directives.
Extracting the directives and reading them gives back exactly the directives that the
text is annotated with.
-/

namespace ResourceHandles

open Text

/-- Blanks within a line. -/
def Gap (text : List Char) : Prop :=
  Blanks text ∧ '\n' ∉ text

/-- A line that is no directive line: it does not start with the marker, or it is
documentation. -/
def IsSilent (marker line : List Char) : Prop :=
  ¬marker <+: trim line ∨
    (marker = ['/', '/'] ∧ (['/', '/', '/'] <+: trim line ∨ ['/', '/', '!'] <+: trim line))

/-- A source text with directives behind a marker, in the order in which they stand. -/
inductive AnnotatedSource (marker : List Char) : List Char → List Directive → Prop where
  | nil : AnnotatedSource marker [] []
  | directive {lead gap tail ending rest : List Char} {directive : Directive}
      {directives : List Directive}
      (hlead : Gap lead) (hgap : Gap gap) (htail : Gap tail) (hending : LineEnd ending)
      (hrest : AnnotatedSource marker rest directives) :
      AnnotatedSource marker
        (lead ++ marker ++ gap ++ directive.text.toList ++ tail ++ ending ++ rest)
        (directive :: directives)
  | silent {line ending rest : List Char} {directives : List Directive}
      (hline : '\n' ∉ line) (hsilent : IsSilent marker line) (hending : LineEnd ending)
      (hrest : AnnotatedSource marker rest directives) :
      AnnotatedSource marker (line ++ ending ++ rest) directives
  | bare {line ending rest : List Char} {directives : List Directive}
      (hline : '\n' ∉ line) (hbare : trim line = marker) (hending : LineEnd ending)
      (hrest : AnnotatedSource marker rest directives) :
      AnnotatedSource marker (line ++ ending ++ rest) directives

/-! ## What a line says -/

theorem directiveBody?_congr
    {marker line other : List Char} (htrim : trim line = trim other) :
    directiveBody? marker line = directiveBody? marker other := by
  unfold directiveBody?
  rw [htrim]

theorem isDocumentation_eq_false
    {marker rest : List Char} (hrest : StopsAt (fun c => c == '/' || c == '!') rest) :
    isDocumentation marker rest = false := by
  cases rest with
  | nil => simp [isDocumentation]
  | cons c rest =>
      have hother := stopsAt_cons.mp hrest
      simp only [Bool.or_eq_false_iff, beq_eq_false_iff_ne] at hother
      simp [isDocumentation, hother.1, hother.2]

theorem IsSilent.directiveBody?
    {marker line : List Char} (hsilent : IsSilent marker line) :
    directiveBody? marker line = none := by
  unfold ResourceHandles.directiveBody?
  cases hdrop : dropWord? marker (trim line) with
  | none => rfl
  | some rest =>
      have hsplit := dropWord?_eq_some_iff.mp hdrop
      rcases hsilent with hother | ⟨rfl, ⟨after, hafter⟩ | ⟨after, hafter⟩⟩
      · exact absurd ⟨rest, hsplit.symm⟩ hother
      · obtain rfl : rest = '/' :: after := by simpa [← hafter] using hsplit.symm
        rfl
      · obtain rfl : rest = '!' :: after := by simpa [← hafter] using hsplit.symm
        rfl

theorem directiveBody?_bare
    {marker line : List Char} (hbare : trim line = marker) :
    directiveBody? marker line = some [] := by
  unfold directiveBody?
  rw [hbare, dropWord?_eq_some_iff.mpr (List.append_nil marker).symm]
  have hempty : isDocumentation marker [] = false := isDocumentation_eq_false (by simp [StopsAt])
  simp only [hempty, Bool.false_eq_true, if_false]
  rfl

theorem trim_text
    {before after : List Char} (hbefore : Blanks before) (hafter : Blanks after)
    (directive : Directive) :
    trim (before ++ directive.text.toList ++ after) = directive.text.toList := by
  obtain ⟨rest, htext⟩ := directive.exists_text_eq
  obtain ⟨back, hback⟩ := directive.exists_reverse_text_eq
  apply trim_append hbefore hafter
  · rw [htext]
    exact stopsAt_cons.mpr (by decide)
  · rw [hback]
    exact stopsAt_cons.mpr (by decide)

/-- Trimmed, a directive line starts with the marker; an empty marker loses the blanks
behind it. -/
theorem exists_trim_directive
    {marker lead gap tail : List Char} (hmarker : StopsAt isBlank marker)
    (hlead : Blanks lead) (hgap : Blanks gap) (htail : Blanks tail) (directive : Directive) :
    ∃ padding, Blanks padding ∧
      trim (lead ++ marker ++ gap ++ directive.text.toList ++ tail) =
        marker ++ (padding ++ directive.text.toList) := by
  cases marker with
  | nil =>
      refine ⟨[], blanks_nil, ?_⟩
      rw [List.append_nil]
      exact trim_text (blanks_append.mpr ⟨hlead, hgap⟩) htail directive
  | cons c marker =>
      obtain ⟨back, hback⟩ := directive.exists_reverse_text_eq
      refine ⟨gap, hgap, ?_⟩
      have htrim :
          trim (lead ++ (c :: marker ++ (gap ++ directive.text.toList)) ++ tail) =
            c :: marker ++ (gap ++ directive.text.toList) := by
        apply trim_append hlead htail
        · exact stopsAt_cons.mpr (stopsAt_cons.mp hmarker)
        · rw [List.reverse_append, List.reverse_append, hback]
          exact stopsAt_cons.mpr (by decide)
      simpa using htrim

/-- A directive line says the text of its directive. -/
theorem directiveBody?_directive
    {marker lead gap tail : List Char} (hmarker : StopsAt isBlank marker)
    (hlead : Blanks lead) (hgap : Blanks gap) (htail : Blanks tail) (directive : Directive) :
    directiveBody? marker (lead ++ marker ++ gap ++ directive.text.toList ++ tail) =
      some directive.text.toList := by
  obtain ⟨padding, hpadding, htrim⟩ :=
    exists_trim_directive hmarker hlead hgap htail directive
  have hplain : isDocumentation marker (padding ++ directive.text.toList) = false := by
    have hclass : ∀ c, isBlank c = true → (c == '/' || c == '!') = false := by
      intro c hblank
      exact eq_of_isBlank (p := fun c => c == '/' || c == '!') (by decide) hblank
    obtain ⟨rest, htext⟩ := directive.exists_text_eq
    apply isDocumentation_eq_false
    apply stopsAt_append_of_blanks hclass hpadding
    rw [htext]
    exact stopsAt_cons.mpr (by decide)
  have hbody := trim_text hpadding blanks_nil directive
  rw [List.append_nil] at hbody
  unfold directiveBody?
  rw [htrim, dropWord?_eq_some_iff.mpr rfl]
  simp only [hplain, Bool.false_eq_true, if_false, hbody]

/-! ## What a source text says -/

theorem extract_append_lineEnd
    {line ending : List Char} (hline : '\n' ∉ line) (hending : LineEnd ending)
    (marker rest : List Char) :
    (lines (line ++ ending ++ rest)).filterMap (directiveBody? marker) =
      (directiveBody? marker line).toList ++ (lines rest).filterMap (directiveBody? marker) := by
  obtain ⟨first, hlines, htrim⟩ := lines_append_lineEnd hline hending rest
  rw [hlines, List.filterMap_cons, directiveBody?_congr htrim]
  cases directiveBody? marker line with
  | none => rfl
  | some body => rfl

theorem readDirectives_cons_text
    {directive : Directive} {directives : List Directive} {texts : List String}
    (hwritable : directive.Writable) (hrest : readDirectives texts = .ok directives) :
    readDirectives (directive.text :: texts) = .ok (directive :: directives) := by
  obtain ⟨rest, htext⟩ := directive.exists_text_eq
  have hne : ¬directive.text.isEmpty = true := by
    intro hempty
    rw [String.isEmpty_iff.mp hempty] at htext
    cases htext
  rw [readDirectives, if_neg hne, hwritable.read_text, hrest]

/-- Whatever lines stand between them, the directives written in a source text are read
back, each of them once and in their order. -/
theorem readDirectives_extract
    {source marker : String} {directives : List Directive}
    (hwritable : ∀ directive ∈ directives, directive.Writable)
    (hfeed : '\n' ∉ marker.toList) (hmarker : StopsAt isBlank marker.toList)
    (hsource : AnnotatedSource marker.toList source.toList directives) :
    readDirectives (extract source marker) = .ok directives := by
  unfold extract
  generalize source.toList = text at hsource
  induction hsource with
  | nil => rfl
  | @directive lead gap tail ending rest directive directives hlead hgap htail hending _ ih =>
      rw [List.forall_mem_cons] at hwritable
      have hline : '\n' ∉ lead ++ marker.toList ++ gap ++ directive.text.toList ++ tail := by
        simp [hlead.2, hfeed, hgap.2, htail.2, hwritable.1.feed_notMem_text]
      rw [extract_append_lineEnd hline hending,
        directiveBody?_directive hmarker hlead.1 hgap.1 htail.1 directive]
      simpa using readDirectives_cons_text hwritable.1 (ih hwritable.2)
  | silent hline hsilent hending _ ih =>
      rw [extract_append_lineEnd hline hending, hsilent.directiveBody?]
      exact ih hwritable
  | bare hline hbare hending _ ih =>
      rw [extract_append_lineEnd hline hending, directiveBody?_bare hbare]
      exact ih hwritable

/-- A flag and its function, between documentation, code and a marker alone. -/
theorem readDirectives_extract_flagged :
    let flag : Directive := .constant ⟨"open_async", 1⟩
    let function : Directive :=
      .function ⟨"open", .int, [⟨"path", .string⟩, ⟨"opts", .list .int⟩]⟩
    let source :=
      "//! Calls.\r\n\t//(def open_async 1) \r\nfn open();\n  //\n" ++
        "// (defun (open: int) [(path: string) (opts: int[])])\n"
    (∀ directive ∈ [flag, function], directive.Writable) ∧ '\n' ∉ "//".toList ∧
      StopsAt isBlank "//".toList ∧
        AnnotatedSource "//".toList source.toList [flag, function] ∧
          readDirectives (extract source "//") = .ok [flag, function] := by
  intro flag function source
  have hname : ∀ c rest, isNameStart c = true → (∀ d ∈ rest, isNameChar d = true) →
      IsName (c :: rest) := fun c rest hstart hrest => ⟨c, rest, rfl, hstart, hrest⟩
  have hwritable : ∀ directive ∈ [flag, function], directive.Writable := by
    intro directive hmem
    rcases List.mem_cons.mp hmem with rfl | hmem
    · have hflagName := hname 'o' "pen_async".toList (by decide) (List.all_eq_true.mp rfl)
      exact ⟨hflagName, by decide, by decide⟩
    · rcases List.mem_singleton.mp hmem with rfl
      refine ⟨hname 'o' "pen".toList (by decide) (List.all_eq_true.mp rfl), ?_⟩
      intro param hparam
      simp only [List.mem_cons, List.not_mem_nil, or_false] at hparam
      rcases hparam with rfl | rfl
      · exact hname 'p' "ath".toList (by decide) (List.all_eq_true.mp rfl)
      · exact hname 'o' "pts".toList (by decide) (List.all_eq_true.mp rfl)
  have hfeed : '\n' ∉ "//".toList := by decide
  have hmarker : StopsAt isBlank "//".toList := stopsAt_cons.mpr (by decide)
  have hnone : Gap [] := ⟨blanks_nil, List.not_mem_nil⟩
  have hspace : Gap [' '] := ⟨blanks_space, by decide⟩
  have htab : Gap ['\t'] := ⟨by simp [isBlank], by decide⟩
  have hsource : AnnotatedSource "//".toList source.toList [flag, function] := by
    have htext :
        source.toList =
          "//! Calls.".toList ++ ['\r', '\n'] ++
            (['\t'] ++ "//".toList ++ [] ++ flag.text.toList ++ [' '] ++ ['\r', '\n'] ++
              ("fn open();".toList ++ ['\n'] ++
                ("  //".toList ++ ['\n'] ++
                  ([] ++ "//".toList ++ [' '] ++ function.text.toList ++ [] ++ ['\n'] ++
                    [])))) := by
      decide +kernel +zetaReduce
    rw [htext]
    apply AnnotatedSource.silent (by decide) _ .returnFeed
    · apply AnnotatedSource.directive htab hnone hspace .returnFeed
      apply AnnotatedSource.silent (by decide) _ .feed
      · apply AnnotatedSource.bare (by decide) _ .feed
        · exact AnnotatedSource.directive hnone hspace hnone .feed .nil
        · decide +kernel
      · exact Or.inl (by decide +kernel)
    · exact Or.inr ⟨rfl, Or.inr (by decide +kernel)⟩
  exact ⟨hwritable, hfeed, hmarker, hsource,
    readDirectives_extract hwritable hfeed hmarker hsource⟩

end ResourceHandles
