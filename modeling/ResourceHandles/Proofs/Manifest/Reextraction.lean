import ResourceHandles.Manifest.Rendering
import ResourceHandles.Proofs.CommandLine.Formats
import ResourceHandles.Proofs.Manifest.AnnotatedSource

/-!
# Extracting what was extracted

What was extracted from a source may be written down again, each piece on a line of its own
behind the marker and a space.  Extracting from that text gives the same pieces, whatever the
source and the marker look like.  A marker that starts with a blank or holds a line feed is
found on no line, and one that ends with a blank only on lines that say something; so the lines
that are written down are all found again.
-/

namespace ResourceHandles

open Text

/-- Directives on lines of their own, each behind the marker and a space. -/
def annotate (marker : String) (directives : List String) : String :=
  renderLines (directives.map fun directive => marker ++ " " ++ directive)

/-! ## Trimmed texts -/

theorem Text.stopsAt_trim (text : List Char) : StopsAt isBlank (trim text) := by
  intro c hc
  have hsuffix : (trim text).reverse <:+ (skipBlanks text).reverse := by
    unfold trim dropTrailingBlanks
    rw [List.reverse_reverse]
    exact List.dropWhile_suffix isBlank
  obtain ⟨rest, hrest⟩ := List.reverse_suffix.mp hsuffix
  apply stopsAt_dropWhile isBlank text
  change c ∈ (skipBlanks text).head?
  rw [Option.mem_def] at hc ⊢
  rw [← hrest, List.head?_append, hc, Option.some_or]

/-- A text is trimmed if it neither starts nor ends with a blank. -/
structure Text.Trimmed (text : List Char) : Prop where
  first : StopsAt isBlank text
  last : StopsAt isBlank text.reverse

theorem Text.trimmed_trim (text : List Char) : Trimmed (trim text) :=
  ⟨stopsAt_trim text, stopsAt_reverse_trim text⟩

theorem Text.Trimmed.trim_append
    {core before after : List Char} (htrimmed : Trimmed core) (hbefore : Blanks before)
    (hafter : Blanks after) : trim (before ++ core ++ after) = core :=
  Text.trim_append hbefore hafter htrimmed.first htrimmed.last

theorem Text.Trimmed.trim_eq {core : List Char} (htrimmed : Trimmed core) : trim core = core := by
  simpa using htrimmed.trim_append blanks_nil blanks_nil

/-! ## One line -/

variable {marker line body rest : List Char}

/-- A line that says something is, when trimmed, the marker and what it says among blanks. -/
theorem directiveBody?_eq_some_iff :
    directiveBody? marker line = some body ↔
      ∃ rest, trim line = marker ++ rest ∧ isDocumentation marker rest = false ∧
        trim rest = body := by
  unfold directiveBody?
  cases hdrop : dropWord? marker (trim line) with
  | none =>
      constructor
      · intro hnone
        cases hnone
      · rintro ⟨rest, hsplit, -⟩
        rw [dropWord?_eq_some_iff.mpr hsplit] at hdrop
        cases hdrop
  | some rest =>
      have hsplit := dropWord?_eq_some_iff.mp hdrop
      constructor
      · intro hbody
        cases hplain : isDocumentation marker rest with
        | true => simp [hplain] at hbody
        | false => exact ⟨rest, hsplit, hplain, by simpa [hplain] using hbody⟩
      · rintro ⟨other, hother, hplain, hbody⟩
        obtain rfl : rest = other := List.append_cancel_left (hsplit.symm.trans hother)
        simp [hplain, hbody]

theorem trimmed_of_directiveBody? (hbody : directiveBody? marker line = some body) :
    Trimmed body := by
  obtain ⟨rest, -, -, rfl⟩ := directiveBody?_eq_some_iff.mp hbody
  exact trimmed_trim rest

/-- A marker that is found on a line does not start with a blank. -/
theorem stopsAt_marker (hsplit : trim line = marker ++ rest) : StopsAt isBlank marker := by
  cases marker with
  | nil => simp [StopsAt]
  | cons c marker =>
      have hfirst := stopsAt_trim line
      rw [hsplit, List.cons_append] at hfirst
      exact stopsAt_cons.mpr (stopsAt_cons.mp hfirst)

/-- A line that says nothing is the marker alone, so this ends without a blank. -/
theorem eq_marker_of_blanks (hsplit : trim line = marker ++ rest) (hblanks : Blanks rest) :
    trim line = marker := by
  have hlast := stopsAt_reverse_trim line
  rw [hsplit, List.reverse_append] at hlast
  have hnone : rest = [] := by
    rw [← List.reverse_eq_nil_iff, List.eq_nil_iff_forall_not_mem]
    intro c hc
    cases hreverse : rest.reverse with
    | nil => simp [hreverse] at hc
    | cons d others =>
        rw [hreverse, List.cons_append] at hlast
        have hblank : isBlank d = true := hblanks d (by rw [← List.mem_reverse, hreverse]; simp)
        rw [stopsAt_cons.mp hlast] at hblank
        cases hblank
  rw [hsplit, hnone, List.append_nil]

/-- What a line says is said by the line that is written for it. -/
theorem directiveBody?_annotated (hbody : directiveBody? marker line = some body) :
    directiveBody? marker (marker ++ ' ' :: body) = some body := by
  have htrimmed := trimmed_of_directiveBody? hbody
  obtain ⟨rest, hsplit, hplain, hrest⟩ := directiveBody?_eq_some_iff.mp hbody
  rw [directiveBody?_eq_some_iff]
  cases body with
  | nil =>
      -- The space is trimmed away, and what is left is the trimmed line itself.
      have hblanks : Blanks rest := by
        rw [← isEmpty_trim_iff, hrest]
        rfl
      have hmarker : Trimmed marker := by
        rw [← eq_marker_of_blanks hsplit hblanks]
        exact trimmed_trim line
      refine ⟨[], ?_, isDocumentation_eq_false (by simp [StopsAt]), rfl⟩
      simpa using hmarker.trim_append blanks_nil blanks_space
  | cons c body =>
      cases marker with
      | nil =>
          refine ⟨c :: body, ?_, rfl, htrimmed.trim_eq⟩
          simpa using htrimmed.trim_append blanks_space blanks_nil
      | cons m marker =>
          have hline : Trimmed ((m :: marker) ++ ' ' :: c :: body) := by
            constructor
            · exact stopsAt_cons.mpr (stopsAt_cons.mp (stopsAt_marker hsplit))
            · have hlast := htrimmed.last
              rw [List.reverse_append, List.reverse_cons]
              cases hreverse : (c :: body).reverse with
              | nil => simp at hreverse
              | cons d others =>
                  rw [hreverse] at hlast
                  exact stopsAt_cons.mpr (stopsAt_cons.mp hlast)
          refine ⟨' ' :: c :: body, hline.trim_eq, ?_, ?_⟩
          · exact isDocumentation_eq_false (stopsAt_cons.mpr (by decide))
          · simpa using htrimmed.trim_append blanks_space blanks_nil

/-- A line that is written for another one is one line, too. -/
theorem feed_notMem_annotated
    (hline : '\n' ∉ line) (hbody : directiveBody? marker line = some body) :
    '\n' ∉ marker ++ ' ' :: body := by
  obtain ⟨rest, hsplit, -, rfl⟩ := directiveBody?_eq_some_iff.mp hbody
  have hfeed : '\n' ∉ marker ++ rest := by
    rw [← hsplit]
    exact fun hmem => hline (mem_of_mem_trim hmem)
  rw [List.mem_append, not_or] at hfeed
  simp only [List.mem_append, List.mem_cons, not_or]
  exact ⟨hfeed.1, by decide, fun hmem => hfeed.2 (mem_of_mem_trim hmem)⟩

/-! ## All lines -/

/-- A directive that some line says behind the marker. -/
def IsSaid (marker : String) (directive : String) : Prop :=
  ∃ line, '\n' ∉ line ∧ directiveBody? marker.toList line = some directive.toList

theorem isSaid_of_mem_extract
    {source marker directive : String} (hmem : directive ∈ extract source marker) :
    IsSaid marker directive := by
  obtain ⟨body, hbody, rfl⟩ := List.mem_map.mp hmem
  obtain ⟨line, hline, hsaid⟩ := List.mem_filterMap.mp hbody
  refine ⟨line, feed_notMem_linesFrom List.not_mem_nil hline, ?_⟩
  rw [String.toList_ofList]
  exact hsaid

theorem extract_annotate
    {marker : String} {directives : List String}
    (hsaid : ∀ directive ∈ directives, IsSaid marker directive) :
    extract (annotate marker directives) marker = directives := by
  induction directives with
  | nil => rfl
  | cons directive directives ih =>
      rw [List.forall_mem_cons] at hsaid
      obtain ⟨⟨line, hline, hbody⟩, hlater⟩ := hsaid
      have hshape : (annotate marker (directive :: directives)).toList =
          (marker.toList ++ ' ' :: directive.toList) ++ ['\n'] ++
            (annotate marker directives).toList := by
        simp [annotate, renderLines]
      have hbodies :=
        extract_append_lineEnd (feed_notMem_annotated hline hbody) .feed marker.toList
          (annotate marker directives).toList
      rw [directiveBody?_annotated hbody, ← hshape] at hbodies
      unfold extract at ih ⊢
      rw [hbodies, Option.toList_some, List.singleton_append, List.map_cons, ih hlater,
        String.ofList_toList]

/-- What was extracted from a source is extracted again from the lines on which it is written
behind the same marker.  No piece of it holds a line feed or has a blank at an end. -/
theorem extract_annotate_extract (source marker : String) :
    extract (annotate marker (extract source marker)) marker = extract source marker ∧
      ∀ directive ∈ extract source marker,
        '\n' ∉ directive.toList ∧ StopsAt isBlank directive.toList ∧
          StopsAt isBlank directive.toList.reverse := by
  refine ⟨extract_annotate fun directive => isSaid_of_mem_extract, ?_⟩
  intro directive hmem
  obtain ⟨line, -, hbody⟩ := isSaid_of_mem_extract hmem
  have htrimmed := trimmed_of_directiveBody? hbody
  exact ⟨(extract_plain hmem).1, htrimmed.first, htrimmed.last⟩

end ResourceHandles
