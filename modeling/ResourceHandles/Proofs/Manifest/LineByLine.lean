import ResourceHandles.Proofs.CommandLine.Formats
import ResourceHandles.Proofs.Manifest.AnnotatedSource

/-!
# Extraction line by line

Where one text ends a line another one may follow, and what is extracted from both is what is
extracted from the one and then from the other.  So sources may be joined before they are
scanned, and the lines that are no directive lines may come and go.  A carriage return in front
of a line feed is a blank at the end of its line, so it makes no difference whether it is there.
-/

namespace ResourceHandles

open Text

/-- A text after which a line begins: it is empty, or a line feed is its last character. -/
def EndsLine (text : String) : Prop :=
  text = "" ∨ ∃ front, text = front ++ "\n"

/-- A text, and the same text with a carriage return put before some of its line feeds. -/
inductive ReturnsAdded : List Char → List Char → Prop where
  | nil : ReturnsAdded [] []
  | kept (c : Char) {text other : List Char} (hrest : ReturnsAdded text other) :
      ReturnsAdded (c :: text) (c :: other)
  | added {text other : List Char} (hrest : ReturnsAdded text other) :
      ReturnsAdded ('\n' :: text) ('\r' :: '\n' :: other)

/-! ## Lines -/

namespace Text

/-- Nothing that stands behind a line feed belongs to a line before it. -/
theorem linesFrom_append_feed (reversed front rest : List Char) :
    linesFrom reversed (front ++ '\n' :: rest) =
      linesFrom reversed (front ++ ['\n']) ++ lines rest := by
  induction front generalizing reversed with
  | nil => simp [linesFrom, lines]
  | cons c front ih =>
      rw [List.cons_append, List.cons_append, linesFrom, linesFrom]
      split
      · rw [ih [], List.cons_append]
      · exact ih (c :: reversed)

/-- A text without a line feed is one line, or none if it is empty. -/
theorem lines_of_feed_notMem {line : List Char} (hline : '\n' ∉ line) :
    lines line = if line.isEmpty then [] else [line] := by
  have hreversed :
      ∀ reversed, linesFrom reversed line =
        if (reversed.reverse ++ line).isEmpty then [] else [reversed.reverse ++ line] := by
    induction line with
    | nil => simp [linesFrom]
    | cons c line ih =>
        rw [List.mem_cons, not_or] at hline
        intro reversed
        rw [linesFrom, if_neg (Ne.symm hline.1), ih hline.2]
        simp
  simpa [lines] using hreversed []

/-- A line feed that ends the last line adds no line. -/
theorem linesFrom_feed {reversed text : List Char}
    (hopen : ∀ front, reversed.reverse ++ text ≠ front ++ ['\n'])
    (hne : reversed.reverse ++ text ≠ []) :
    (linesFrom reversed (text ++ ['\n'])).map trim = (linesFrom reversed text).map trim := by
  induction text generalizing reversed with
  | nil =>
      have hreversed : reversed.isEmpty = false := by simpa using hne
      simp [linesFrom, hreversed, trim_dropFinalReturn]
  | cons c text ih =>
      rw [List.cons_append, linesFrom, linesFrom]
      split
      · next hfeed =>
          subst hfeed
          cases text with
          | nil => exact absurd rfl (hopen reversed.reverse)
          | cons d text =>
              rw [List.map_cons, List.map_cons, ih]
              · intro front hfront
                apply hopen (reversed.reverse ++ '\n' :: front)
                rw [List.append_assoc, List.cons_append, ← hfront]
                rfl
              · simp
      · apply ih
        · simpa using hopen
        · simp

end Text

/-! ## What the lines say -/

theorem filterMap_directiveBody?_congr
    {marker : List Char} {first second : List (List Char)}
    (htrim : first.map trim = second.map trim) :
    first.filterMap (directiveBody? marker) = second.filterMap (directiveBody? marker) := by
  induction first generalizing second with
  | nil =>
      rw [List.map_nil, eq_comm, List.map_eq_nil_iff] at htrim
      rw [htrim]
  | cons line first ih =>
      obtain ⟨other, rest, rfl, hline, hrest⟩ := List.map_eq_cons_iff.mp htrim.symm
      rw [List.filterMap_cons, List.filterMap_cons, directiveBody?_congr hline, ih hrest.symm]

theorem filterMap_linesFrom_of_returnsAdded
    {text other : List Char} (hadded : ReturnsAdded text other) (marker reversed : List Char) :
    (linesFrom reversed other).filterMap (directiveBody? marker) =
      (linesFrom reversed text).filterMap (directiveBody? marker) := by
  induction hadded generalizing reversed with
  | nil => rfl
  | kept c hrest ih =>
      rw [linesFrom, linesFrom]
      split
      · rw [List.filterMap_cons, List.filterMap_cons, ih]
      · exact ih _
  | added hrest ih =>
      have htrim :
          trim (dropFinalReturn ('\r' :: reversed).reverse) =
            trim (dropFinalReturn reversed.reverse) := by
        rw [trim_dropFinalReturn, trim_dropFinalReturn, List.reverse_cons]
        exact trim_append_of_blanks _ (by simp [isBlank])
      rw [linesFrom, if_neg (by decide), linesFrom, if_pos rfl, linesFrom, if_pos rfl,
        List.filterMap_cons, List.filterMap_cons, directiveBody?_congr htrim, ih]

/-! ## Extraction -/

theorem extract_append {before : String} (hbefore : EndsLine before) (after marker : String) :
    extract (before ++ after) marker = extract before marker ++ extract after marker := by
  rcases hbefore with rfl | ⟨front, rfl⟩
  · rw [String.empty_append]
    rfl
  · have hlines :
        lines (front ++ "\n" ++ after).toList =
          lines (front ++ "\n").toList ++ lines after.toList := by
      have hsplit := linesFrom_append_feed [] front.toList after.toList
      simpa [lines] using hsplit
    unfold extract
    rw [hlines, List.filterMap_append, List.map_append]

theorem extract_join
    {texts : List String} (htexts : ∀ text ∈ texts.dropLast, EndsLine text) (marker : String) :
    extract (String.join texts) marker = extractAll texts marker := by
  induction texts with
  | nil => rfl
  | cons text rest ih =>
      cases rest with
      | nil => simp [extractAll]
      | cons next rest =>
          rw [List.dropLast_cons_cons, List.forall_mem_cons] at htexts
          rw [String.join_cons, extract_append htexts.1, ih htexts.2]
          rfl

theorem extract_of_returnsAdded
    {source other : String} (hadded : ReturnsAdded source.toList other.toList) (marker : String) :
    extract other marker = extract source marker := by
  unfold extract lines
  rw [filterMap_linesFrom_of_returnsAdded hadded]

theorem extract_silent
    {line ending marker : String} (hline : '\n' ∉ line.toList)
    (hsilent : IsSilent marker.toList line.toList) (hending : LineEnd ending.toList) :
    extract (line ++ ending) marker = [] := by
  have hbodies := extract_append_lineEnd hline hending marker.toList []
  rw [hsilent.directiveBody?, List.append_nil, ← String.toList_append] at hbodies
  unfold extract
  rw [hbodies]
  rfl

theorem extract_silent_unended
    {line marker : String} (hline : '\n' ∉ line.toList)
    (hsilent : IsSilent marker.toList line.toList) : extract line marker = [] := by
  unfold extract
  rw [lines_of_feed_notMem hline]
  split
  · rfl
  · rw [List.filterMap_cons, hsilent.directiveBody?]
    rfl

theorem endsLine_append_lineEnd
    (line : String) {ending : String} (hending : LineEnd ending.toList) :
    EndsLine (line ++ ending) := by
  right
  generalize htext : ending.toList = text at hending
  cases hending with
  | feed =>
      refine ⟨line, ?_⟩
      rw [← String.toList_inj]
      simp [htext]
  | returnFeed =>
      refine ⟨line ++ "\r", ?_⟩
      rw [← String.toList_inj]
      simp [htext]

theorem extract_feed {text : String} (hopen : ¬EndsLine text) (marker : String) :
    extract (text ++ "\n") marker = extract text marker := by
  have htrim : (lines (text ++ "\n").toList).map trim = (lines text.toList).map trim := by
    rw [String.toList_append]
    apply linesFrom_feed
    · intro front hfront
      apply hopen
      refine .inr ⟨String.ofList front, ?_⟩
      rw [← String.toList_inj]
      simpa using hfront
    · intro hempty
      apply hopen
      left
      rw [← String.toList_inj]
      simpa using hempty
  unfold extract
  rw [filterMap_directiveBody?_congr htrim]

/-! ## Line by line -/

/-- Extraction works line by line: what two texts say that are cut at the beginning of a line is
what the first says and then what the second says.  So a scan of several sources is the scan of
all of them in one file if each but the last ends its last line; carriage returns before line
feeds, lines that are no directive lines, and the line feed behind the last line say nothing. -/
theorem extract_works_line_by_line (marker : String) :
    (∀ before after, EndsLine before →
      extract (before ++ after) marker = extract before marker ++ extract after marker) ∧
    (∀ texts : List String, (∀ text ∈ texts.dropLast, EndsLine text) →
      extractAll texts marker = extract (String.join texts) marker ∧
      ∀ (tree : FileTree) (paths : List Path) (whole : Path) (format : Option ScanFormat),
        SourceTexts tree paths texts → tree.readText whole = .ok (String.join texts) →
          scan tree.readText ⟨paths, some marker, format⟩ =
            scan tree.readText ⟨[whole], some marker, format⟩) ∧
    (∀ source other, ReturnsAdded source.toList other.toList →
      extract other marker = extract source marker) ∧
    (∀ before line, EndsLine before → '\n' ∉ line.toList →
      IsSilent marker.toList line.toList →
        (∀ ending after, LineEnd ending.toList →
          extract (before ++ line ++ ending ++ after) marker = extract (before ++ after) marker) ∧
        extract (before ++ line) marker = extract before marker) ∧
    ∀ text, ¬EndsLine text → extract (text ++ "\n") marker = extract text marker := by
  refine ⟨?_, ?_, ?_, ?_, ?_⟩
  · intro before after hbefore
    exact extract_append hbefore after marker
  · intro texts htexts
    refine ⟨(extract_join htexts marker).symm, ?_⟩
    intro tree paths whole format hsources hwhole
    have hjoined : SourceTexts tree [whole] [String.join texts] :=
      .inr ⟨by simp, .cons hwhole .nil⟩
    have hsame : texts.flatMap (extract · marker) =
        [String.join texts].flatMap (extract · marker) := by
      rw [List.flatMap_singleton, extract_join htexts]
      rfl
    unfold scan
    rw [hsources.collectDirectives, hjoined.collectDirectives, Option.getD_some, hsame]
  · intro source other hadded
    exact extract_of_returnsAdded hadded marker
  · intro before line hbefore hline hsilent
    constructor
    · intro ending after hending
      have hsplit : before ++ line ++ ending ++ after = before ++ (line ++ ending ++ after) := by
        simp only [String.append_assoc]
      rw [hsplit, extract_append hbefore, extract_append (endsLine_append_lineEnd line hending),
        extract_silent hline hsilent hending, List.nil_append, extract_append hbefore]
    · rw [extract_append hbefore, extract_silent_unended hline hsilent, List.append_nil]
  · intro text hopen
    exact extract_feed hopen marker

end ResourceHandles
