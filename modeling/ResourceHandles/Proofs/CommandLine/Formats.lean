import ResourceHandles.CommandLine.Scan
import ResourceHandles.Proofs.Json.RoundTrip
import ResourceHandles.Proofs.Manifest.CanonicalText
import ResourceHandles.Proofs.Text.Lines

/-!
# The two formats of a scan

A scan prints what it found line by line or as a manifest, and a reader gets back from the
output exactly what was printed.  No directive holds a line feed or ends with a carriage
return, so the lines can be told apart.  A scan that fails prints nothing, in both formats for
a source that cannot be read, and as a manifest for directives that have none.
-/

namespace ResourceHandles

open Text

/-! ## Lines -/

theorem Text.feed_notMem_linesFrom
    {reversed text line : List Char} (hreversed : '\n' ∉ reversed)
    (hline : line ∈ linesFrom reversed text) : '\n' ∉ line := by
  induction text generalizing reversed with
  | nil =>
      rw [linesFrom] at hline
      split at hline
      · cases hline
      · rw [List.mem_singleton.mp hline]
        simpa using hreversed
  | cons c rest ih =>
      rw [linesFrom] at hline
      split at hline
      · rcases List.mem_cons.mp hline with rfl | hlater
        · intro hfeed
          have hmem : '\n' ∈ reversed.reverse := by
            unfold dropFinalReturn at hfeed
            split at hfeed
            · exact List.mem_of_mem_dropLast hfeed
            · exact hfeed
          exact hreversed (List.mem_reverse.mp hmem)
        · exact ih List.not_mem_nil hlater
      · next hother =>
          refine ih ?_ hline
          rw [List.mem_cons, not_or]
          exact ⟨Ne.symm hother, hreversed⟩

theorem Text.mem_of_mem_trim {c : Char} {text : List Char} (hmem : c ∈ trim text) : c ∈ text := by
  obtain ⟨before, after, hsplit, -, -⟩ := exists_eq_append_trim text
  rw [hsplit]
  simp [hmem]

theorem Text.stopsAt_reverse_trim (text : List Char) : StopsAt isBlank (trim text).reverse := by
  unfold trim dropTrailingBlanks
  rw [List.reverse_reverse]
  exact stopsAt_dropWhile isBlank _

theorem Text.dropFinalReturn_trim (text : List Char) : dropFinalReturn (trim text) = trim text := by
  unfold dropFinalReturn
  rw [if_neg]
  intro hlast
  rw [← List.head?_reverse] at hlast
  exact absurd (stopsAt_reverse_trim text _ hlast) (by decide)

/-- What a line says keeps to the line and is trimmed. -/
theorem directiveBody?_plain
    {marker line body : List Char} (hline : '\n' ∉ line)
    (hbody : directiveBody? marker line = some body) :
    '\n' ∉ body ∧ dropFinalReturn body = body := by
  unfold directiveBody? at hbody
  split at hbody
  · cases hbody
  · next rest hdrop =>
      split at hbody
      · cases hbody
      · obtain rfl := Option.some.inj hbody
        have hsplit := dropWord?_eq_some_iff.mp hdrop
        refine ⟨fun hfeed => hline (mem_of_mem_trim ?_), dropFinalReturn_trim rest⟩
        rw [hsplit]
        exact List.mem_append_right _ (mem_of_mem_trim hfeed)

theorem extract_plain
    {source marker text : String} (htext : text ∈ extract source marker) :
    '\n' ∉ text.toList ∧ dropFinalReturn text.toList = text.toList := by
  obtain ⟨body, hmem, rfl⟩ := List.mem_map.mp htext
  obtain ⟨line, hline, hbody⟩ := List.mem_filterMap.mp hmem
  rw [String.toList_ofList]
  exact directiveBody?_plain (feed_notMem_linesFrom List.not_mem_nil hline) hbody

theorem lines_renderLines
    {texts : List String}
    (hplain : ∀ text ∈ texts, '\n' ∉ text.toList ∧ dropFinalReturn text.toList = text.toList) :
    (lines (renderLines texts).toList).map String.ofList = texts := by
  induction texts with
  | nil => rfl
  | cons text texts ih =>
      rw [List.forall_mem_cons] at hplain
      have hshape : (renderLines (text :: texts)).toList =
          text.toList ++ '\n' :: (renderLines texts).toList := by
        simp [renderLines]
      rw [hshape, lines_append hplain.1.1, hplain.1.2, List.map_cons, ih hplain.2,
        String.ofList_toList]

/-! ## Manifests -/

/-- The parameter that a JSON value stands for. -/
def Param.ofJson? : Json → Option Param
  | .object [("name", .string name), ("type", .string type)] =>
    match TypeExpr.parse type.toList with
    | .ok type => some ⟨name, type⟩
    | .error _ => none
  | _ => none

def Signature.ofJson? : Json → Option Signature
  | .object [("name", .string name), ("arity", .integer arity), ("async", .bool suspends),
      ("params", .array params), ("returns", .string returns)] =>
    match params.mapM Param.ofJson?, TypeExpr.parse returns.toList with
    | some params, .ok returns => some ⟨name, arity.toNat, suspends, params, returns⟩
    | _, _ => none
  | _ => none

def Constant.ofJson? : Json → Option Constant
  | .object [("name", .string name), ("value", .integer value)] => some ⟨name, value⟩
  | _ => none

def Manifest.ofJson? : Json → Option Manifest
  | .object [("functions", .array functions), ("constants", .array constants)] =>
    match functions.mapM Signature.ofJson?, constants.mapM Constant.ofJson? with
    | some functions, some constants => some ⟨functions, constants⟩
    | _, _ => none
  | _ => none

/-- The manifest that a text stands for, with its types read from their texts. -/
def Manifest.ofText? (text : String) : Option Manifest :=
  (Json.parse? text).bind Manifest.ofJson?

theorem mapM_map_eq_some
    {α : Type} {write : α → Json} {read? : Json → Option α}
    (hread : ∀ item, read? (write item) = some item) (items : List α) :
    (items.map write).mapM read? = some items := by
  induction items with
  | nil => rfl
  | cons item items ih => simp [hread, ih]

theorem Param.ofJson?_toJson (param : Param) : ofJson? param.toJson = some param := by
  simp [ofJson?, toJson, param.type.parse_text]

theorem Signature.ofJson?_toJson (signature : Signature) :
    ofJson? signature.toJson = some signature := by
  simp [ofJson?, toJson, mapM_map_eq_some Param.ofJson?_toJson, signature.returns.parse_text]

theorem Constant.ofJson?_toJson (declared : Constant) :
    ofJson? declared.toJson = some declared := by
  simp [ofJson?, toJson]

theorem Manifest.ofJson?_toJson (manifest : Manifest) :
    ofJson? manifest.toJson = some manifest := by
  simp [ofJson?, toJson, mapM_map_eq_some Signature.ofJson?_toJson,
    mapM_map_eq_some Constant.ofJson?_toJson]

theorem Json.areExact_map
    {α : Type} {write : α → Json} (hexact : ∀ item, (write item).IsExact) (items : List α) :
    AreExact (items.map write) := by
  induction items with
  | nil => exact trivial
  | cons item items ih => exact ⟨hexact item, ih⟩

theorem Param.isExact_toJson (param : Param) : param.toJson.IsExact :=
  ⟨trivial, trivial, trivial⟩

theorem Signature.isExact_toJson (signature : Signature) : signature.toJson.IsExact :=
  ⟨trivial, trivial, trivial, Json.areExact_map Param.isExact_toJson _, trivial, trivial⟩

theorem Constant.isExact_toJson (declared : Constant) : declared.toJson.IsExact :=
  ⟨trivial, trivial, trivial⟩

theorem Manifest.isExact_toJson (manifest : Manifest) : manifest.toJson.IsExact :=
  ⟨Json.areExact_map Signature.isExact_toJson _, Json.areExact_map Constant.isExact_toJson _,
    trivial⟩

/-- A manifest is read back from its text. -/
theorem Manifest.ofText?_render (manifest : Manifest) :
    ofText? manifest.render = some manifest := by
  have hfeed : Json.Spaces "\n".toList := by
    simp [Json.Spaces, Json.isSpace]
  unfold ofText? render
  rw [Json.parse?_pretty manifest.isExact_toJson 0 hfeed, Option.bind_some, ofJson?_toJson]

/-! ## Sources -/

/-- The texts that a scan of some paths is made of; without a path these are the bundled
sources. -/
def SourceTexts (tree : FileTree) (paths : List Path) (texts : List String) : Prop :=
  paths = [] ∧ texts = bundledSources.map NamedSource.text ∨
    paths ≠ [] ∧ List.Forall₂ (fun path text => tree.readText path = .ok text) paths texts

theorem readSources_eq_ok_iff
    {readText : Path → Except FileFault String} {paths : List Path} {texts : List String} :
    readSources readText paths = .ok texts ↔
      List.Forall₂ (fun path text => readText path = .ok text) paths texts := by
  induction paths generalizing texts with
  | nil =>
      rw [readSources, List.forall₂_nil_left_iff]
      simp [eq_comm]
  | cons path paths ih =>
      rw [readSources, List.forall₂_cons_left_iff]
      cases readText path with
      | error fault => simp
      | ok text =>
          simp only [Except.ok.injEq, ← ih]
          cases readSources readText paths with
          | error source => simp
          | ok found => simp [eq_comm]

theorem readSources_eq_error_iff
    {readText : Path → Except FileFault String} {paths : List Path} :
    (∃ source, readSources readText paths = .error source) ↔
      ∃ path ∈ paths, ∀ text, readText path ≠ .ok text := by
  induction paths with
  | nil => simp [readSources]
  | cons path paths ih =>
      rw [readSources, List.exists_mem_cons_iff, ← ih]
      cases readText path with
      | error fault => simp
      | ok text => cases readSources readText paths <;> simp

/-- A source that cannot be read fails a scan before anything is printed. -/
theorem scan_of_unreadable
    {readText : Path → Except FileFault String} {options : ScanOptions}
    (hunreadable : ∃ path ∈ options.paths, ∀ text, readText path ≠ .ok text) :
    (scan readText options).code = failureCode ∧ (scan readText options).output = "" := by
  obtain ⟨source, hsource⟩ := readSources_eq_error_iff.mpr hunreadable
  have hpaths : options.paths.isEmpty = false := by
    obtain ⟨path, hmem, -⟩ := hunreadable
    cases hlist : options.paths with
    | nil => simp [hlist] at hmem
    | cons first rest => rfl
  have hcollect : collectDirectives readText options = .error source := by
    simp [collectDirectives, hpaths, hsource]
  rw [scan, hcollect]
  exact ⟨rfl, rfl⟩

theorem SourceTexts.collectDirectives
    {tree : FileTree} {paths : List Path} {texts : List String}
    (hsources : SourceTexts tree paths texts) (marker : Option String)
    (format : Option ScanFormat) :
    collectDirectives tree.readText ⟨paths, marker, format⟩ =
      .ok (texts.flatMap (extract · (marker.getD defaultMarker))) := by
  rcases hsources with ⟨rfl, rfl⟩ | ⟨hne, hread⟩
  · rfl
  · have hpaths : paths.isEmpty = false := by simpa using hne
    simp [ResourceHandles.collectDirectives, hpaths, readSources_eq_ok_iff.mpr hread, extractAll,
      ScanOptions.markerText]

theorem sourceTexts_or_unreadable (tree : FileTree) (paths : List Path) :
    (∃ path ∈ paths, ∀ text, tree.readText path ≠ .ok text) ∨
      ∃ texts, SourceTexts tree paths texts := by
  cases paths with
  | nil => exact .inr ⟨_, .inl ⟨rfl, rfl⟩⟩
  | cons path paths =>
      cases hread : readSources tree.readText (path :: paths) with
      | error source => exact .inl (readSources_eq_error_iff.mp ⟨source, hread⟩)
      | ok texts => exact .inr ⟨texts, .inr ⟨by simp, readSources_eq_ok_iff.mp hread⟩⟩

/-! ## Scans -/

theorem printManifest_of_resolve
    {directives : List String} {read : List Directive} {manifest : Manifest}
    (hread : readDirectives directives = .ok read) (hresolve : resolve read = .ok manifest) :
    printManifest directives = { code := 0, output := manifest.render } := by
  simp [printManifest, hread, hresolve]

theorem printManifest_of_refused
    {directives : List String}
    (hrefused : ∀ read manifest, readDirectives directives = .ok read →
      resolve read ≠ .ok manifest) :
    (printManifest directives).code = failureCode ∧ (printManifest directives).output = "" := by
  unfold printManifest
  split
  · exact ⟨rfl, rfl⟩
  · next read hread =>
      split
      · exact ⟨rfl, rfl⟩
      · next manifest hresolve => exact absurd hresolve (hrefused read manifest hread)

def ScanFormat.word : ScanFormat → String
  | .lines => "lines"
  | .json => "json"

/-- Arguments that ask for a scan of some paths, whatever the marker and the paths look like. -/
def scanArguments (marker : String) (format : ScanFormat) (paths : List Path) : List String :=
  ("--marker=" ++ marker) :: ("--format=" ++ format.word) :: "--" :: paths.map Path.text

theorem ScanOptions.readOperands_paths
    {paths : List Path} (hpaths : ∀ path ∈ paths, path.text ≠ "") (options : ScanOptions) :
    grammar.readOperands options (paths.map Path.text) =
      .run { options with paths := options.paths ++ paths } := by
  induction paths generalizing options with
  | nil => simp [Grammar.readOperands]
  | cons path paths ih =>
      rw [List.forall_mem_cons] at hpaths
      have hpath : addPath options path.text =
          some { options with paths := options.paths ++ [path] } := by
        rw [addPath, if_neg (by simpa using hpaths.1)]
      have hoperand : grammar.operand options path.text =
          some { options with paths := options.paths ++ [path] } := hpath
      rw [List.map_cons, Grammar.readOperands, hoperand]
      simp only [ih hpaths.2, List.append_assoc, List.singleton_append]

/-- An empty operand is refused, wherever it stands. -/
theorem ScanOptions.readOperands_of_empty
    {operands : List String} (hempty : "" ∈ operands) (options : ScanOptions) :
    grammar.readOperands options operands = .refused := by
  induction operands generalizing options with
  | nil => cases hempty
  | cons operand operands ih =>
      rcases List.mem_cons.mp hempty with rfl | hlater
      · rfl
      · rw [Grammar.readOperands]
        split
        · rfl
        · exact ih hlater _

theorem ArgumentForm.of_marker (marker : String) :
    ArgumentForm.of ("--marker=" ++ marker) = .long "marker" (some marker) := by
  simp [ArgumentForm.of]

theorem ArgumentForm.of_format (format : ScanFormat) :
    ArgumentForm.of ("--format=" ++ format.word) = .long "format" (some format.word) := by
  cases format <;> decide

theorem ScanOptions.read_scanArguments
    (marker : String) (format : ScanFormat) (paths : List Path) :
    grammar.read {} (scanArguments marker format paths) =
      grammar.readOperands ⟨[], some marker, some format⟩ (paths.map Path.text) := by
  have hmarker : grammar.option? "marker" = some setMarker := rfl
  have hformat : grammar.option? "format" = some setFormat := rfl
  have hword : ScanFormat.ofWord? format.word = some format := by
    cases format <;> rfl
  have hend : ArgumentForm.of "--" = .endOfOptions := by decide
  simp only [scanArguments, Grammar.read, ArgumentForm.of_marker, ArgumentForm.of_format, hend,
    hmarker, hformat, setMarker, setFormat, hword, Option.isSome_none, Bool.false_eq_true, if_false]

/-- The arguments ask for a scan as long as no path is empty. -/
theorem scanCommand_scanArguments
    (readText : Path → Except FileFault String) (marker : String) (format : ScanFormat)
    {paths : List Path} (hpaths : ∀ path ∈ paths, path.text ≠ "") :
    scanCommand readText (scanArguments marker format paths) =
      scan readText ⟨paths, some marker, some format⟩ := by
  rw [scanCommand, ScanOptions.read_scanArguments, ScanOptions.readOperands_paths hpaths,
    List.nil_append]

/-- An empty path is no argument: the command then reads nothing and is refused, whatever its
other arguments are. -/
theorem scanCommand_of_empty_path
    (readText : Path → Except FileFault String) (marker : String) (format : ScanFormat)
    {paths : List Path} (hempty : ∃ path ∈ paths, path.text = "") :
    scanCommand readText (scanArguments marker format paths) =
      { code := refusalCode, diagnostics := scanHelp } := by
  have hoperand : "" ∈ paths.map Path.text := List.mem_map.mpr hempty
  rw [scanCommand, ScanOptions.read_scanArguments, ScanOptions.readOperands_of_empty hoperand]

/-- The two formats of a scan agree.  The command comes to the scan, unless it is refused for an
empty path.  If a source cannot be read, both formats fail and print nothing.
Otherwise the lines always succeed and give back what was extracted from the sources, one
source after the other; the manifest succeeds exactly for directives that resolve, is then read
back from the output, and prints nothing if they do not resolve. -/
theorem scan_formats_agree (tree : FileTree) (paths : List Path) (marker : String) :
    let printed := fun format : ScanFormat => scan tree.readText ⟨paths, some marker, some format⟩
    ((∀ path ∈ paths, path.text ≠ "") → ∀ format,
      scanCommand tree.readText (scanArguments marker format paths) = printed format) ∧
    ((∃ path ∈ paths, ∀ text, tree.readText path ≠ .ok text) → ∀ format,
      (printed format).code = 1 ∧ (printed format).output = "") ∧
    ((∀ path ∈ paths, ∃ text, tree.readText path = .ok text) →
      ∃ texts, SourceTexts tree paths texts) ∧
    ∀ texts, SourceTexts tree paths texts →
      let directives := texts.flatMap (extract · marker)
      (printed .lines).code = 0 ∧
      (lines (printed .lines).output.toList).map String.ofList = directives ∧
      (∀ read manifest, readDirectives directives = .ok read → resolve read = .ok manifest →
        (printed .json).code = 0 ∧ Manifest.ofText? (printed .json).output = some manifest) ∧
      ((∀ read manifest, readDirectives directives = .ok read → resolve read ≠ .ok manifest) →
        (printed .json).code = 1 ∧ (printed .json).output = "") := by
  intro printed
  refine ⟨?_, ?_, ?_, ?_⟩
  · intro hpaths format
    exact scanCommand_scanArguments tree.readText marker format hpaths
  · intro hunreadable format
    exact scan_of_unreadable hunreadable
  · intro hreadable
    rcases sourceTexts_or_unreadable tree paths with ⟨path, hmem, hnone⟩ | htexts
    · obtain ⟨text, htext⟩ := hreadable path hmem
      exact absurd htext (hnone text)
    · exact htexts
  · intro texts hsources directives
    have hcollect : ∀ format, collectDirectives tree.readText ⟨paths, some marker, format⟩ =
        .ok directives := hsources.collectDirectives (some marker)
    have hlines : printed .lines = { code := 0, output := renderLines directives } := by
      simp only [printed, scan, hcollect, Option.getD_some]
    have hjson : printed .json = printManifest directives := by
      simp only [printed, scan, hcollect, Option.getD_some]
    rw [hlines, hjson]
    refine ⟨rfl, ?_, ?_, printManifest_of_refused⟩
    · apply lines_renderLines
      intro text hmem
      obtain ⟨source, -, htext⟩ := List.mem_flatMap.mp hmem
      exact extract_plain htext
    · intro read manifest hread hresolve
      rw [printManifest_of_resolve hread hresolve]
      exact ⟨rfl, manifest.ofText?_render⟩

end ResourceHandles
