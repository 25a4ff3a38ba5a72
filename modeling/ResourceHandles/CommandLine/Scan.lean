import ResourceHandles.CommandLine.Arguments
import ResourceHandles.Files.Tree
import ResourceHandles.Manifest.Bundled
import ResourceHandles.Manifest.Reading
import ResourceHandles.Manifest.Rendering

/-!
# The scan command

The command collects the directives of source files, in the order of its
operands, or of the bundled sources if there are none.  It prints them line by
line, or resolves them and prints the manifest.  When it fails it prints nothing
but the reason.
-/

namespace ResourceHandles

/-- The form in which a scan is printed. -/
inductive ScanFormat where
  | lines
  | json
  deriving Repr, DecidableEq

def ScanFormat.ofWord? (word : String) : Option ScanFormat :=
  if word = "lines" then some .lines
  else if word = "json" then some .json
  else none

/-- What a scan was asked for; an option that was not given is empty. -/
structure ScanOptions where
  paths : List Path := []
  marker : Option String := none
  format : Option ScanFormat := none
  deriving Repr, DecidableEq

namespace ScanOptions

def setMarker (options : ScanOptions) (text : String) : Option ScanOptions :=
  if options.marker.isSome then none else some { options with marker := some text }

def setFormat (options : ScanOptions) (text : String) : Option ScanOptions :=
  match options.format, ScanFormat.ofWord? text with
  | none, some format => some { options with format := some format }
  | _, _ => none

def addPath (options : ScanOptions) (text : String) : Option ScanOptions :=
  if text.isEmpty then none else some { options with paths := options.paths ++ [⟨text⟩] }

def grammar : Grammar ScanOptions where
  option? name :=
    if name = "marker" then some setMarker
    else if name = "format" then some setFormat
    else none
  operand := addPath
  hasVersion := true

def markerText (options : ScanOptions) : String :=
  options.marker.getD defaultMarker

end ScanOptions

/-- A source that cannot be read. -/
structure UnreadableSource where
  path : Path
  fault : FileFault
  deriving Repr, DecidableEq

def UnreadableSource.message (source : UnreadableSource) : String :=
  "read " ++ source.path.text ++ ": " ++ source.fault.message

/-- The texts of source files; the first that cannot be read is the answer. -/
def readSources (readText : Path → Except FileFault String) :
    List Path → Except UnreadableSource (List String)
  | [] => .ok []
  | path :: rest =>
    match readText path with
    | .error fault => .error ⟨path, fault⟩
    | .ok text =>
      match readSources readText rest with
      | .error source => .error source
      | .ok texts => .ok (text :: texts)

def collectDirectives (readText : Path → Except FileFault String) (options : ScanOptions) :
    Except UnreadableSource (List String) :=
  if options.paths.isEmpty then .ok (bundledDirectives options.markerText)
  else
    match readSources readText options.paths with
    | .error source => .error source
    | .ok texts => .ok (extractAll texts options.markerText)

def Exit.failed (output reason : String) : Exit :=
  { code := failureCode, output := output, diagnostics := reason ++ "\n" }

def printManifest (directives : List String) : Exit :=
  match readDirectives directives with
  | .error fault => .failed "" fault.message
  | .ok read =>
    match resolve read with
    | .error fault => .failed "" fault.message
    | .ok manifest => { code := 0, output := manifest.render }

/-- Runs a scan on files that are read with `readText`. -/
def scan (readText : Path → Except FileFault String) (options : ScanOptions) : Exit :=
  match collectDirectives readText options with
  | .error source => .failed "" source.message
  | .ok directives =>
    match options.format.getD .lines with
    | .lines => { code := 0, output := renderLines directives }
    | .json => printManifest directives

def scanVersion : String := "unio-manifest 0.1.0\n"

def scanHelp : String :=
  "Usage: unio-manifest [--marker MARKER] [--format lines|json] [PATHS]...\n"

def scanCommand (readText : Path → Except FileFault String) (arguments : List String) : Exit :=
  match ScanOptions.grammar.read {} arguments with
  | .run options => scan readText options
  | .help => { code := 0, output := scanHelp }
  | .version => { code := 0, output := scanVersion }
  | .refused => { code := refusalCode, diagnostics := scanHelp }

end ResourceHandles
