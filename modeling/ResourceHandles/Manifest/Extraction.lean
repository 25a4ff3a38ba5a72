import ResourceHandles.Text.Blank
import ResourceHandles.Text.Line
import ResourceHandles.Text.Token

/-!
# Extracting directives from source text

A directive stands on a line of its own behind a comment marker.  The marker
and the blanks around the line and around the rest of it are removed.  Under
the marker `//` a line that goes on with a third slash or an exclamation mark
is documentation and no directive.  A marker alone gives an empty entry.
-/

namespace ResourceHandles

open Text

def defaultMarker : String := "//"

/-- Whether the rest of a line behind the marker makes it documentation. -/
def isDocumentation (marker rest : List Char) : Bool :=
  marker == defaultMarker.toList &&
    (rest.head? == some '/' || rest.head? == some '!')

/-- What a directive line says, `none` for any other line. -/
def directiveBody? (marker line : List Char) : Option (List Char) :=
  match dropWord? marker (trim line) with
  | none => none
  | some rest => if isDocumentation marker rest then none else some (trim rest)

/-- The bodies of the directive lines of a source text, in order. -/
def extract (source marker : String) : List String :=
  ((lines source.toList).filterMap (directiveBody? marker.toList)).map String.ofList

/-- The bodies found in several sources, one source after the other. -/
def extractAll (sources : List String) (marker : String) : List String :=
  sources.flatMap (extract · marker)

end ResourceHandles
