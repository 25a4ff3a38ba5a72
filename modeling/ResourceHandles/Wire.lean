import ResourceHandles.CallMode
import ResourceHandles.Handle
import ResourceHandles.Json
import ResourceHandles.OpenFlag

/-!
# Handles, modes and flags as JSON

A handle is a bare integer.  A mode or a flag is a string with its word, and is
also read from an object whose only member has the word as its name and null
as its value.
-/

namespace ResourceHandles

/-- The word that a JSON value stands for where one word out of several is
expected. -/
def Json.word? : Json → Option String
  | .string word => some word
  | .object [(word, .null)] => some word
  | _ => none

namespace Handle

def toJson (handle : Handle) : Json :=
  .integer handle.raw

def ofJson? : Json → Option Handle
  | .integer value =>
    if Text.minInteger ≤ value ∧ value ≤ Text.maxInteger then some ⟨value⟩ else none
  | _ => none

def parseJson? (text : String) : Option Handle :=
  (Json.parse? text).bind ofJson?

end Handle

namespace CallMode

def toJson (mode : CallMode) : Json :=
  .string mode.text

def parseJson? (text : String) : Option CallMode :=
  ((Json.parse? text).bind Json.word?).bind ofWord?

end CallMode

namespace OpenFlag

def parseJson? (text : String) : Option OpenFlag :=
  ((Json.parse? text).bind Json.word?).bind ofWord?

end OpenFlag

end ResourceHandles
