import ResourceHandles.Json
import ResourceHandles.Manifest.Resolution

/-!
# Manifests as text

A manifest is written as one JSON object with its functions first.  A list of
directives is written with one directive to a line.
-/

namespace ResourceHandles

def Param.toJson (param : Param) : Json :=
  .object [("name", .string param.name), ("type", .string param.type.text)]

def Signature.toJson (signature : Signature) : Json :=
  .object [("name", .string signature.name), ("arity", .integer signature.arity),
    ("async", .bool signature.suspends), ("params", .array (signature.params.map Param.toJson)),
    ("returns", .string signature.returns.text)]

def Constant.toJson (declared : Constant) : Json :=
  .object [("name", .string declared.name), ("value", .integer declared.value)]

def Manifest.toJson (manifest : Manifest) : Json :=
  .object [("functions", .array (manifest.functions.map Signature.toJson)),
    ("constants", .array (manifest.constants.map Constant.toJson))]

def Manifest.render (manifest : Manifest) : String :=
  Json.pretty 0 manifest.toJson ++ "\n"

def renderLines (directives : List String) : String :=
  String.join (directives.map (· ++ "\n"))

end ResourceHandles
