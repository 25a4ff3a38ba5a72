import ResourceHandles.Manifest.Shape

/-!
# Reading directives

A text of the shape of a constant is refused only for its numeral.  A text of
the shape of a function is refused, in this order, for its return type, for
characters between its parameters, and for the first parameter whose type is
unknown.  Every other text is unrecognised.
-/

namespace ResourceHandles

open Text

def readParams (function : String) : List Group → Except DirectiveError (List Param)
  | [] => .ok []
  | group :: rest =>
    match TypeExpr.parse group.typeText with
    | .error fault => .error (.paramType function fault)
    | .ok type =>
      match readParams function rest with
      | .error fault => .error fault
      | .ok params => .ok (⟨group.name, type⟩ :: params)

def ConstantShape.read (shape : ConstantShape) : Except DirectiveError Constant :=
  match readInteger shape.negative shape.digits with
  | .error fault => .error (.outOfRange shape.name fault)
  | .ok value => .ok ⟨shape.name, value⟩

def FunctionShape.read (shape : FunctionShape) : Except DirectiveError FunctionDecl :=
  let function := shape.head.name
  match TypeExpr.parse shape.head.typeText with
  | .error fault => .error (.returnType function fault)
  | .ok returns =>
    let (groups, stray) := splitGroups shape.paramText
    if (trim stray).isEmpty then
      match readParams function groups with
      | .error fault => .error fault
      | .ok params => .ok ⟨function, returns, params⟩
    else .error (.strayText function (String.ofList (trim stray)))

def Directive.read (text : String) : Except DirectiveError Directive :=
  match constantShape? text.toList with
  | some shape => shape.read.map .constant
  | none =>
    match functionShape? text.toList with
    | some shape => shape.read.map .function
    | none => .error (.unrecognised text)

/-- Reads every text that is not empty; the first refusal is the answer. -/
def readDirectives : List String → Except DirectiveError (List Directive)
  | [] => .ok []
  | text :: rest =>
    if text.isEmpty then readDirectives rest
    else
      match Directive.read text with
      | .error fault => .error fault
      | .ok directive =>
        match readDirectives rest with
        | .error fault => .error fault
        | .ok directives => .ok (directive :: directives)

end ResourceHandles
