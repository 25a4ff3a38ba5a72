import ResourceHandles.Manifest.TypeExpr
import ResourceHandles.Text.Digit

/-!
# Directives

A directive declares either a constant or a function.  Its canonical text is
`(def NAME VALUE)` or `(defun (NAME: TYPE) [(PARAM: TYPE) ...])`.
-/

namespace ResourceHandles

/-- A named integer. -/
structure Constant where
  name : String
  value : Int
  deriving Repr, DecidableEq

/-- A named parameter. -/
structure Param where
  name : String
  type : TypeExpr
  deriving Repr, DecidableEq

/-- A function with its parameters in order. -/
structure FunctionDecl where
  name : String
  returns : TypeExpr
  params : List Param
  deriving Repr, DecidableEq

/-- One declaration. -/
inductive Directive where
  | constant (declared : Constant)
  | function (declared : FunctionDecl)
  deriving Repr, DecidableEq

/-- Why a text is no directive. -/
inductive DirectiveError where
  | unrecognised (text : String)
  | outOfRange (constant : String) (fault : Text.IntegerFault)
  | returnType (function : String) (fault : UnknownType)
  | strayText (function : String) (text : String)
  | paramType (function : String) (fault : UnknownType)
  deriving Repr, DecidableEq

def DirectiveError.message : DirectiveError → String
  | .unrecognised text => "unrecognised directive: " ++ text
  | .outOfRange constant fault => "constant " ++ constant ++ " out of range: " ++ fault.message
  | .returnType function fault => "return type of " ++ function ++ ": " ++ fault.message
  | .strayText function text => "params of " ++ function ++ ": unexpected text '" ++ text ++ "'"
  | .paramType function fault => "params of " ++ function ++ ": " ++ fault.message

def Param.text (param : Param) : String :=
  "(" ++ param.name ++ ": " ++ param.type.text ++ ")"

def Directive.text : Directive → String
  | .constant declared => "(def " ++ declared.name ++ " " ++ toString declared.value ++ ")"
  | .function declared =>
    "(defun (" ++ declared.name ++ ": " ++ declared.returns.text ++ ") [" ++
      String.intercalate " " (declared.params.map Param.text) ++ "])"

end ResourceHandles
