import ResourceHandles.Manifest.Directive

/-!
# Resolving directives into a manifest

A constant named like a function with `_async` behind it tells whether the
function suspends: 1 if it does, 0 if it does not.  A function without such a
constant does not suspend.  The manifest lists the functions and those
constants that are not flags, each in order of declaration.  A name is declared
at most once as a constant and at most once as a function.
-/

namespace ResourceHandles

/-- A function as it is called. -/
structure Signature where
  name : String
  arity : Nat
  suspends : Bool
  params : List Param
  returns : TypeExpr
  deriving Repr, DecidableEq

/-- The functions and the plain constants of a list of directives. -/
structure Manifest where
  functions : List Signature
  constants : List Constant
  deriving Repr, DecidableEq

/-- Why a list of directives has no manifest. -/
inductive ResolveError where
  | constantTwice (name : String)
  | functionTwice (name : String)
  | badFlag (name : String) (value : Int)
  deriving Repr, DecidableEq

def ResolveError.message : ResolveError → String
  | .constantTwice name => "constant " ++ name ++ " declared twice"
  | .functionTwice name => "function " ++ name ++ " declared twice"
  | .badFlag name value => name ++ " must be 0 or 1 (got " ++ toString value ++ ")"

def flagName (function : String) : String :=
  function ++ "_async"

def constantsOf (directives : List Directive) : List Constant :=
  directives.filterMap fun
    | .constant declared => some declared
    | .function _ => none

def functionsOf (directives : List Directive) : List FunctionDecl :=
  directives.filterMap fun
    | .constant _ => none
    | .function declared => some declared

/-- The first name that stands in the list after an equal one, where `seen`
holds the names met before. -/
def firstRepeatAfter? (seen : List String) : List String → Option String
  | [] => none
  | name :: rest => if name ∈ seen then some name else firstRepeatAfter? (name :: seen) rest

def firstRepeat? (names : List String) : Option String :=
  firstRepeatAfter? [] names

def valueOf? (constants : List Constant) (name : String) : Option Int :=
  (constants.find? fun declared => declared.name == name).map Constant.value

def readFlag (constants : List Constant) (function : String) : Except ResolveError Bool :=
  match valueOf? constants (flagName function) with
  | none => .ok false
  | some value =>
    if value = 0 then .ok false
    else if value = 1 then .ok true
    else .error (.badFlag (flagName function) value)

/-- The signatures of functions, where `seen` holds the names met before. -/
def signaturesAfter (constants : List Constant) (seen : List String) :
    List FunctionDecl → Except ResolveError (List Signature)
  | [] => .ok []
  | declared :: rest =>
    if declared.name ∈ seen then .error (.functionTwice declared.name)
    else
      match readFlag constants declared.name with
      | .error fault => .error fault
      | .ok suspends =>
        match signaturesAfter constants (declared.name :: seen) rest with
        | .error fault => .error fault
        | .ok signatures =>
          .ok (⟨declared.name, declared.params.length, suspends, declared.params,
            declared.returns⟩ :: signatures)

/-- Whether a constant is the flag of one of the functions. -/
def isFlagOf (functions : List FunctionDecl) (name : String) : Bool :=
  functions.any fun declared => flagName declared.name == name

def resolve (directives : List Directive) : Except ResolveError Manifest :=
  let constants := constantsOf directives
  let functions := functionsOf directives
  match firstRepeat? (constants.map Constant.name) with
  | some name => .error (.constantTwice name)
  | none =>
    match signaturesAfter constants [] functions with
    | .error fault => .error fault
    | .ok signatures =>
      .ok ⟨signatures, constants.filter fun declared => !isFlagOf functions declared.name⟩

end ResourceHandles
