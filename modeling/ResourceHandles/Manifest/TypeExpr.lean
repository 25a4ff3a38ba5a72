import ResourceHandles.Text.Blank

/-!
# Type expressions

A type is a base word under any number of list brackets.  Its text is the base
word followed by one `[]` for each level.  Reading allows blanks on both ends
and before each pair of brackets, and nowhere else.
-/

namespace ResourceHandles

/-- The type named in a function declaration. -/
inductive TypeExpr where
  | int
  | string
  | nil
  | list (element : TypeExpr)
  deriving Repr, DecidableEq

/-- A text whose base word names no type. -/
structure UnknownType where
  word : String
  deriving Repr, DecidableEq

def UnknownType.message (fault : UnknownType) : String :=
  "unknown type '" ++ fault.word ++ "'"

namespace TypeExpr

def ofWord? (word : String) : Option TypeExpr :=
  if word = "int" then some int
  else if word = "string" then some string
  else if word = "nil" then some nil
  else none

/-- The type with `depth` list levels around `base`. -/
def nested (base : TypeExpr) : Nat → TypeExpr
  | 0 => base
  | depth + 1 => list (nested base depth)

def depth : TypeExpr → Nat
  | list element => element.depth + 1
  | _ => 0

def text : TypeExpr → String
  | int => "int"
  | string => "string"
  | nil => "nil"
  | list element => element.text ++ "[]"

/-- Counts the pairs of brackets at the end of a text that is given last
character first, and returns what stands before them. -/
def splitBrackets : List Char → Nat × List Char
  | ']' :: '[' :: rest => ((splitBrackets rest).1 + 1, (splitBrackets rest).2)
  | c :: rest => if Text.isBlank c then splitBrackets rest else (0, c :: rest)
  | [] => (0, [])

def parse (text : List Char) : Except UnknownType TypeExpr :=
  let (depth, reversedWord) := splitBrackets text.reverse
  let word := String.ofList (Text.trim reversedWord.reverse)
  match ofWord? word with
  | some base => .ok (nested base depth)
  | none => .error ⟨word⟩

/-- Whether reading the text of a type gives the type again. -/
def roundTrips (type : TypeExpr) : Bool :=
  match parse type.text.toList with
  | .ok again => again == type
  | .error _ => false

end TypeExpr

end ResourceHandles
