/-!
# Arguments of a command

Options are given by their full names, with the value in the next argument or
behind an equals sign.  A value in an argument of its own does not begin with a
dash unless it is a lone dash.  After a double dash everything is an operand.
Arguments are read from the left, and the first one that is refused, or asks for
the help or the version, decides.
-/

namespace ResourceHandles

/-- A finished run of a command: its exit code, and what it wrote to its two
outputs. -/
structure Exit where
  code : Nat
  output : String := ""
  diagnostics : String := ""
  deriving Repr, DecidableEq

def failureCode : Nat := 1

/-- The exit code of a command whose arguments were refused. -/
def refusalCode : Nat := 2

/-- What the arguments of a command ask for. -/
inductive Demand (α : Type) where
  | run (options : α)
  | help
  | version
  | refused
  deriving Repr, DecidableEq

/-- The arguments that a command knows.  Setting an option and adding an operand
may be refused; an option that is set already is refused by its setter. -/
structure Grammar (α : Type) where
  option? : String → Option (α → String → Option α)
  operand : α → String → Option α
  hasVersion : Bool

/-- The form of one argument. -/
inductive ArgumentForm where
  | operand
  | endOfOptions
  | short (letter : Char)
  | long (name : String) (value : Option String)
  deriving Repr, DecidableEq

def ArgumentForm.of (argument : String) : ArgumentForm :=
  match argument.toList with
  | ['-', '-'] => .endOfOptions
  | '-' :: '-' :: rest =>
    match rest.dropWhile (· != '=') with
    | [] => .long (String.ofList rest) none
    | _ :: value => .long (String.ofList (rest.takeWhile (· != '='))) (some (String.ofList value))
  | '-' :: letter :: _ => .short letter
  | _ => .operand

namespace Grammar

variable {α : Type}

def readOperands (grammar : Grammar α) (options : α) : List String → Demand α
  | [] => .run options
  | operand :: rest =>
    match grammar.operand options operand with
    | none => .refused
    | some changed => grammar.readOperands changed rest

def short (grammar : Grammar α) (letter : Char) : Demand α :=
  if letter = 'h' then .help
  else if letter = 'V' ∧ grammar.hasVersion = true then .version
  else .refused

def flag (grammar : Grammar α) (name : String) : Demand α :=
  if name = "help" then .help
  else if name = "version" ∧ grammar.hasVersion = true then .version
  else .refused

def read (grammar : Grammar α) (options : α) : List String → Demand α
  | [] => .run options
  | argument :: rest =>
    match ArgumentForm.of argument with
    | .operand =>
      match grammar.operand options argument with
      | none => .refused
      | some changed => grammar.read changed rest
    | .endOfOptions => grammar.readOperands options rest
    | .short letter => grammar.short letter
    | .long name value =>
      match grammar.option? name, value with
      | none, none => grammar.flag name
      | none, some _ => .refused
      | some set, some text =>
        match set options text with
        | none => .refused
        | some changed => grammar.read changed rest
      | some set, none =>
        match rest with
        | [] => .refused
        | text :: later =>
          if ArgumentForm.of text = .operand then
            match set options text with
            | none => .refused
            | some changed => grammar.read changed later
          else .refused

end Grammar

end ResourceHandles
