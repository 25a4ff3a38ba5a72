import ResourceHandles.Toml.Quoted
import ResourceHandles.Toml.Scalar
import ResourceHandles.Toml.Table

/-!
# Documents

A document is a row of lines: values under keys, headers, and lines without
either.  A comment may end any of them.  Arrays and tables in braces may run
over several lines, with comments between their parts, and a comma may follow
their last part.  The key of a value in braces is such a part, its equals sign
another; the names of one key stay on one line.
-/

namespace ResourceHandles.Toml

/-- How deep arrays and tables in braces may be nested. -/
def maxDepth : Nat := 80

def maxNames : Nat := 80

/-! ## Between tokens -/

/-- The text from its first character that is neither a space nor a tab. -/
def skipSpaces (text : List Char) : List Char :=
  text.dropWhile fun c => c == ' ' || c == '\t'

/-- The text without spaces, line ends and comments at its head; `comment` tells
whether it starts inside a comment. -/
def skipGapsFrom : Bool → List Char → List Char
  | _, [] => []
  | _, '\r' :: '\n' :: rest => skipGapsFrom false rest
  | true, c :: rest =>
    if c = '\n' then skipGapsFrom false rest
    else if isPlain c then skipGapsFrom true rest
    else c :: rest
  | false, c :: rest =>
    if c = ' ' ∨ c = '\t' ∨ c = '\n' then skipGapsFrom false rest
    else if c = '#' then skipGapsFrom true rest
    else c :: rest

/-- The text without spaces, line ends and comments at its head. -/
def skipGaps (text : List Char) : List Char :=
  skipGapsFrom false text

def dropComment (text : List Char) : List Char :=
  match text with
  | '#' :: rest => rest.dropWhile isPlain
  | _ => text

/-- What follows the current line if nothing but spaces and a comment are left
of it. -/
def endLine? (text : List Char) : Option (List Char) :=
  match dropComment (skipSpaces text) with
  | [] => some []
  | '\n' :: rest => some rest
  | '\r' :: '\n' :: rest => some rest
  | _ => none

/-! ## Keys -/

def isKeyChar (c : Char) : Bool :=
  c.isAlphanum || c == '_' || c == '-'

def readName? (text : List Char) : Option (String × List Char) :=
  match text with
  | '"' :: rest => (readBasic? rest).map fun read => (String.ofList read.1, read.2)
  | '\'' :: rest => (readLiteral? rest).map fun read => (String.ofList read.1, read.2)
  | _ =>
    if (text.takeWhile isKeyChar).isEmpty then none
    else some (String.ofList (text.takeWhile isKeyChar), text.dropWhile isKeyChar)

/-- The names of a key with dots between them, at most a given number of them, and
what follows the spaces after it. -/
def readNames? : Nat → List Char → Option (List String × List Char)
  | 0, _ => none
  | room + 1, text =>
    match readName? text with
    | none => none
    | some (name, rest) =>
      match skipSpaces rest with
      | '.' :: rest => (readNames? room (skipSpaces rest)).map fun read => (name :: read.1, read.2)
      | rest => some ([name], rest)

/-- The names of a key, and what follows the spaces after it. -/
def readKey? (text : List Char) : Option (List String × List Char) :=
  readNames? maxNames text

/-- The names of a key up to an equals sign, and where the value begins; `skip`
drops what may stand on both sides of the equals sign. -/
def readAssigned? (skip : List Char → List Char) (text : List Char) :
    Option (List String × List Char) :=
  match readKey? text with
  | none => none
  | some (names, rest) =>
    match skip rest with
    | '=' :: rest => some (names, skip rest)
    | _ => none

/-! ## Values -/

def Item.ofScalar : Scalar → Item
  | .integer value => .integer value
  | .other => .other

mutual

/-- The value at the head of the text, and what follows it; `depth` bounds how
deep it is nested. -/
def readValue? : Nat → Nat → List Char → Option (Item × List Char)
  | 0, _, _ => none
  | fuel + 1, depth, text =>
    match text with
    | '[' :: rest =>
      match depth with
      | 0 => none
      | depth + 1 =>
        (readItems? fuel depth (skipGaps rest)).map fun after =>
          (.array ((skipGaps rest).head? == some ']'), after)
    | '\x7b' :: rest =>
      match depth with
      | 0 => none
      | depth + 1 =>
        (readMembers? fuel depth [] (skipGaps rest)).map fun read =>
          (.table .inline read.1, read.2)
    | c :: _ =>
      if c = '"' ∨ c = '\'' then
        (readString? text).map fun read => (.string (String.ofList read.1), read.2)
      else (readScalar? text).map fun read => (Item.ofScalar read.1, read.2)
    | [] => none
termination_by fuel => fuel

def readItems? : Nat → Nat → List Char → Option (List Char)
  | 0, _, _ => none
  | fuel + 1, depth, text =>
    match text with
    | ']' :: rest => some rest
    | _ =>
      match readValue? fuel depth text with
      | none => none
      | some (_, rest) =>
        match skipGaps rest with
        | ',' :: rest => readItems? fuel depth (skipGaps rest)
        | ']' :: rest => some rest
        | _ => none
termination_by fuel => fuel

/-- The members of a table in braces after those read before, and what follows
its closing brace. -/
def readMembers? : Nat → Nat → Members → List Char → Option (Members × List Char)
  | 0, _, _, _ => none
  | fuel + 1, depth, members, text =>
    match text with
    | '\x7d' :: rest => some (members, rest)
    | _ =>
      match readAssigned? skipGaps text with
      | none => none
      | some (names, rest) =>
        match readValue? fuel depth rest, names.getLast? with
        | some (item, rest), some key =>
          match Members.assign names.dropLast key item .inline members with
          | none => none
          | some members =>
            match skipGaps rest with
            | ',' :: rest => readMembers? fuel depth members (skipGaps rest)
            | '\x7d' :: rest => some (members, rest)
            | _ => none
        | _, _ => none
termination_by fuel => fuel

end

/-! ## Lines -/

/-- What was read so far, and the table that values are added to. -/
structure State where
  root : Members := []
  current : List String := []
  deriving Repr

namespace State

def assign (state : State) (names : List String) (item : Item) : Option State :=
  match names.getLast? with
  | none => none
  | some key =>
    (Members.changeAt false
      (fun origin members => Members.assign names.dropLast key item origin members)
      state.current .header state.root).map fun root => { state with root := root }

def enter (state : State) (names : List String) : Option State :=
  match names.getLast? with
  | none => none
  | some key =>
    (Members.openTable names.dropLast key state.root).map fun root => ⟨root, names⟩

/-- Goes to a new table of an array of tables. -/
def enterElement (state : State) (names : List String) : Option State :=
  match names.getLast? with
  | none => none
  | some key =>
    (Members.openElement names.dropLast key state.root).map fun root => ⟨root, names⟩

end State

def readHeader? (state : State) (text : List Char) : Option (State × List Char) :=
  match text with
  | '[' :: rest =>
    match readKey? (skipSpaces rest) with
    | some (names, ']' :: ']' :: rest) => (state.enterElement names).map fun state => (state, rest)
    | _ => none
  | _ =>
    match readKey? (skipSpaces text) with
    | some (names, ']' :: rest) => (state.enter names).map fun state => (state, rest)
    | _ => none

def readAssignment? (state : State) (text : List Char) : Option (State × List Char) :=
  match readAssigned? skipSpaces text with
  | none => none
  | some (names, rest) =>
    match readValue? (rest.length + 1) maxDepth rest with
    | none => none
    | some (item, rest) => (state.assign names item).map fun state => (state, rest)

/-- Reads what a line holds besides spaces and a comment. -/
def readLine? (state : State) (text : List Char) : Option (State × List Char) :=
  match text with
  | [] => some (state, [])
  | '[' :: rest => readHeader? state rest
  | c :: _ =>
    if c = '#' ∨ c = '\n' ∨ c = '\r' then some (state, text) else readAssignment? state text

/-- Reads lines up to the end of the text; `fuel` bounds their number. -/
def readLines? : Nat → State → List Char → Option State
  | 0, _, _ => none
  | fuel + 1, state, text =>
    if text.isEmpty then some state
    else
      match readLine? state (skipSpaces text) with
      | none => none
      | some (state, rest) =>
        match endLine? rest with
        | none => none
        | some rest => readLines? fuel state rest

/-- Drops a byte order mark at the head of the text. -/
def dropByteOrderMark (text : List Char) : List Char :=
  match text with
  | '\uFEFF' :: rest => rest
  | _ => text

def readDocument? (text : List Char) : Option Members :=
  (readLines? (text.length + 1) {} (dropByteOrderMark text)).map State.root

end ResourceHandles.Toml
