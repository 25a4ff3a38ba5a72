import ResourceHandles.Text.Digit
import ResourceHandles.Text.Hex
import ResourceHandles.Text.Token

/-!
# JSON values

Reading takes one value with blanks around it and nothing else.  A number
without a fraction and an exponent is an integer, except for minus zero, which
is not; all other numbers are kept as their text.  Objects keep their members
in order, repeated names included.
-/

namespace ResourceHandles

/-- A JSON value. -/
inductive Json where
  | null
  | bool (value : Bool)
  | integer (value : Int)
  | decimal (text : List Char)
  | string (value : String)
  | array (items : List Json)
  | object (members : List (String × Json))
  deriving Repr

namespace Json

/-! ## Reading -/

def isSpace (c : Char) : Bool :=
  c == ' ' || c == '\t' || c == '\n' || c == '\r'

/-- The text from its first character that is no space. -/
def skipSpaces (text : List Char) : List Char :=
  text.dropWhile isSpace

/-- Whether a number is the first half of a surrogate pair. -/
def isHighSurrogate (unit : Nat) : Bool :=
  0xD800 ≤ unit && unit ≤ 0xDBFF

/-- Whether a number is the second half of a surrogate pair. -/
def isLowSurrogate (unit : Nat) : Bool :=
  0xDC00 ≤ unit && unit ≤ 0xDFFF

def shortEscape? : Char → Option Char
  | '"' => some '"'
  | '\\' => some '\\'
  | '/' => some '/'
  | 'b' => some '\x08'
  | 'f' => some '\x0c'
  | 'n' => some '\n'
  | 'r' => some '\r'
  | 't' => some '\t'
  | _ => none

/-- The rest of a string up to its closing quote; `reversed` holds the
characters before it, last one first. -/
def readStringFrom? (reversed : List Char) : List Char → Option (List Char × List Char)
  | [] => none
  | '"' :: rest => some (reversed.reverse, rest)
  | '\\' :: 'u' :: a :: b :: c :: d :: '\\' :: 'u' :: e :: f :: g :: h :: rest =>
    match Text.hexValue? [a, b, c, d] with
    | none => none
    | some unit =>
      if isHighSurrogate unit then
        match Text.hexValue? [e, f, g, h] with
        | none => none
        | some second =>
          if isLowSurrogate second then
            readStringFrom?
              (Char.ofNat (0x10000 + (unit - 0xD800) * 0x400 + (second - 0xDC00)) :: reversed) rest
          else none
      else if isLowSurrogate unit then none
      else
        readStringFrom? (Char.ofNat unit :: reversed) ('\\' :: 'u' :: e :: f :: g :: h :: rest)
  | '\\' :: 'u' :: a :: b :: c :: d :: rest =>
    match Text.hexValue? [a, b, c, d] with
    | none => none
    | some unit =>
      if isHighSurrogate unit || isLowSurrogate unit then none
      else readStringFrom? (Char.ofNat unit :: reversed) rest
  | '\\' :: c :: rest =>
    match shortEscape? c with
    | some escaped => readStringFrom? (escaped :: reversed) rest
    | none => none
  | c :: rest => if c.toNat < 0x20 then none else readStringFrom? (c :: reversed) rest
termination_by text => text.length

def readString? : List Char → Option (String × List Char)
  | '"' :: rest => (readStringFrom? [] rest).map fun read => (String.ofList read.1, read.2)
  | _ => none

def decimalValue (digits : List Char) : Nat :=
  digits.foldl (fun value c => value * 10 + (c.toNat - '0'.toNat)) 0

/-- Drops an exponent if there is one; `none` if it lacks its digits. -/
def skipExponent? (text : List Char) : Option (List Char) :=
  match text with
  | c :: rest =>
    if c = 'e' ∨ c = 'E' then
      let unsigned :=
        match rest with
        | '+' :: digits => digits
        | '-' :: digits => digits
        | digits => digits
      if (unsigned.takeWhile Char.isDigit).isEmpty then none
      else some (unsigned.dropWhile Char.isDigit)
    else some text
  | [] => some []

/-- Drops a fraction if there is one; `none` if it lacks its digits. -/
def skipFraction? (text : List Char) : Option (List Char) :=
  match text with
  | '.' :: rest =>
    if (rest.takeWhile Char.isDigit).isEmpty then none
    else some (rest.dropWhile Char.isDigit)
  | _ => some text

/-- The digits of the whole part of a number: a zero alone, or digits that do
not start with zero. -/
def takeWhole? (text : List Char) : Option (List Char × List Char) :=
  match text with
  | '0' :: rest =>
    match rest with
    | c :: _ => if c.isDigit then none else some (['0'], rest)
    | [] => some (['0'], rest)
  | _ =>
    if (text.takeWhile Char.isDigit).isEmpty then none
    else some (text.takeWhile Char.isDigit, text.dropWhile Char.isDigit)

def readNumber? (text : List Char) : Option (Json × List Char) := do
  let (negative, unsigned) :=
    match text with
    | '-' :: rest => (true, rest)
    | _ => (false, text)
  let (digits, afterWhole) ← takeWhole? unsigned
  let afterFraction ← skipFraction? afterWhole
  let rest ← skipExponent? afterFraction
  let value := decimalValue digits
  if rest.length = afterWhole.length ∧ ¬ (negative = true ∧ value = 0) then
    some (.integer (if negative then - (value : Int) else value), rest)
  else some (.decimal (text.take (text.length - rest.length)), rest)

mutual

/-- A value at the head of the text, spaces before it skipped; `depth` bounds
how deep values are nested. -/
def readValue? : Nat → List Char → Option (Json × List Char)
  | 0, _ => none
  | depth + 1, text =>
    match skipSpaces text with
    | 'n' :: rest => (Text.dropWord? ['u', 'l', 'l'] rest).map fun rest => (.null, rest)
    | 't' :: rest => (Text.dropWord? ['r', 'u', 'e'] rest).map fun rest => (.bool true, rest)
    | 'f' :: rest => (Text.dropWord? ['a', 'l', 's', 'e'] rest).map fun rest => (.bool false, rest)
    | '"' :: rest => (readString? ('"' :: rest)).map fun read => (.string read.1, read.2)
    | '[' :: rest =>
      match skipSpaces rest with
      | ']' :: rest => some (.array [], rest)
      | _ => (readItems? depth rest).map fun read => (.array read.1, read.2)
    | '\x7b' :: rest =>
      match skipSpaces rest with
      | '\x7d' :: rest => some (.object [], rest)
      | _ => (readMembers? depth rest).map fun read => (.object read.1, read.2)
    | text => readNumber? text
termination_by depth => depth

/-- The items of an array that is not empty, up to its closing bracket. -/
def readItems? : Nat → List Char → Option (List Json × List Char)
  | 0, _ => none
  | depth + 1, text =>
    match readValue? depth text with
    | none => none
    | some (item, rest) =>
      match skipSpaces rest with
      | ',' :: rest => (readItems? depth rest).map fun read => (item :: read.1, read.2)
      | ']' :: rest => some ([item], rest)
      | _ => none
termination_by depth => depth

/-- The members of an object that is not empty, up to its closing brace. -/
def readMembers? : Nat → List Char → Option (List (String × Json) × List Char)
  | 0, _ => none
  | depth + 1, text =>
    match readString? (skipSpaces text) with
    | none => none
    | some (name, rest) =>
      match skipSpaces rest with
      | ':' :: rest =>
        match readValue? depth rest with
        | none => none
        | some (value, rest) =>
          match skipSpaces rest with
          | ',' :: rest =>
            (readMembers? depth rest).map fun read => ((name, value) :: read.1, read.2)
          | '\x7d' :: rest => some ([(name, value)], rest)
          | _ => none
      | _ => none
termination_by depth => depth

end

def parse? (text : String) : Option Json :=
  match readValue? (2 * text.length + 2) text.toList with
  | some (value, rest) => if (skipSpaces rest).isEmpty then some value else none
  | none => none

/-! ## Writing -/

def escape (c : Char) : List Char :=
  if c = '"' then ['\\', '"']
  else if c = '\\' then ['\\', '\\']
  else if c = '\x08' then ['\\', 'b']
  else if c = '\x0c' then ['\\', 'f']
  else if c = '\n' then ['\\', 'n']
  else if c = '\r' then ['\\', 'r']
  else if c = '\t' then ['\\', 't']
  else if c.toNat < 0x20 then
    ['\\', 'u', '0', '0', Text.lowerHexDigit (c.toNat / 16), Text.lowerHexDigit (c.toNat % 16)]
  else [c]

def quote (text : String) : String :=
  String.ofList ('"' :: text.toList.flatMap escape ++ ['"'])

/-- The spaces in front of a line at a level. -/
def indentation (level : Nat) : String :=
  String.ofList (List.replicate (2 * level) ' ')

/-- Lines with a comma after each but the last, between two brackets of which
the closing one stands at a level. -/
def bracketed (level : Nat) (opening closing : String) (lines : List String) : String :=
  if lines.isEmpty then opening ++ closing
  else
    opening ++ "\n" ++
      String.intercalate ",\n" (lines.map fun line => indentation (level + 1) ++ line) ++
      "\n" ++ indentation level ++ closing

mutual

/-- A value over several lines, each level two spaces further in; an array or
object without content stays on one line. -/
def pretty (level : Nat) : Json → String
  | .null => "null"
  | .bool true => "true"
  | .bool false => "false"
  | .integer value => toString value
  | .decimal text => String.ofList text
  | .string value => quote value
  | .array items => bracketed level "[" "]" (prettyItems (level + 1) items)
  | .object members => bracketed level "\x7b" "\x7d" (prettyMembers (level + 1) members)

def prettyItems (level : Nat) : List Json → List String
  | [] => []
  | item :: items => pretty level item :: prettyItems level items

def prettyMembers (level : Nat) : List (String × Json) → List String
  | [] => []
  | (name, value) :: members =>
    (quote name ++ ": " ++ pretty level value) :: prettyMembers level members

end

end Json

end ResourceHandles
