import ResourceHandles.Text.Hex

/-!
# Quoted strings

A string is written in one of four forms: between single quotes or between
triples of them, and with quotation marks, where a backslash starts an escape,
or with apostrophes, where nothing is escaped.  The forms of triple quotes may
hold line feeds; a line feed right after the opening quotes is not part of the
string.

The plainest form that needs no escapes is written: quotation marks first, then
apostrophes, then triples of either.  A string that needs escapes is written
with quotation marks, in triples if it holds a line feed.
-/

namespace ResourceHandles.Toml

open Text

/-! ## Writing -/

/-- The four forms of a string. -/
inductive StringForm where
  | basic
  | literal
  | multilineBasic
  | multilineLiteral
  deriving Repr, DecidableEq

/-- Whether a character can only be written as an escape: a control character
other than a tab and a line feed. -/
def needsEscape (c : Char) : Bool :=
  (c.toNat < 0x20 && c != '\t' && c != '\n') || c.toNat == 0x7F

/-- The length of the longest run of a character, where `run` is the length of
the current run and `longest` that of the longest one before. -/
def longestRunFrom (counted : Char) (run longest : Nat) : List Char → Nat
  | [] => max run longest
  | c :: rest =>
    if c = counted then longestRunFrom counted (run + 1) longest rest
    else longestRunFrom counted 0 (max run longest) rest

/-- The length of the longest run of a character. -/
def longestRun (counted : Char) (text : List Char) : Nat :=
  longestRunFrom counted 0 0 text

def formOf (text : List Char) : StringForm :=
  let escapes := text.any needsEscape
  let newline := text.contains '\n'
  let backslash := text.contains '\\'
  if !escapes && !backslash && !text.contains '"' && !newline then .basic
  else if !escapes && !text.contains '\'' && !newline then .literal
  else if !escapes && !backslash && longestRun '"' text ≤ 2 then .multilineBasic
  else if !escapes && longestRun '\'' text ≤ 2 then .multilineLiteral
  else if newline then .multilineBasic
  else .basic

/-- The escape of a character other than a quotation mark, or the character
itself; a line feed stands for itself between triples. -/
def escape (multiline : Bool) (c : Char) : List Char :=
  if c = '\x08' then ['\\', 'b']
  else if c = '\t' then ['\\', 't']
  else if c = '\x0c' then ['\\', 'f']
  else if c = '\r' then ['\\', 'r']
  else if c = '\\' then ['\\', '\\']
  else if c = '\n' then if multiline then ['\n'] else ['\\', 'n']
  else if needsEscape c then
    ['\\', 'u', '0', '0', upperHexDigit (c.toNat / 16), upperHexDigit (c.toNat % 16)]
  else [c]

/-- The text between quotation marks.  Between triples two quotation marks in a
row stand for themselves; `run` counts those just written. -/
def escapeAll (multiline : Bool) (run : Nat) : List Char → List Char
  | [] => []
  | c :: rest =>
    if c = '"' then
      if multiline && run < 2 then '"' :: escapeAll multiline (run + 1) rest
      else '\\' :: '"' :: escapeAll multiline 0 rest
    else escape multiline c ++ escapeAll multiline 0 rest

/-- A line feed in front of a string that holds one. -/
def leadingNewline (text : List Char) : List Char :=
  if text.contains '\n' then ['\n'] else []

def writeAs (text : List Char) : StringForm → List Char
  | .basic => '"' :: escapeAll false 0 text ++ ['"']
  | .literal => '\'' :: text ++ ['\'']
  | .multilineBasic =>
    ['"', '"', '"'] ++ leadingNewline text ++ escapeAll true 0 text ++ ['"', '"', '"']
  | .multilineLiteral =>
    ['\'', '\'', '\''] ++ leadingNewline text ++ text ++ ['\'', '\'', '\'']

def writeString (text : List Char) : List Char :=
  writeAs text (formOf text)

/-! ## Reading -/

/-- A character that stands for itself: a tab, or any character that is no
control character. -/
def isPlain (c : Char) : Bool :=
  c == '\t' || (0x20 ≤ c.toNat && c.toNat != 0x7F)

def shortEscape? : Char → Option Char
  | 'b' => some '\x08'
  | 't' => some '\t'
  | 'n' => some '\n'
  | 'f' => some '\x0c'
  | 'r' => some '\r'
  | 'e' => some '\x1b'
  | '"' => some '"'
  | '\\' => some '\\'
  | _ => none

/-- The character of an escape that is given without its backslash, and what
follows the escape. -/
def takeEscape? : List Char → Option (Char × List Char)
  | 'x' :: a :: b :: rest =>
    ((hexValue? [a, b]).bind charOf?).map fun c => (c, rest)
  | 'u' :: a :: b :: c :: d :: rest =>
    ((hexValue? [a, b, c, d]).bind charOf?).map fun c => (c, rest)
  | 'U' :: a :: b :: c :: d :: e :: f :: g :: h :: rest =>
    ((hexValue? [a, b, c, d, e, f, g, h]).bind charOf?).map fun c => (c, rest)
  | c :: rest => (shortEscape? c).map fun c => (c, rest)
  | [] => none

theorem length_of_takeEscape? {text rest : List Char} {c : Char}
    (htake : takeEscape? text = some (c, rest)) : rest.length < text.length := by
  unfold takeEscape? at htake
  split at htake
  case h_5 => simp at htake
  all_goals
    obtain ⟨_, _, heq⟩ := Option.map_eq_some_iff.1 htake
    obtain ⟨-, rfl⟩ := Prod.mk.inj heq
    simp only [List.length_cons]
    omega

/-- A character in front of a string that was read. -/
def prepend (c : Char) (read : List Char × List Char) : List Char × List Char :=
  (c :: read.1, read.2)

/-- The string up to a quotation mark, and what follows it. -/
def readBasic? (text : List Char) : Option (List Char × List Char) :=
  match text with
  | [] => none
  | '"' :: rest => some ([], rest)
  | '\\' :: rest =>
    match _htake : takeEscape? rest with
    | none => none
    | some (c, rest) => (readBasic? rest).map (prepend c)
  | c :: rest => if isPlain c then (readBasic? rest).map (prepend c) else none
termination_by text.length
decreasing_by
  · have := length_of_takeEscape? _htake
    simp only [List.length_cons]
    omega
  · simp

/-- The string up to an apostrophe, and what follows it. -/
def readLiteral? : List Char → Option (List Char × List Char)
  | [] => none
  | '\'' :: rest => some ([], rest)
  | c :: rest => if isPlain c then (readLiteral? rest).map (prepend c) else none

/-- Whether a text goes on with spaces and tabs up to the end of its line. -/
def endsLine : List Char → Bool
  | '\n' :: _ => true
  | '\r' :: '\n' :: _ => true
  | c :: rest => (c == ' ' || c == '\t') && endsLine rest
  | [] => false

/-- The text without the spaces, tabs and line ends at its head. -/
def skipFolded : List Char → List Char
  | '\r' :: '\n' :: rest => skipFolded rest
  | c :: rest => if c = ' ' ∨ c = '\t' ∨ c = '\n' then skipFolded rest else c :: rest
  | [] => []

theorem length_skipFolded_le (text : List Char) : (skipFolded text).length ≤ text.length := by
  fun_induction skipFolded text with
  | case1 rest ih => simp only [List.length_cons]; omega
  | case2 c rest _ _ ih => simp only [List.length_cons]; omega
  | case3 => exact Nat.le_refl _
  | case4 => exact Nat.le_refl _

/-- The string up to three quotation marks, and what follows them; up to two
more quotation marks before these belong to the string.  A backslash at the end
of a line joins the lines. -/
def readMultilineBasic? (text : List Char) : Option (List Char × List Char) :=
  match text with
  | [] => none
  | '"' :: '"' :: '"' :: '"' :: '"' :: rest => some (['"', '"'], rest)
  | '"' :: '"' :: '"' :: '"' :: rest => some (['"'], rest)
  | '"' :: '"' :: '"' :: rest => some ([], rest)
  | '\\' :: rest =>
    if endsLine rest then readMultilineBasic? (skipFolded rest)
    else
      match _htake : takeEscape? rest with
      | none => none
      | some (c, rest) => (readMultilineBasic? rest).map (prepend c)
  | '\r' :: '\n' :: rest =>
    (readMultilineBasic? rest).map fun read => prepend '\r' (prepend '\n' read)
  | c :: rest =>
    if isPlain c || c == '\n' then (readMultilineBasic? rest).map (prepend c) else none
termination_by text.length
decreasing_by
  · have := length_skipFolded_le rest
    simp only [List.length_cons]
    omega
  · have := length_of_takeEscape? _htake
    simp only [List.length_cons]
    omega
  · simp only [List.length_cons]
    omega
  · simp

/-- The string up to three apostrophes, and what follows them; up to two more
apostrophes before these belong to the string. -/
def readMultilineLiteral? : List Char → Option (List Char × List Char)
  | [] => none
  | '\'' :: '\'' :: '\'' :: '\'' :: '\'' :: rest => some (['\'', '\''], rest)
  | '\'' :: '\'' :: '\'' :: '\'' :: rest => some (['\''], rest)
  | '\'' :: '\'' :: '\'' :: rest => some ([], rest)
  | '\r' :: '\n' :: rest =>
    (readMultilineLiteral? rest).map fun read => prepend '\r' (prepend '\n' read)
  | c :: rest =>
    if isPlain c || c == '\n' then (readMultilineLiteral? rest).map (prepend c) else none

def dropNewline : List Char → List Char
  | '\n' :: rest => rest
  | '\r' :: '\n' :: rest => rest
  | text => text

/-- A string in any of the four forms, and what follows it. -/
def readString? : List Char → Option (List Char × List Char)
  | '"' :: '"' :: '"' :: rest => readMultilineBasic? (dropNewline rest)
  | '"' :: rest => readBasic? rest
  | '\'' :: '\'' :: '\'' :: rest => readMultilineLiteral? (dropNewline rest)
  | '\'' :: rest => readLiteral? rest
  | _ => none

end ResourceHandles.Toml
