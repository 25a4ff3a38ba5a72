import ResourceHandles.Manifest.Directive
import ResourceHandles.Text.Token

/-!
# The outer shape of a directive

Recognising a directive happens in two steps.  The shape of the text is found
first: its keyword, its names, its brackets.  What the shape holds, a numeral
or type texts, is read afterwards.

A name and a type in round brackets, joined by a colon, form a group.  The type
text of a group runs to the next round bracket, so it holds none, and it is not
empty.  The parameter text of a function lies between the first square bracket
after the leading group and the last one before the final round bracket, and it
holds no line feed.
-/

namespace ResourceHandles

open Text

def isTypeChar (c : Char) : Bool :=
  c != '(' && c != ')'

/-- A name and the text of a type. -/
structure Group where
  name : String
  typeText : List Char
  deriving Repr, DecidableEq

/-- A group at the head of the text, and what follows it. -/
def takeGroup? (text : List Char) : Option (Group × List Char) := do
  let inner ← dropChar? '(' text
  let (name, afterName) ← takeName? (skipBlanks inner)
  let typed ← dropChar? ':' (skipBlanks afterName)
  let rest ← dropChar? ')' (typed.dropWhile isTypeChar)
  if (typed.takeWhile isTypeChar).isEmpty then none
  else some (⟨String.ofList name, typed.takeWhile isTypeChar⟩, rest)

theorem length_of_takeGroup? {text rest : List Char} {group : Group}
    (htake : takeGroup? text = some (group, rest)) : rest.length < text.length := by
  simp only [takeGroup?, Option.bind_eq_bind, Option.bind_eq_some_iff] at htake
  obtain ⟨inner, hinner, ⟨name, afterName⟩, hname, typed, htyped, after, hafter, hrest⟩ := htake
  dsimp only at htyped
  have hinnerLength := length_of_dropChar? hinner
  have hnameLength := length_of_takeName? hname
  have htypedLength := length_of_dropChar? htyped
  have hafterLength := length_of_dropChar? hafter
  have hskipInner := length_skipBlanks_le inner
  have hskipName := length_skipBlanks_le afterName
  have hdropLength := (List.dropWhile_sublist (l := typed) isTypeChar).length_le
  split at hrest
  · simp at hrest
  · obtain ⟨-, rfl⟩ := Prod.mk.inj (Option.some.inj hrest)
    omega

/-- The groups of a text, taken from the left without overlap, and the
characters that belong to none of them. -/
def splitGroups (text : List Char) : List Group × List Char :=
  match text with
  | [] => ([], [])
  | c :: tail =>
    match _htake : takeGroup? (c :: tail) with
    | some (group, rest) =>
      let (groups, stray) := splitGroups rest
      (group :: groups, stray)
    | none =>
      let (groups, stray) := splitGroups tail
      (groups, c :: stray)
termination_by text.length
decreasing_by
  · exact length_of_takeGroup? _htake
  · simp

/-- The text of a constant, `(def NAME NUMERAL)`. -/
structure ConstantShape where
  name : String
  negative : Bool
  digits : List Char
  deriving Repr, DecidableEq

/-- The text of a function, `(defun (NAME: TYPE) [PARAMETERS])`. -/
structure FunctionShape where
  head : Group
  paramText : List Char
  deriving Repr, DecidableEq

/-- Drops a minus sign if there is one, and tells whether there was. -/
def takeSign : List Char → Bool × List Char
  | '-' :: rest => (true, rest)
  | text => (false, text)

def constantShape? (text : List Char) : Option ConstantShape := do
  let afterWord ← dropWord? ['(', 'd', 'e', 'f'] text
  let named ← skipSomeBlanks? afterWord
  let (name, afterName) ← takeName? named
  let signed ← skipSomeBlanks? afterName
  let (negative, unsigned) := takeSign signed
  let rest := skipBlanks (unsigned.dropWhile isDecimalDigit)
  if (unsigned.takeWhile isDecimalDigit).isEmpty then none
  else if rest = [')'] then
    some ⟨String.ofList name, negative, unsigned.takeWhile isDecimalDigit⟩
  else none

/-- The text before a final `]`, blanks, and `)`. -/
def dropClosing? (text : List Char) : Option (List Char) := do
  let bracketed ← dropChar? ')' text.reverse
  let inner ← dropChar? ']' (skipBlanks bracketed)
  return inner.reverse

def functionShape? (text : List Char) : Option FunctionShape := do
  let afterWord ← dropWord? ['(', 'd', 'e', 'f', 'u', 'n'] text
  let grouped ← skipSomeBlanks? afterWord
  let (head, afterHead) ← takeGroup? grouped
  let bracketed ← dropChar? '[' (skipBlanks afterHead)
  let paramText ← dropClosing? bracketed
  if paramText.contains '\n' then none
  else some ⟨head, paramText⟩

end ResourceHandles
