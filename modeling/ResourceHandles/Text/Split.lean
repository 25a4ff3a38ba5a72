/-!
# Splitting at a character

The pieces of a text between the occurrences of a character, and the two parts
of a text around the last occurrence.
-/

namespace ResourceHandles.Text

/-- The pieces between the occurrences of `separator`, one more than there are
occurrences. -/
def splitOn (separator : Char) : List Char → List (List Char)
  | [] => [[]]
  | c :: rest =>
    if c = separator then [] :: splitOn separator rest
    else
      match splitOn separator rest with
      | [] => [[c]]
      | piece :: pieces => (c :: piece) :: pieces

/-- The text before the last occurrence of `separator` and the text after it. -/
def splitAtLast? (separator : Char) : List Char → Option (List Char × List Char)
  | [] => none
  | c :: rest =>
    match splitAtLast? separator rest with
    | some (before, after) => some (c :: before, after)
    | none => if c = separator then some ([], rest) else none

/-- The pieces with one separator between each two of them. -/
def joinWith (separator : Char) (pieces : List (List Char)) : List Char :=
  List.intercalate [separator] pieces

end ResourceHandles.Text
