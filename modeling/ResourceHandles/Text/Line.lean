/-!
# Lines

A line feed ends a line, together with one carriage return right before it.
A lone carriage return and the other Unicode line breaks are ordinary
characters.  Nothing after a final line feed is no line.
-/

namespace ResourceHandles.Text

def dropFinalReturn (line : List Char) : List Char :=
  if line.getLast? = some '\r' then line.dropLast else line

/-- The lines of a text, where `reversed` holds the current line so far, last
character first. -/
def linesFrom (reversed : List Char) : List Char → List (List Char)
  | [] => if reversed.isEmpty then [] else [reversed.reverse]
  | c :: rest =>
    if c = '\n' then dropFinalReturn reversed.reverse :: linesFrom [] rest
    else linesFrom (c :: reversed) rest

def lines (text : List Char) : List (List Char) :=
  linesFrom [] text

end ResourceHandles.Text
