import ResourceHandles.Text.Split

/-!
# Path texts

A path is a text whose pieces lie between slashes.  A piece counts if it is
neither empty nor a single dot; a single dot counts at the very beginning, and
so does the empty piece in front of a leading slash.  The operations here work
on the text alone and look at no directory.
-/

namespace ResourceHandles

/-- A path, as it is written. -/
structure Path where
  text : String
  deriving Repr, DecidableEq

namespace Path

def pieces (path : Path) : List (List Char) :=
  Text.splitOn '/' path.text.toList

/-- The path of some pieces; a lone empty piece in front stands for the root. -/
def ofPieces (pieces : List (List Char)) : Path :=
  if pieces = [[]] then ⟨"/"⟩ else ⟨String.ofList (Text.joinWith '/' pieces)⟩

/-- Whether a piece that is not the first one counts. -/
def counts (piece : List Char) : Bool :=
  piece != [] && piece != ['.']

/-- Removes the pieces at the end that do not count; the first piece stays. -/
def dropIdle : List (List Char) → List (List Char)
  | [] => []
  | first :: rest => first :: (rest.reverse.dropWhile fun piece => !counts piece).reverse

/-- The path without its last piece that counts, `none` if it has none. -/
def parent? (path : Path) : Option Path :=
  match dropIdle path.pieces with
  | [] => none
  | [[]] => none
  | [_] => some ⟨""⟩
  | first :: rest => some (ofPieces (dropIdle (first :: rest.dropLast)))

/-- The last piece that counts, if it names a file. -/
def fileName? (path : Path) : Option (List Char) :=
  match (dropIdle path.pieces).getLast? with
  | none => none
  | some last => if last = [] ∨ last = ['.'] ∨ last = ['.', '.'] then none else some last

/-- A file name up to its last dot; a dot in front of everything does not count. -/
def stem (name : List Char) : List Char :=
  match Text.splitAtLast? '.' name with
  | some (before, _) => if before.isEmpty then name else before
  | none => name

/-- What follows the last dot of a file name; a dot in front of everything does
not count. -/
def extension (name : List Char) : List Char :=
  match Text.splitAtLast? '.' name with
  | some (before, after) => if before.isEmpty then [] else after
  | none => []

/-- The path shortened at its end by as many characters as the extension of its
file name has. -/
def cutExtension (path : Path) : Path :=
  let text := path.text.toList
  let cut := ((path.fileName?.map extension).getD []).length
  ⟨String.ofList (text.take (text.length - cut))⟩

/-- The path with another extension for the one it has.  A path that names no
file, or names none without its extension as `..x` does, gets no other one. -/
def withExtension (path : Path) (extension : String) : Path :=
  let cut := path.cutExtension
  match cut.fileName? with
  | none => cut
  | some name =>
    ofPieces ((dropIdle cut.pieces).dropLast ++ [stem name ++ '.' :: extension.toList])

/-- A path continued by a name; nothing is put in front of the name if the path
is empty. -/
def join (path : Path) (name : String) : Path :=
  if path.text.isEmpty then ⟨name⟩
  else if path.text.toList.getLast? = some '/' then ⟨path.text ++ name⟩
  else ⟨path.text ++ "/" ++ name⟩

def hasNull (path : Path) : Bool :=
  path.text.toList.contains '\x00'

/-- The names that a walk along the path goes through, dots included. -/
def names (path : Path) : List String :=
  (path.pieces.filter fun piece => !piece.isEmpty).map String.ofList

def endsInSlash (path : Path) : Bool :=
  path.text.toList.getLast? == some '/'

end Path

end ResourceHandles
