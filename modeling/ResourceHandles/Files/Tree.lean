import ResourceHandles.Bytes
import ResourceHandles.Files.Fault
import ResourceHandles.Files.Path
import ResourceHandles.Store

/-!
# The file tree

The tree binds locations to directories and to files.  A location is the list
of names on the way from the top directory, so the top itself is the empty
list; it is a directory and is not bound.  A file is known by its number, and
its bytes are kept by that number, apart from the tree: a file that no location
leads to any more keeps them for those who have it open.

A walk along a path goes from directory to directory.  A single dot stays, two
dots go up, and the top is its own upper directory.
-/

namespace ResourceHandles

abbrev Location := List String

/-- What a location leads to. -/
inductive Entry where
  | directory
  | file (number : Nat)
  deriving Repr, DecidableEq

/-- A tree of directories and files, and the bytes of all files. -/
structure FileTree where
  entries : Store Location Entry := {}
  contents : List Bytes := []
  deriving Repr, DecidableEq

def maxNameSize : Nat := 255

/-- The least length of a path, in bytes, that is too long. -/
def pathSizeLimit : Nat := 4096

/-- The end of a walk: a name in a directory that is reached, with or without a
slash behind it, or that directory itself. -/
inductive Goal where
  | here (directory : Location)
  | name (directory : Location) (name : String) (slash : Bool)
  deriving Repr, DecidableEq

namespace FileTree

def find? (tree : FileTree) (location : Location) : Option Entry :=
  if location = [] then some .directory else tree.entries.find? location

def child? (tree : FileTree) (directory : Location) (name : String) :
    Except FileFault (Option Entry) :=
  if maxNameSize < name.utf8ByteSize then .error .nameTooLong
  else .ok (tree.find? (directory ++ [name]))

/-- The directory that a walk from `directory` reaches. -/
def walk (tree : FileTree) : Location → List String → Except FileFault Location
  | directory, [] => .ok directory
  | directory, name :: names =>
    if name = "." then tree.walk directory names
    else if name = ".." then tree.walk directory.dropLast names
    else
      match tree.child? directory name with
      | .error fault => .error fault
      | .ok none => .error .notFound
      | .ok (some (.file _)) => .error .notADirectory
      | .ok (some .directory) => tree.walk (directory ++ [name]) names

def locate (tree : FileTree) (path : Path) : Except FileFault Goal :=
  if path.hasNull then .error .nullInPath
  else if path.text.isEmpty then .error .notFound
  else if pathSizeLimit ≤ path.text.utf8ByteSize then .error .nameTooLong
  else
    match path.names.getLast? with
    | none => .ok (.here [])
    | some last =>
      match tree.walk [] path.names.dropLast with
      | .error fault => .error fault
      | .ok directory =>
        if last = "." then .ok (.here directory)
        else if last = ".." then .ok (.here directory.dropLast)
        else .ok (.name directory last path.endsInSlash)

/-- The location and the entry that a path leads to. -/
def resolve (tree : FileTree) (path : Path) : Except FileFault (Location × Entry) :=
  match tree.locate path with
  | .error fault => .error fault
  | .ok (.here directory) => .ok (directory, .directory)
  | .ok (.name directory name slash) =>
    match tree.child? directory name with
    | .error fault => .error fault
    | .ok none => .error .notFound
    | .ok (some .directory) => .ok (directory ++ [name], .directory)
    | .ok (some (.file number)) =>
      if slash then .error .notADirectory else .ok (directory ++ [name], .file number)

def pathExists (tree : FileTree) (path : Path) : Bool :=
  match tree.resolve path with
  | .ok _ => true
  | .error _ => false

def isDirectory (tree : FileTree) (path : Path) : Bool :=
  match tree.resolve path with
  | .ok (_, .directory) => true
  | _ => false

def content (tree : FileTree) (number : Nat) : Bytes :=
  tree.contents.getD number []

def setContent (tree : FileTree) (number : Nat) (data : Bytes) : FileTree :=
  { tree with contents := tree.contents.set number data }

/-- The tree with a new empty file, and the number of that file. -/
def addFile (tree : FileTree) (location : Location) : FileTree × Nat :=
  ({ entries := tree.entries.insert location (.file tree.contents.length)
     contents := tree.contents ++ [[]] }, tree.contents.length)

/-- The bytes of the file that a path leads to. -/
def readFile (tree : FileTree) (path : Path) : Except FileFault Bytes :=
  match tree.resolve path with
  | .error fault => .error fault
  | .ok (_, .directory) => .error .isADirectory
  | .ok (_, .file number) => .ok (tree.content number)

/-- The text of the file that a path leads to. -/
def readText (tree : FileTree) (path : Path) : Except FileFault String :=
  match tree.readFile path with
  | .error fault => .error fault
  | .ok data =>
    match Bytes.toString? data with
    | some text => .ok text
    | none => .error .invalidText

/-- The text of a location; a directory has a slash behind it. -/
def entryText (location : Location) : Entry → String
  | .directory => String.intercalate "/" location ++ "/"
  | .file _ => String.intercalate "/" location

/-- The texts of all locations, in the order of their characters. -/
def list (tree : FileTree) : List String :=
  (tree.entries.pairs.map fun pair => entryText pair.1 pair.2).mergeSort fun a b => decide (a ≤ b)

end FileTree

end ResourceHandles
