import ResourceHandles.Files.Tree
import ResourceHandles.OpenFlag

/-!
# Changes of the file tree

Opening may create or empty a file; unlinking, making a directory and renaming
change where locations lead.  Every operation that fails leaves the tree as it
was, except for one that makes several directories: it keeps those it made.
-/

namespace ResourceHandles

namespace Access

def fault? (access : Access) : Option FileFault :=
  let creates := access.truncate || access.create || access.createNew
  if !access.read && !access.write && !access.append then
    some (if creates then .noWriteAccess else .noAccess)
  else if !access.write && !access.append && creates then some .noWriteAccess
  else if access.append && access.truncate && !access.createNew then some .noWriteAccess
  else none

def canWrite (access : Access) : Bool :=
  access.write || access.append

end Access

namespace FileTree

def openExisting (tree : FileTree) (access : Access) : Entry → Except FileFault (FileTree × Entry)
  | .directory => if access.canWrite then .error .isADirectory else .ok (tree, .directory)
  | .file number =>
    if access.truncate then .ok (tree.setContent number [], .file number)
    else .ok (tree, .file number)

/-- Opens the end of a walk, and creates a file there if nothing is found. -/
def openOrCreate (tree : FileTree) (access : Access) : Goal → Except FileFault (FileTree × Entry)
  | .here _ => .error (if access.createNew then .alreadyExists else .isADirectory)
  | .name directory name slash =>
    if slash then .error .isADirectory
    else
      match tree.child? directory name with
      | .error fault => .error fault
      | .ok none =>
        let (grown, number) := tree.addFile (directory ++ [name])
        .ok (grown, .file number)
      | .ok (some entry) =>
        if access.createNew then .error .alreadyExists
        else
          match entry with
          | .directory => .error .isADirectory
          | .file number => tree.openExisting access (.file number)

/-- Opens a path.  A null character in the path is found first, an access that
makes no sense next. -/
def openPath (tree : FileTree) (path : Path) (access : Access) :
    Except FileFault (FileTree × Entry) :=
  if path.hasNull then .error .nullInPath
  else
    match access.fault? with
    | some fault => .error fault
    | none =>
      if access.create || access.createNew then
        match tree.locate path with
        | .error fault => .error fault
        | .ok goal => tree.openOrCreate access goal
      else
        match tree.resolve path with
        | .error fault => .error fault
        | .ok (_, entry) => tree.openExisting access entry

def unlink (tree : FileTree) (path : Path) : Except FileFault FileTree :=
  match tree.locate path with
  | .error fault => .error fault
  | .ok (.here _) => .error .isADirectory
  | .ok (.name directory name slash) =>
    match tree.child? directory name with
    | .error fault => .error fault
    | .ok none => .error .notFound
    | .ok (some .directory) => .error .isADirectory
    | .ok (some (.file _)) =>
      if slash then .error .notADirectory
      else .ok { tree with entries := tree.entries.erase (directory ++ [name]) }

def makeDirectory (tree : FileTree) (path : Path) : Except FileFault FileTree :=
  match tree.locate path with
  | .error fault => .error fault
  | .ok (.here _) => .error .alreadyExists
  | .ok (.name directory name _) =>
    match tree.child? directory name with
    | .error fault => .error fault
    | .ok (some _) => .error .alreadyExists
    | .ok none =>
      .ok { tree with entries := tree.entries.insert (directory ++ [name]) .directory }

/-- Makes the first of some directories, of which each lies in the next one,
and those above it that are missing. -/
def makeNested (tree : FileTree) : List Path → FileTree × Option FileFault
  | [] => (tree, none)
  | path :: above =>
    match tree.makeDirectory path with
    | .ok grown => (grown, none)
    | .error .notFound =>
      match tree.makeNested above with
      | (grown, some fault) => (grown, some fault)
      | (grown, none) =>
        match grown.makeDirectory path with
        | .ok complete => (complete, none)
        | .error fault =>
          if fault = .alreadyExists ∧ grown.isDirectory path = true then (grown, none)
          else (grown, some fault)
    | .error fault =>
      if fault = .alreadyExists ∧ tree.isDirectory path = true then (tree, none)
      else (tree, some fault)

end FileTree

/-- A path and the paths of the directories it lies in, up to one of a single
piece; `steps` bounds their number. -/
def Path.chain (path : Path) : Nat → List Path
  | 0 => []
  | steps + 1 =>
    match path.parent? with
    | none => []
    | some parent => path :: parent.chain steps

namespace FileTree

/-- Makes a directory and those it lies in; an empty path stands for the
directory that is there already. -/
def makeDirectories (tree : FileTree) (path : Path) : FileTree × Option FileFault :=
  if path.text.isEmpty then (tree, none)
  else tree.makeNested ((path.chain path.pieces.length).filter fun path => !path.text.isEmpty)

/-- Moves a file to another path; a file that is there already is replaced.  If that is
the same file, nothing is done. -/
def rename (tree : FileTree) (source target : Path) : Except FileFault FileTree :=
  match tree.locate source with
  | .error fault => .error fault
  | .ok sourceGoal =>
    match tree.locate target with
    | .error fault => .error fault
    | .ok targetGoal =>
      match sourceGoal, targetGoal with
      | .name sourceDirectory sourceName sourceSlash,
        .name targetDirectory targetName targetSlash =>
        match tree.child? sourceDirectory sourceName with
        | .error fault => .error fault
        | .ok none => .error .notFound
        | .ok (some entry) =>
          match tree.child? targetDirectory targetName with
          | .error fault => .error fault
          | .ok found =>
            if sourceSlash || targetSlash then .error .notADirectory
            else if entry = .directory ∨ found = some .directory then .error .isADirectory
            else if found = some entry then .ok tree
            else
              .ok { tree with
                entries := (tree.entries.erase (sourceDirectory ++ [sourceName])).insert
                  (targetDirectory ++ [targetName]) entry }
      | _, _ => .error .busy

def replaceAccess : Access :=
  { write := true, create := true, truncate := true }

/-- Writes a whole file; what it held before is lost. -/
def writeFile (tree : FileTree) (path : Path) (data : Bytes) : Except FileFault FileTree :=
  match tree.openPath path replaceAccess with
  | .error fault => .error fault
  | .ok (_, .directory) => .error .isADirectory
  | .ok (opened, .file number) => .ok (opened.setContent number data)

end FileTree

end ResourceHandles
