import ResourceHandles.Files.Changes

/-!
# Open files

An open file is a file or a directory with a cursor.  A read starts at the
cursor and moves it past what was read; it returns no more than the buffer of
the file holds, and no more than fits in one transfer.  A write puts its bytes
at the cursor, or at the end if the file was opened for appending, and leaves
the cursor behind them.  Bytes that a write passes over are zero.

The data of a write are handed over in transfers, and the failure of a transfer
is noticed by what comes after it: the next transfer, or the final flush.
-/

namespace ResourceHandles

def transferLimit : Nat := 2097152

/-- A file or directory that was opened. -/
structure OpenFile where
  entry : Entry
  access : Access
  bufferSize : Nat
  cursor : Nat := 0
  deriving Repr, DecidableEq

/-- What notices that a write failed. -/
inductive WriteStage where
  | write
  | flush
  deriving Repr, DecidableEq

/-- `content` with `data` from a position on. -/
def Bytes.overwrite (content : Bytes) (position : Nat) (data : Bytes) : Bytes :=
  content.take position ++ List.replicate (position - content.length) 0 ++ data ++
    content.drop (position + data.length)

namespace OpenFile

def read (file : OpenFile) (tree : FileTree) : Except FileFault (OpenFile × Bytes) :=
  if file.bufferSize = 0 then .ok (file, [])
  else if !file.access.read then .error .badDescriptor
  else
    match file.entry with
    | .directory => .error .isADirectory
    | .file number =>
      let data := ((tree.content number).drop file.cursor).take (min file.bufferSize transferLimit)
      .ok ({ file with cursor := file.cursor + data.length }, data)

def writePosition (file : OpenFile) (content : Bytes) : Nat :=
  if file.access.append then content.length else file.cursor

/-- Puts bytes into the file, as one transfer does. -/
def put (file : OpenFile) (tree : FileTree) (data : Bytes) :
    Except FileFault (OpenFile × FileTree) :=
  if !file.access.canWrite then .error .badDescriptor
  else
    match file.entry with
    | .directory => .error .badDescriptor
    | .file number =>
      let content := tree.content number
      let position := file.writePosition content
      .ok ({ file with cursor := position + data.length },
        tree.setContent number (content.overwrite position data))

/-- Writes bytes; writing none succeeds always. -/
def write (file : OpenFile) (tree : FileTree) (data : Bytes) :
    Except (WriteStage × FileFault) (OpenFile × FileTree) :=
  if data.isEmpty then .ok (file, tree)
  else
    match file.put tree data with
    | .error fault => .error (if data.length ≤ transferLimit then .flush else .write, fault)
    | .ok written => .ok written

end OpenFile

end ResourceHandles
