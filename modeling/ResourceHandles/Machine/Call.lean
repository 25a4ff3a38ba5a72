import ResourceHandles.CallMode
import ResourceHandles.Files.OpenFile
import ResourceHandles.Handle
import ResourceHandles.Network.Basic

/-!
# Calls

The eight operations with their arguments, and what they are answered with.
Failures of the file system and of established connections are reported with
the operation and the path or handle they belong to; a listen, accept or connect
that comes to nothing is answered with the invalid handle.
-/

namespace ResourceHandles

/-- An operation with its arguments. -/
inductive Call where
  | open (path : Path) (flags : Option (List OpenFlag))
  | close (handle : Handle)
  | read (handle : Handle)
  | write (handle : Handle) (data : Bytes)
  | unlink (path : Path)
  | listen (address : String)
  | accept (handle : Handle)
  | connect (address : String)
  deriving Repr, DecidableEq

def Call.operation : Call → Operation
  | .open _ _ => .open
  | .close _ => .close
  | .read _ => .read
  | .write _ _ => .write
  | .unlink _ => .unlink
  | .listen _ => .listen
  | .accept _ => .accept
  | .connect _ => .connect

/-- Why a call fails. -/
inductive CallFault where
  | notOpened (path : Path) (fault : FileFault)
  | notUnlinked (path : Path) (fault : FileFault)
  | fileNotRead (handle : Handle) (fault : FileFault)
  | fileNotWritten (handle : Handle) (stage : WriteStage) (fault : FileFault)
  | connectionNotRead (handle : Handle) (fault : SocketFault)
  | connectionNotWritten (handle : Handle) (fault : SocketFault)
  deriving Repr, DecidableEq

/-- The wording for the stage at which a write failed. -/
def WriteStage.text : WriteStage → String
  | .write => "write file"
  | .flush => "flush file"

/-- The wording of a fault: what was tried, from the outside to the inside, and
the fault of the system. -/
def CallFault.message : CallFault → String
  | .notOpened path fault => "open " ++ path.text ++ ": " ++ fault.message
  | .notUnlinked path fault => "unlink " ++ path.text ++ ": " ++ fault.message
  | .fileNotRead handle fault => "read handle " ++ handle.text ++ ": read file: " ++ fault.message
  | .fileNotWritten handle stage fault =>
    "write handle " ++ handle.text ++ ": " ++ stage.text ++ ": " ++ fault.message
  | .connectionNotRead handle fault =>
    "read handle " ++ handle.text ++ ": read connection: " ++ fault.message
  | .connectionNotWritten handle fault =>
    "write handle " ++ handle.text ++ ": write connection: " ++ fault.message

/-- What a call is answered with. -/
inductive Reply where
  | handle (handle : Handle)
  | bytes (data : Bytes)
  | done
  | failed (fault : CallFault)
  deriving Repr, DecidableEq

end ResourceHandles
