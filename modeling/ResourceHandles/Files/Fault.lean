/-!
# Faults of the file system

The reasons for which an operation on files fails, with the wording of each.
-/

namespace ResourceHandles

/-- Why an operation on files fails. -/
inductive FileFault where
  | notFound
  | alreadyExists
  | notADirectory
  | isADirectory
  | nameTooLong
  | busy
  | badDescriptor
  | nullInPath
  | noAccess
  | noWriteAccess
  | invalidText
  deriving Repr, DecidableEq

def FileFault.message : FileFault → String
  | .notFound => "No such file or directory (os error 2)"
  | .alreadyExists => "File exists (os error 17)"
  | .notADirectory => "Not a directory (os error 20)"
  | .isADirectory => "Is a directory (os error 21)"
  | .nameTooLong => "File name too long (os error 36)"
  | .busy => "Device or resource busy (os error 16)"
  | .badDescriptor => "Bad file descriptor (os error 9)"
  | .nullInPath => "file name contained an unexpected NUL byte"
  | .noAccess => "must specify at least one of read, write, or append access"
  | .noWriteAccess => "creating or truncating a file requires write or append access"
  | .invalidText => "stream did not contain valid UTF-8"

end ResourceHandles
