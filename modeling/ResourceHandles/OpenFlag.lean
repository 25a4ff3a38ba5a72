/-!
# Open flags

A file is opened with a set of flags, each of which has a number of its own.
Without a set the file is opened for reading.
-/

namespace ResourceHandles

/-- One option for opening a file. -/
inductive OpenFlag where
  | read
  | write
  | append
  | truncate
  | create
  | createNew
  deriving Repr, DecidableEq

namespace OpenFlag

def all : List OpenFlag :=
  [.read, .write, .append, .truncate, .create, .createNew]

def tag : OpenFlag → Nat
  | .read => 0
  | .write => 1
  | .append => 2
  | .truncate => 3
  | .create => 4
  | .createNew => 5

def ofTag? (number : Nat) : Option OpenFlag :=
  all.find? fun flag => flag.tag == number

def text : OpenFlag → String
  | .read => "read"
  | .write => "write"
  | .append => "append"
  | .truncate => "truncate"
  | .create => "create"
  | .createNew => "create-new"

def ofWord? (word : String) : Option OpenFlag :=
  all.find? fun flag => flag.text == word

end OpenFlag

/-- What a file is opened for. -/
structure Access where
  read : Bool := false
  write : Bool := false
  append : Bool := false
  truncate : Bool := false
  create : Bool := false
  createNew : Bool := false
  deriving Repr, DecidableEq

namespace Access

/-- The access that a set of flags asks for; a flag that is not in the set is
not implied by the others. -/
def ofFlags : Option (List OpenFlag) → Access
  | none => { read := true }
  | some flags =>
    { read := flags.contains .read
      write := flags.contains .write
      append := flags.contains .append
      truncate := flags.contains .truncate
      create := flags.contains .create
      createNew := flags.contains .createNew }

end Access

end ResourceHandles
