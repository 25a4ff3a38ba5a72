import ResourceHandles.CallMode
import ResourceHandles.Files.Changes
import ResourceHandles.Text.Blank
import ResourceHandles.Toml.Document

/-!
# Configurations

A configuration says in which mode operations are called, how large the buffers
of files and connections are, and which host stands in for an empty one.  It is
kept in a TOML file under three keys.  A key that is missing has its default,
other keys mean nothing, and a file that is missing holds all defaults.

Saving writes the new text to a temporary file beside the old one and then
renames it, so the file under the path is at no time half written.
-/

namespace ResourceHandles

/-- The configuration of a runtime. -/
structure Configuration where
  mode : CallMode := .preResolved
  bufferSize : Nat := 32768
  wildcardHost : String := "0.0.0.0"
  deriving Repr, DecidableEq

/-- Why a configuration cannot be loaded or saved. -/
inductive ConfigurationFault where
  | zeroBuffer
  | blankHost
  | unreadable (path : Path) (fault : FileFault)
  | malformed (path : Path)
  | noParent (path : Path)
  | noDirectory (directory : Path) (fault : FileFault)
  | noTemporary (temporary : Path) (fault : FileFault)
  | notReplaced (path : Path) (fault : FileFault)
  deriving Repr, DecidableEq

def ConfigurationFault.message : ConfigurationFault → String
  | .zeroBuffer => "buffer_size must be > 0"
  | .blankHost => "wildcard_host must not be empty"
  | .unreadable path fault => "read " ++ path.text ++ ": " ++ fault.message
  | .malformed path => "parse " ++ path.text
  | .noParent path => "config path missing parent " ++ path.text
  | .noDirectory directory fault => "create directory " ++ directory.text ++ ": " ++ fault.message
  | .noTemporary temporary fault =>
    "write temp config " ++ temporary.text ++ ": " ++ fault.message
  | .notReplaced path fault => "replace config " ++ path.text ++ ": " ++ fault.message

namespace Configuration

/-- The least number that is too large for a buffer size. -/
def bufferSizeLimit : Nat := 18446744073709551616

def fault? (configuration : Configuration) : Option ConfigurationFault :=
  if configuration.bufferSize = 0 then some .zeroBuffer
  else if (Text.trim configuration.wildcardHost.toList).isEmpty then some .blankHost
  else none

/-! ## The text of a configuration -/

/-- The mode that a TOML value stands for: its word, or a table that holds an
empty table or an empty array under the word and nothing else. -/
def modeOf? : Toml.Item → Option CallMode
  | .string word => CallMode.ofWord? word
  | .table _ [(word, item)] => if item.isVacant then CallMode.ofWord? word else none
  | _ => none

def bufferSizeOf? : Toml.Item → Option Nat
  | .integer value =>
    if 0 ≤ value ∧ value < (bufferSizeLimit : Int) then some value.toNat else none
  | _ => none

def hostOf? : Toml.Item → Option String
  | .string host => some host
  | _ => none

/-- What a key stands for, or a default if the key is missing. -/
def member? {α : Type} (members : Toml.Members) (key : String) (read : Toml.Item → Option α)
    (missing : α) : Option α :=
  match Toml.Members.find? members key with
  | none => some missing
  | some item => read item

/-- The configuration that the top table of a document holds. -/
def ofMembers? (members : Toml.Members) : Option Configuration := do
  let standard : Configuration := {}
  let mode ← member? members "mode" modeOf? standard.mode
  let bufferSize ← member? members "buffer_size" bufferSizeOf? standard.bufferSize
  let wildcardHost ← member? members "wildcard_host" hostOf? standard.wildcardHost
  return ⟨mode, bufferSize, wildcardHost⟩

def parse? (text : String) : Option Configuration :=
  (Toml.readDocument? text.toList).bind ofMembers?

/-- The text of a configuration; a line without content ends it. -/
def render (configuration : Configuration) : String :=
  "mode = " ++ String.ofList (Toml.writeString configuration.mode.text.toList) ++
    "\nbuffer_size = " ++ toString configuration.bufferSize ++
    "\nwildcard_host = " ++ String.ofList (Toml.writeString configuration.wildcardHost.toList) ++
    "\n\n"

/-! ## The file of a configuration -/

/-- Loads the configuration under a path.  A text that is no configuration is
refused before one that makes no sense. -/
def load (tree : FileTree) (path : Path) : Except ConfigurationFault Configuration :=
  if !tree.pathExists path then .ok {}
  else
    match tree.readText path with
    | .error fault => .error (.unreadable path fault)
    | .ok text =>
      match parse? text with
      | none => .error (.malformed path)
      | some configuration =>
        match configuration.fault? with
        | some fault => .error fault
        | none => .ok configuration

def temporaryPath (path : Path) : Path :=
  path.withExtension "toml.tmp"

/-- Writes the temporary file and puts it in the place of the old one. -/
def replaceFile (tree : FileTree) (path : Path) (data : Bytes) :
    FileTree × Option ConfigurationFault :=
  let temporary := temporaryPath path
  match tree.writeFile temporary data with
  | .error fault => (tree, some (.noTemporary temporary fault))
  | .ok written =>
    match written.rename temporary path with
    | .error fault => (written, some (.notReplaced path fault))
    | .ok replaced => (replaced, none)

/-- Saves a configuration under a path, and makes the directories that the path
goes through. -/
def save (tree : FileTree) (path : Path) (configuration : Configuration) :
    FileTree × Option ConfigurationFault :=
  match configuration.fault? with
  | some fault => (tree, some fault)
  | none =>
    match path.parent? with
    | none => (tree, some (.noParent path))
    | some parent =>
      match tree.makeDirectories parent with
      | (grown, some fault) => (grown, some (.noDirectory parent fault))
      | (grown, none) => replaceFile grown path (Bytes.ofString configuration.render)

end Configuration

end ResourceHandles
