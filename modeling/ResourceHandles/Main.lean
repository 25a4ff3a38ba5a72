import ResourceHandles.CommandLine.Walkthrough

/-!
# The program

The first argument names the command.  The files that a command asks for are
read from the disk beforehand; a walkthrough then runs on a file tree and a
network in memory.
-/

namespace ResourceHandles

/-- The fault that stands for an error of the system. -/
def faultOfError : IO.Error → FileFault
  | .noFileOrDirectory .. => .notFound
  | .inappropriateType .. => .isADirectory
  | .alreadyExists .. => .alreadyExists
  | .resourceBusy .. => .busy
  | _ => .badDescriptor

def readFromDisk (path : Path) : IO (Except FileFault Bytes) := do
  try
    let data ← IO.FS.readBinFile path.text
    return .ok data.toList
  catch error => return .error (faultOfError error)

def textOf (data : Except FileFault Bytes) : Except FileFault String :=
  match data with
  | .error fault => .error fault
  | .ok bytes =>
    match bytes.toString? with
    | some text => .ok text
    | none => .error .invalidText

/-- Reads the operands of a scan from the disk, and runs it. -/
def scanDisk (arguments : List String) : IO Exit := do
  match ScanOptions.grammar.read {} arguments with
  | .run options =>
    let found ← options.paths.mapM fun path => do return (path, textOf (← readFromDisk path))
    let readText := fun path => (Store.lookup path found).getD (.error .notFound)
    return scanCommand readText arguments
  | _ => return scanCommand (fun _ => .error .notFound) arguments

/-- A file tree with the working directory of a walkthrough, and its
configuration if there is one. -/
def treeFromDisk (options : WalkthroughOptions) : IO FileTree := do
  let tree := (({} : FileTree).makeDirectories (options.directory.getD ⟨"."⟩)).1
  match ← readFromDisk options.configurationPath with
  | .error _ => return tree
  | .ok data =>
    let parent := (options.configurationPath.parent?).getD ⟨""⟩
    let grown := (tree.makeDirectories parent).1
    match grown.writeFile options.configurationPath data with
    | .ok written => return written
    | .error _ => return grown

def walkthroughDisk (arguments : List String) : IO Exit := do
  match WalkthroughOptions.grammar.read {} arguments with
  | .run options => return walkthroughCommand (← treeFromDisk options) {} arguments
  | _ => return walkthroughCommand {} {} arguments

/-- Prints what a command wrote, and returns its exit code. -/
def report (exit : Exit) : IO UInt32 := do
  (← IO.getStdout).putStr exit.output
  (← IO.getStderr).putStr exit.diagnostics
  return exit.code.toUInt32

def runProgram (arguments : List String) : IO UInt32 := do
  match arguments with
  | "unio-manifest" :: rest => report (← scanDisk rest)
  | "unio-demo" :: rest => report (← walkthroughDisk rest)
  | _ => report { code := refusalCode, diagnostics := "Usage: unio-manifest | unio-demo\n" }

end ResourceHandles

def main (arguments : List String) : IO UInt32 :=
  ResourceHandles.runProgram arguments
