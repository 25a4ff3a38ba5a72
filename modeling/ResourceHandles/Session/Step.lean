import ResourceHandles.Session.Findings
import ResourceHandles.Session.Exchange

/-!
# Steps of a session

A session is a sequence of steps on a number of runtimes.  A runtime is a handle
space with its configuration; when it is reset a new space takes its place, and
the old one is dropped as soon as no task runs on it.

A step waits until what it does has ended.  A step that is spawned does not: it
goes on beside the later steps under a name, until it is joined.
-/

namespace ResourceHandles

/-- What is done in one step. -/
inductive Step where
  | call (runtime : Nat) (call : Call)
  | lend (runtime : Nat) (handle : Handle)
  | drain (runtime : Nat) (handle : Handle)
  | gather (runtime : Nat) (handle : Handle) (wanted : Nat)
  | roundTrip (runtime : Nat) (path : Path) (data : Bytes)
  | request (runtime : Nat) (address : String) (body : Bytes)
  | serve (runtime : Nat) (address : String) (deadline : Nat) (bodies : List Bytes)
  | tryResources (runtime : Nat) (path : Path) (flags : Option (List OpenFlag)) (address : String)
    (size : Nat) (data : Bytes)
  | classify (runtime : Nat) (handle : Handle)
  | configuration (runtime : Nat)
  | reset (runtime : Nat)
  | load (path : Path)
  | save (path : Path) (configuration : Configuration)
  | seed (path : Path) (data : Bytes)
  | makeDirectories (path : Path)
  | content (path : Path)
  | text (path : Path)
  | list
  | spawn (name : String) (step : Step)
  | join (name : String)
  | hasEnded (name : String)
  deriving Repr, DecidableEq

namespace Session

def ofConfigurations (network : Network) (configurations : List Configuration) : Session :=
  { machine :=
      { network := network
        spaces := configurations.map fun configuration => { configuration := configuration } }
    current := List.range configurations.length }

def spaceOf (session : Session) (runtime : Nat) : Nat :=
  session.current.getD runtime 0

def space (session : Session) (runtime : Nat) : HandleSpace :=
  session.machine.space (session.spaceOf runtime)

def openHandles (session : Session) : List Nat :=
  session.current.map fun space => (session.machine.space space).table.size

/-- The runtime and the script of a step that is one. -/
def script? (session : Session) : Step → Option (Nat × Script)
  | .call runtime call => some (runtime, .once call)
  | .lend runtime handle => some (runtime, .lend handle)
  | .drain runtime handle => some (runtime, .drain handle [])
  | .gather runtime handle wanted =>
    some (runtime,
      .gather handle wanted (session.space runtime).configuration.bufferSize 0 [])
  | .roundTrip runtime path data => some (runtime, .roundTrip path (.create data))
  | .request runtime address body => some (runtime, .request address (.connect body))
  | _ => none

/-! ## Runtimes -/

/-- Puts a new handle space in the place of a runtime's. -/
def reset (session : Session) (runtime : Nat) : Session :=
  let old := session.spaceOf runtime
  let (machine, fresh) := session.machine.addSpace (session.space runtime).configuration
  let renewed : Session :=
    { session with
      machine := machine
      current := session.current.set runtime fresh
      retired := session.retired ++ [old] }
  renewed.settle

/-! ## Tasks by name -/

def nameJob (session : Session) (name : String) (job : Job) : Session :=
  { session with names := session.names.insert name job }

def launchNamed (session : Session) (name : String) (space : Nat) (script : Script) : Session :=
  (session.launch space script).nameJob name (.task session.tasks.length)

/-- Whether a named job has ended, if there is one. -/
def ended? (session : Session) (name : String) : Option Bool :=
  (session.names.find? name).map fun job => (session.jobOutcome? job).isSome

def join (session : Session) (name : String) : Session × Outcome :=
  match session.names.find? name with
  | none => (session, .noTask)
  | some job => { session with names := session.names.erase name }.await job

/-! ## Files -/

def setTree (session : Session) (tree : FileTree) : Session :=
  { session with machine := { session.machine with tree := tree } }

def changed (session : Session) : Except FileFault FileTree → Session × Outcome
  | .error fault => (session, .failed (.file fault))
  | .ok tree => (session.setTree tree, .done)

/-- A session with a file tree that was changed as far as a fault allowed. -/
def changedUntil (session : Session) (tree : FileTree) (fault : Option Fault) : Session × Outcome :=
  (session.setTree tree,
    match fault with
    | some fault => .failed fault
    | none => .done)

def looked {α : Type} (view : α → Outcome) : Except FileFault α → Outcome
  | .error fault => .failed (.file fault)
  | .ok value => view value

/-! ## Steps -/

/-- Does a step and waits for its end. -/
def step (session : Session) : Step → Session × Outcome
  | .serve runtime address deadline bodies =>
    session.serve (session.spaceOf runtime) address deadline bodies
  | .tryResources runtime path flags address size data =>
    session.tryResources (session.space runtime).configuration path flags address size data
  | .classify runtime handle => (session, .kind ((session.space runtime).table.classify handle))
  | .configuration runtime =>
    let configuration := (session.space runtime).configuration
    (session, .settings configuration configuration.fault?)
  | .reset runtime => (session.reset runtime, .reset)
  | .load path =>
    (session,
      match Configuration.load session.machine.tree path with
      | .ok configuration => .loaded configuration
      | .error fault => .failed (.configuration fault))
  | .save path configuration =>
    let (tree, fault) := Configuration.save session.machine.tree path configuration
    session.changedUntil tree (fault.map .configuration)
  | .seed path data => session.changed (session.machine.tree.writeFile path data)
  | .makeDirectories path =>
    let (tree, fault) := session.machine.tree.makeDirectories path
    session.changedUntil tree (fault.map .file)
  | .content path => (session, looked .bytes (session.machine.tree.readFile path))
  | .text path => (session, looked .text (session.machine.tree.readText path))
  | .list => (session, .listing session.machine.tree.list)
  | .join name => session.join name
  | .hasEnded name => (session, .ended (session.ended? name))
  | .spawn name (.serve runtime address deadline bodies) =>
    match session.beginExchange (session.spaceOf runtime) address deadline bodies with
    | (begun, .ok job) => (begun.nameJob name job, .started)
    | (failed, .error fault) =>
      (failed.launchNamed name (session.spaceOf runtime) (.ended (.failed fault)), .started)
  | .spawn name inner =>
    match session.script? inner with
    | some (runtime, script) =>
      (session.launchNamed name (session.spaceOf runtime) script, .started)
    | none =>
      let (stepped, outcome) := session.step inner
      (stepped.launchNamed name (stepped.spaceOf 0) (.ended outcome), .started)
  | other =>
    match session.script? other with
    | some (runtime, script) => session.run (session.spaceOf runtime) script
    | none => (session, .done)

/-- Does steps one after the other; each outcome comes with the number of open
handles of every runtime. -/
def runAll (session : Session) : List Step → List (Outcome × List Nat)
  | [] => []
  | next :: rest =>
    let (stepped, outcome) := session.step next
    (outcome, stepped.openHandles) :: stepped.runAll rest

end Session

end ResourceHandles
