import ResourceHandles.Address
import ResourceHandles.CloseSignal
import ResourceHandles.Configuration
import ResourceHandles.HandleTable
import ResourceHandles.Machine.Call
import ResourceHandles.Network.Operations

/-!
# The machine

A machine holds a file tree, a network, the resources that were opened, and
handle spaces.  Every handle space has a table of its own, which binds handles
to the numbers of resources.

A call that cannot be answered at once leaves an action, which waits under a
ticket.  The waiting actions are kept in the order in which they came.  Those
that use the same half of a connection are carried out in that order, one after
the other: only the first of them is in turn.

A resource lives as long as a handle is bound to it or an action uses it.  When
the last of these is gone, its socket is closed.
-/

namespace ResourceHandles

/-- A listener: the number of its socket, its close signal, and whether a handle
is bound to it. -/
structure Listener where
  socket : Nat
  signal : CloseSignal := {}
  held : Bool := true
  deriving Repr, DecidableEq

/-- A connection: its end of the link, the size of its buffer, its close signal,
and whether a handle is bound to it. -/
structure Connection where
  endId : EndId
  bufferSize : Nat
  signal : CloseSignal := {}
  held : Bool := true
  deriving Repr, DecidableEq

/-- The number of a resource among those of its kind. -/
abbrev Resource := Slot Nat Nat Nat

/-- Handles with the configuration for the calls on them. -/
structure HandleSpace where
  configuration : Configuration := {}
  table : HandleTable Nat Nat Nat := {}
  deriving Repr, DecidableEq

/-- What is left to do for a call. -/
inductive Action where
  | openFile (path : Path) (access : Access)
  | closeFile (file : Nat)
  | readFile (handle : Handle) (file : Nat)
  | writeFile (handle : Handle) (file : Nat) (data : Bytes)
  | unlink (path : Path)
  | listen (endpoint : Endpoint)
  | accept (listener : Nat)
  | connect (endpoint : Endpoint)
  | receive (handle : Handle) (connection : Nat)
  | send (handle : Handle) (connection : Nat) (data : Bytes)
  | endSending (connection : Nat)
  deriving Repr, DecidableEq

def Action.resource? : Action → Option Resource
  | .closeFile file => some (.file file)
  | .readFile _ file => some (.file file)
  | .writeFile _ file _ => some (.file file)
  | .accept listener => some (.listener listener)
  | .receive _ connection => some (.connection connection)
  | .send _ connection _ => some (.connection connection)
  | .endSending connection => some (.connection connection)
  | .openFile _ _ => none
  | .unlink _ => none
  | .listen _ => none
  | .connect _ => none

/-- A half of a connection. -/
inductive Lane where
  | receiving (connection : Nat)
  | sending (connection : Nat)
  deriving Repr, DecidableEq

/-- The half of a connection that an action needs for itself. -/
def Action.lane? : Action → Option Lane
  | .receive _ connection => some (.receiving connection)
  | .send _ connection _ => some (.sending connection)
  | .endSending connection => some (.sending connection)
  | _ => none

/-- An action that waits, its ticket, and the handle space it belongs to. -/
structure Pending where
  ticket : Nat
  space : Nat
  action : Action
  deriving Repr, DecidableEq

/-- Files, sockets, handle spaces and waiting actions. -/
structure Machine where
  tree : FileTree := {}
  network : Network := {}
  files : List OpenFile := []
  listeners : List Listener := []
  connections : List Connection := []
  spaces : List HandleSpace := []
  pending : List Pending := []
  nextTicket : Nat := 0
  deriving Repr, DecidableEq

namespace Machine

/-! ## Handle spaces -/

def space (machine : Machine) (number : Nat) : HandleSpace :=
  machine.spaces.getD number {}

def setTable (machine : Machine) (space : Nat) (table : HandleTable Nat Nat Nat) : Machine :=
  { machine with
    spaces := machine.spaces.modify space fun owner => { owner with table := table } }

/-- The machine with a new handle space, and its number. -/
def addSpace (machine : Machine) (configuration : Configuration) : Machine × Nat :=
  ({ machine with spaces := machine.spaces ++ [{ configuration := configuration }] },
    machine.spaces.length)

/-- Binds a resource to the next handle of a space. -/
def bindHandle (machine : Machine) (space : Nat) (resource : Resource) : Machine × Handle :=
  let (table, handle) := (machine.space space).table.insert resource
  (machine.setTable space table, handle)

/-! ## Resources -/

def addFile (machine : Machine) (space : Nat) (file : OpenFile) : Machine × Handle :=
  let grown : Machine := { machine with files := machine.files ++ [file] }
  grown.bindHandle space (.file machine.files.length)

def addListener (machine : Machine) (space : Nat) (socket : Nat) : Machine × Handle :=
  let grown : Machine :=
    { machine with listeners := machine.listeners ++ [{ socket := socket }] }
  grown.bindHandle space (.listener machine.listeners.length)

def addConnection (machine : Machine) (space : Nat) (endId : EndId) : Machine × Handle :=
  let connection : Connection :=
    { endId := endId, bufferSize := (machine.space space).configuration.bufferSize }
  let grown : Machine := { machine with connections := machine.connections ++ [connection] }
  grown.bindHandle space (.connection machine.connections.length)

def raiseSignal (machine : Machine) : Resource → Machine
  | .file _ => machine
  | .listener number =>
    { machine with
      listeners := machine.listeners.modify number fun listener =>
        { listener with signal := listener.signal.raise } }
  | .connection number =>
    { machine with
      connections := machine.connections.modify number fun connection =>
        { connection with signal := connection.signal.raise } }

/-- Notes that no handle is bound to a resource any more. -/
def unhold (machine : Machine) : Resource → Machine
  | .file _ => machine
  | .listener number =>
    { machine with
      listeners := machine.listeners.modify number fun listener => { listener with held := false } }
  | .connection number =>
    { machine with
      connections := machine.connections.modify number fun connection =>
        { connection with held := false } }

def isUsed (machine : Machine) (resource : Resource) : Bool :=
  machine.pending.any fun pending => pending.action.resource? == some resource

/-- Closes the socket of a resource that neither a handle nor an action needs. -/
def letGo (machine : Machine) (resource : Resource) : Machine :=
  if machine.isUsed resource then machine
  else
    match resource with
    | .file _ => machine
    | .listener number =>
      match machine.listeners[number]? with
      | none => machine
      | some listener =>
        if listener.held then machine
        else { machine with network := machine.network.closeSocket listener.socket }
    | .connection number =>
      match machine.connections[number]? with
      | none => machine
      | some connection =>
        if connection.held then machine
        else { machine with network := machine.network.closeEnd connection.endId }

/-- Lets go of the resource of an action that is over. -/
def letGoOf (machine : Machine) (action : Action) : Machine :=
  match action.resource? with
  | some resource => machine.letGo resource
  | none => machine

/-! ## Waiting actions -/

def park (machine : Machine) (space : Nat) (action : Action) : Machine × Nat :=
  ({ machine with
      pending := machine.pending ++ [⟨machine.nextTicket, space, action⟩]
      nextTicket := machine.nextTicket + 1 },
    machine.nextTicket)

def pending? (machine : Machine) (ticket : Nat) : Option Pending :=
  machine.pending.find? fun pending => pending.ticket == ticket

def replace (machine : Machine) (ticket : Nat) (action : Action) : Machine :=
  { machine with
    pending := machine.pending.map fun pending =>
      if pending.ticket = ticket then { pending with action := action } else pending }

/-- Removes a waiting action and lets go of its resource. -/
def forget (machine : Machine) (pending : Pending) : Machine :=
  let shorter : Machine :=
    { machine with
      pending := machine.pending.filter fun other => other.ticket != pending.ticket }
  shorter.letGoOf pending.action

/-- Whether no action that came earlier needs the same half of a connection. -/
def inTurn (machine : Machine) (pending : Pending) : Bool :=
  match pending.action.lane? with
  | none => true
  | some lane =>
    match machine.pending.find? fun other => other.action.lane? == some lane with
    | none => true
    | some first => first.ticket == pending.ticket

end Machine

end ResourceHandles
