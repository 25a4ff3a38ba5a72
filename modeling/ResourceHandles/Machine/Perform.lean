import ResourceHandles.Machine.Basic

/-!
# Carrying out actions

An action either ends with a reply, or goes on with less to do, or has to wait
for another party.  Only accepting, receiving and sending ever wait.  They look
at the close signal of their resource first, so a call on a closed resource ends
at once, whatever has arrived in the meantime.
-/

namespace ResourceHandles

/-- What came of carrying out an action. -/
inductive Progress where
  | finished (reply : Reply)
  | continues (rest : Action)
  | blocked
  deriving Repr, DecidableEq

namespace Machine

def openFile (machine : Machine) (space : Nat) (path : Path) (access : Access) :
    Machine × Reply :=
  match machine.tree.openPath path access with
  | .error fault => (machine, .failed (.notOpened path fault))
  | .ok (tree, entry) =>
    let size := (machine.space space).configuration.bufferSize
    let (opened, handle) := { machine with tree := tree }.addFile space ⟨entry, access, size, 0⟩
    (opened, .handle handle)

def readFile (machine : Machine) (handle : Handle) (number : Nat) : Machine × Reply :=
  match machine.files[number]? with
  | none => (machine, .bytes [])
  | some file =>
    match file.read machine.tree with
    | .error fault => (machine, .failed (.fileNotRead handle fault))
    | .ok (moved, data) => ({ machine with files := machine.files.set number moved }, .bytes data)

def writeFile (machine : Machine) (handle : Handle) (number : Nat) (data : Bytes) :
    Machine × Reply :=
  match machine.files[number]? with
  | none => (machine, .done)
  | some file =>
    match file.write machine.tree data with
    | .error (stage, fault) => (machine, .failed (.fileNotWritten handle stage fault))
    | .ok (moved, tree) =>
      ({ machine with files := machine.files.set number moved, tree := tree }, .done)

def unlink (machine : Machine) (path : Path) : Machine × Reply :=
  match machine.tree.unlink path with
  | .error fault => (machine, .failed (.notUnlinked path fault))
  | .ok tree => ({ machine with tree := tree }, .done)

/-- The network with a socket that listens at an endpoint, and its number. -/
def bindAt (machine : Machine) (mode : CallMode) (endpoint : Endpoint) :
    Except SocketFault (Network × Nat) :=
  match IpAddress.ofHost? endpoint.host with
  | none => .error .unknownHost
  | some host => machine.network.bind mode host endpoint.port

/-- The network with a link to an endpoint, and the end that called. -/
def reach (machine : Machine) (endpoint : Endpoint) : Except SocketFault (Network × EndId) :=
  match IpAddress.ofHost? endpoint.host with
  | none => .error .unknownHost
  | some host => machine.network.connect host endpoint.port

/-- Listens at an endpoint.  The modes bind in different ways, and the pre-resolved one
has more exits, but whatever fails, the socket is gone and the reply is the same. -/
def listen (machine : Machine) (space : Nat) (endpoint : Endpoint) : Machine × Reply :=
  match machine.bindAt (machine.space space).configuration.mode endpoint with
  | .error _ => (machine, .handle .invalid)
  | .ok (network, socket) =>
    let (listening, handle) := { machine with network := network }.addListener space socket
    (listening, .handle handle)

def connect (machine : Machine) (space : Nat) (endpoint : Endpoint) : Machine × Reply :=
  match machine.reach endpoint with
  | .error _ => (machine, .handle .invalid)
  | .ok (network, endId) =>
    let (connected, handle) := { machine with network := network }.addConnection space endId
    (connected, .handle handle)

def accept (machine : Machine) (space number : Nat) : Machine × Progress :=
  match machine.listeners[number]? with
  | none => (machine, .finished (.handle .invalid))
  | some listener =>
    if listener.signal.raised then (machine, .finished (.handle .invalid))
    else
      match machine.network.accept listener.socket with
      | (_, .blocked) => (machine, .blocked)
      | (_, .failed _) => (machine, .finished (.handle .invalid))
      | (network, .moved endId) =>
        let (accepted, handle) := { machine with network := network }.addConnection space endId
        (accepted, .finished (.handle handle))

/-- Receives bytes of a connection, at most `amount` of them. -/
def receive (machine : Machine) (handle : Handle) (number amount : Nat) : Machine × Progress :=
  match machine.connections[number]? with
  | none => (machine, .finished (.bytes []))
  | some connection =>
    if connection.signal.raised then (machine, .finished (.bytes []))
    else
      match machine.network.receive connection.endId connection.bufferSize amount with
      | (network, .moved data) => ({ machine with network := network }, .finished (.bytes data))
      | (network, .failed fault) =>
        ({ machine with network := network },
          .finished (.failed (.connectionNotRead handle fault)))
      | (_, .blocked) => (machine, .blocked)

/-- Sends bytes on a connection, at most `amount` of them. -/
def send (machine : Machine) (handle : Handle) (number : Nat) (data : Bytes) (amount : Nat) :
    Machine × Progress :=
  match machine.connections[number]? with
  | none => (machine, .finished .done)
  | some connection =>
    if connection.signal.raised then (machine, .finished .done)
    else if data.isEmpty then (machine, .finished .done)
    else
      match machine.network.send connection.endId data amount with
      | (network, .moved count) =>
        ({ machine with network := network },
          if (data.drop count).isEmpty then .finished .done
          else .continues (.send handle number (data.drop count)))
      | (network, .failed fault) =>
        ({ machine with network := network },
          .finished (.failed (.connectionNotWritten handle fault)))
      | (_, .blocked) => (machine, .blocked)

def endSending (machine : Machine) (number : Nat) : Machine :=
  match machine.connections[number]? with
  | none => machine
  | some connection =>
    { machine with network := machine.network.endSending connection.endId }

def finish (result : Machine × Reply) : Machine × Progress :=
  (result.1, .finished result.2)

/-- Carries out an action, or the next part of it; `amount` bounds the bytes
that the network moves. -/
def perform (machine : Machine) (space amount : Nat) : Action → Machine × Progress
  | .openFile path access => finish (machine.openFile space path access)
  | .closeFile _ => (machine, .finished .done)
  | .readFile handle file => finish (machine.readFile handle file)
  | .writeFile handle file data => finish (machine.writeFile handle file data)
  | .unlink path => finish (machine.unlink path)
  | .listen endpoint => finish (machine.listen space endpoint)
  | .connect endpoint => finish (machine.connect space endpoint)
  | .accept listener => machine.accept space listener
  | .receive handle connection => machine.receive handle connection amount
  | .send handle connection data => machine.send handle connection data amount
  | .endSending connection => (machine.endSending connection, .finished .done)

end Machine

end ResourceHandles
