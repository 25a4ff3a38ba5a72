import ResourceHandles.Session.Task

/-!
# Resources after their close

A file, a listener and a connection are tried out before and after they are
closed: a closed connection takes every write and has nothing to read, a closed
listener has nothing to accept, and a closed file can still be written by those
who have it.
-/

namespace ResourceHandles

/-- The resources that are tried out, with the handles they were opened under. -/
structure Trial where
  space : Nat
  file : Handle
  listener : Handle
  caller : Handle
  answerer : Handle
  deriving Repr, DecidableEq

namespace Machine

def resource? (machine : Machine) (space : Nat) (handle : Handle) : Option Resource :=
  (machine.space space).table.get? handle

def socketOf? (machine : Machine) : Option Resource → Option ListeningSocket
  | some (.listener number) =>
    (machine.listeners[number]?).bind fun listener => machine.network.sockets[listener.socket]?
  | _ => none

end Machine

namespace Session

def runCall (session : Session) (space : Nat) (call : Call) : Session × Outcome :=
  session.run space (.once call)

def openLink (session : Session) (space : Nat) (file listener : Handle) (address : String) :
    Session × Except Fault Trial :=
  match session.runCall space (.connect address) with
  | (connected, .handle caller) =>
    match connected.runCall space (.accept listener) with
    | (accepted, .handle answerer) => (accepted, .ok ⟨space, file, listener, caller, answerer⟩)
    | (accepted, _) => (accepted, .error .timedOut)
  | (connected, _) => (connected, .error .timedOut)

/-- Listens at an endpoint and calls it; the first thing that fails ends it. -/
def openSockets (session : Session) (space : Nat) (file : Handle) (address : String)
    (endpoint : Endpoint) : Session × Except Fault Trial :=
  match session.machine.bindAt (session.machine.space space).configuration.mode endpoint with
  | .error fault => (session, .error (.notBound endpoint fault))
  | .ok _ =>
    match session.runCall space (.listen address) with
    | (listening, .handle listener) =>
      match listening.machine.reach endpoint with
      | .error fault => (listening, .error (.notReached endpoint fault))
      | .ok _ => listening.openLink space file listener address
    | (listening, _) => (listening, .error .timedOut)

/-- Opens what is tried out; the first thing that fails ends it. -/
def openTrial (session : Session) (space : Nat) (path : Path) (flags : Option (List OpenFlag))
    (address : String) : Session × Except Fault Trial :=
  match session.runCall space (.open path flags) with
  | (opened, .handle file) =>
    match Endpoint.parse? address (opened.machine.space space).configuration.wildcardHost with
    | some endpoint => opened.openSockets space file address endpoint
    | none => (opened, .error (.notListening address))
  | (opened, .failed fault) => (opened, .error fault)
  | (opened, _) => (opened, .error .timedOut)

/-- Writes data to a file twice; being closed in between makes no difference to
those who have the file. -/
def writeTwice (session : Session) (resource : Option Resource) (data : Bytes) :
    Session × Option Fault :=
  match resource with
  | some (.file number) =>
    match session.machine.writeFile .invalid number data with
    | (written, .failed (.fileNotWritten _ stage fault)) =>
      ({ session with machine := written }, some (.notWritten stage fault))
    | (written, _) =>
      ({ session with machine := (written.writeFile .invalid number data).1 }, none)
  | _ => (session, none)

end Session

namespace Machine

/-- Whether a listener is bound to the very address under which it is reached. -/
def hasOwnAddress (machine : Machine) (listener : Option Resource) : Bool :=
  match machine.socketOf? listener with
  | some socket => socket.host != .unspecified
  | none => false

def takesWrite (machine : Machine) (connection : Option Resource) (data : Bytes) : Bool :=
  match connection with
  | some (.connection number) =>
    (machine.send .invalid number data 0).2 == .finished .done
  | _ => false

/-- How much there is to read on a closed connection. -/
def readable (machine : Machine) (connection : Option Resource) : Nat :=
  match connection with
  | some (.connection number) =>
    match (machine.receive .invalid number 0).2 with
    | .finished (.bytes data) => data.length
    | _ => 0
  | _ => 0

def acceptsNothing (machine : Machine) (space : Nat) (listener : Option Resource) : Bool :=
  match listener with
  | some (.listener number) =>
    (machine.accept space number).2 == .finished (.handle .invalid)
  | _ => false

end Machine

namespace Session

def closeTrial (session : Session) (trial : Trial) (size : Nat) (data : Bytes) :
    Session × Outcome :=
  let space := trial.space
  let file := session.machine.resource? space trial.file
  let listener := session.machine.resource? space trial.listener
  let connection := session.machine.resource? space trial.caller
  let sent := (session.runCall space (.write trial.caller data)).1
  let (received, chunk) := sent.runCall space (.read trial.answerer)
  let closed := (received.runCall space (.close trial.caller)).1
  let silent := (closed.runCall space (.close trial.listener)).1
  let findings : Findings :=
    { fileBuffer := size
      listenerBuffer := size
      received := match chunk with
        | .bytes first => first
        | _ => []
      peerIsListener := session.machine.hasOwnAddress listener
      writesAfterClose := silent.machine.takesWrite connection data
      readsAfterClose := silent.machine.readable connection
      acceptsNothing := silent.machine.acceptsNothing space listener }
  match silent.writeTwice file data with
  | (written, some fault) => (written, .failed fault)
  | (written, none) => (written, .found findings)

/-- Tries out a file, a listener and a connection in a handle space of their
own, which is given up afterwards.  Their buffers have a size of their own, too. -/
def tryResources (session : Session) (configuration : Configuration) (path : Path)
    (flags : Option (List OpenFlag)) (address : String) (size : Nat) (data : Bytes) :
    Session × Outcome :=
  let (machine, space) := session.machine.addSpace { configuration with bufferSize := size }
  let prepared : Session := { session with machine := machine }
  let (tried, outcome) : Session × Outcome :=
    match prepared.openTrial space path flags address with
    | (opened, .error fault) => (opened, .failed fault)
    | (opened, .ok trial) => opened.closeTrial trial size data
  let left : Session := { tried with retired := tried.retired ++ [space] }
  (left.settle, outcome)

end Session

end ResourceHandles
