import ResourceHandles.Bytes
import ResourceHandles.CallMode
import ResourceHandles.Network.Host

/-!
# The network

Links join two ends, one that called and one that answered.  What is sent on
one end arrives in the inbox of the other, in order.  A listening socket holds
the links that were made to it and not yet accepted, oldest first.  How many may
wait in it depends on the call mode in which it was made.

The network carries calls to this host only, and only if its loopback route is
up; listening works without the route.  A host that has run out of memory for
sockets refuses to make any more of them.
-/

namespace ResourceHandles

/-- Why an operation on sockets fails. -/
inductive SocketFault where
  | brokenPipe
  | connectionReset
  | addressInUse
  | addressNotAvailable
  | refused
  | unreachable
  | unknownHost
  | timedOut
  | noBuffers
  deriving Repr, DecidableEq

def SocketFault.message : SocketFault → String
  | .brokenPipe => "Broken pipe (os error 32)"
  | .connectionReset => "Connection reset by peer (os error 104)"
  | .addressInUse => "Address already in use (os error 98)"
  | .addressNotAvailable => "Cannot assign requested address (os error 99)"
  | .refused => "Connection refused (os error 111)"
  | .unreachable => "Network is unreachable (os error 101)"
  | .unknownHost => "failed to lookup address information: Name or service not known"
  | .timedOut => "Connection timed out (os error 110)"
  | .noBuffers => "No buffer space available (os error 105)"

/-- One end of a link: the bytes that arrived and were not read, whether the
other end has ended its sending, a fault that the next operation reports,
whether sending has become impossible, and whether the end is open. -/
structure SocketEnd where
  inbox : Bytes := []
  ended : Bool := false
  fault : Option SocketFault := none
  severed : Bool := false
  isOpen : Bool := true
  deriving Repr, DecidableEq

/-- The two sides of a link. -/
inductive Side where
  | caller
  | answerer
  deriving Repr, DecidableEq

def Side.other : Side → Side
  | caller => answerer
  | answerer => caller

/-- An established connection. -/
structure Link where
  caller : SocketEnd := {}
  answerer : SocketEnd := {}
  deriving Repr, DecidableEq

def Link.get (link : Link) : Side → SocketEnd
  | .caller => link.caller
  | .answerer => link.answerer

def Link.set (link : Link) (side : Side) (value : SocketEnd) : Link :=
  match side with
  | .caller => { link with caller := value }
  | .answerer => { link with answerer := value }

/-- The name of an end: the number of its link and its side. -/
structure EndId where
  link : Nat
  side : Side
  deriving Repr, DecidableEq

def EndId.peer (id : EndId) : EndId :=
  ⟨id.link, id.side.other⟩

/-- A socket that listens, with the mode of the call that made it and the numbers
of the links that wait in it. -/
structure ListeningSocket where
  host : IpAddress
  port : Nat
  mode : CallMode
  waiting : List Nat := []
  isOpen : Bool := true
  deriving Repr, DecidableEq

/-- All sockets of this host; `capacity` bounds what is under way to one end, and no
socket is made while the host is `exhausted`. -/
structure Network where
  routed : Bool := true
  capacity : Nat := 4194304
  exhausted : Bool := false
  sockets : List ListeningSocket := []
  links : List Link := []
  deriving Repr, DecidableEq

namespace Network

def getEnd (network : Network) (id : EndId) : SocketEnd :=
  match network.links[id.link]? with
  | some link => link.get id.side
  | none => { isOpen := false }

def setEnd (network : Network) (id : EndId) (value : SocketEnd) : Network :=
  { network with links := network.links.modify id.link fun link => link.set id.side value }

def changeEnd (network : Network) (id : EndId) (change : SocketEnd → SocketEnd) : Network :=
  network.setEnd id (change (network.getEnd id))

end Network

end ResourceHandles
