import ResourceHandles.Network.Basic

/-!
# Operations on sockets

Sending and receiving move as many bytes as they are allowed to, at least one;
they wait when nothing can be moved.  An end that is closed tells the other end
that nothing more will come; what was sent before is still delivered.  If bytes
were left unread at the closed end, or if bytes are sent to it, the link is
severed: the other end can send no more.  A link that is still waiting in a
listening socket when that is closed is reset.

The transport is a reliable pipe: what was sent is delivered, whatever becomes of
the link.  (A host may drop what has not arrived when a link is severed, and let
the next read fail; such losses are left out.)

A call that finds no room in a listening socket is repeated by the host for some
time and then given up.  Waiting for room is no event here, so a call counts from
the moment at which it is decided: it finds room, or it times out.
-/

namespace ResourceHandles

/-- What came of an attempt to move bytes, or to accept a link. -/
inductive Transfer (α : Type) where
  | moved (result : α)
  | blocked
  | failed (fault : SocketFault)
  deriving Repr, DecidableEq

namespace ListeningSocket

/-- Whether the socket stands in the way of one with the given host and port. -/
def conflicts (socket : ListeningSocket) (host : IpAddress) (port : Nat) : Bool :=
  socket.isOpen && socket.port == port &&
    (socket.host == host || socket.host == .unspecified || host == .unspecified)

/-- Whether a call to the given host and port reaches the socket. -/
def answers (socket : ListeningSocket) (host : IpAddress) (port : Nat) : Bool :=
  socket.isOpen && socket.port == port && (socket.host == host || socket.host == .unspecified)

/-- Whether no further link may wait in the socket.  The host lets one more wait than
the length that was asked for. -/
def isFull (socket : ListeningSocket) : Bool :=
  decide (socket.mode.backlog < socket.waiting.length)

end ListeningSocket

namespace Network

/-- Makes a listening socket and returns its number.  Without a route nothing
tells the addresses of this host from others, and every address is free. -/
def bind (network : Network) (mode : CallMode) (host : IpAddress) (port : Nat) :
    Except SocketFault (Network × Nat) :=
  if network.exhausted then .error .noBuffers
  else if network.routed && !host.isLocal then .error .addressNotAvailable
  else if network.sockets.any fun socket => socket.conflicts host port then .error .addressInUse
  else
    let socket : ListeningSocket := { host := host, port := port, mode := mode }
    .ok ({ network with sockets := network.sockets ++ [socket] }, network.sockets.length)

/-- The address that a call goes to: a call to no particular host goes to this one. -/
def target (host : IpAddress) : IpAddress :=
  if host = .unspecified then .loopback else host

def isFull (network : Network) (number : Nat) : Bool :=
  (network.sockets[number]?).any ListeningSocket.isFull

/-- Calls a host.  The call is answered by the socket that listens there, and
the new link waits in it if there is room. -/
def connect (network : Network) (host : IpAddress) (port : Nat) :
    Except SocketFault (Network × EndId) :=
  if network.exhausted then .error .noBuffers
  else if !network.routed || !host.isLocal then .error .unreachable
  else
    match network.sockets.findIdx? fun socket => socket.answers (target host) port with
    | none => .error .refused
    | some number =>
      if network.isFull number then .error .timedOut
      else
        let link := network.links.length
        .ok ({ network with
            sockets := network.sockets.modify number fun socket =>
              { socket with waiting := socket.waiting ++ [link] }
            links := network.links ++ [{}] },
          ⟨link, .caller⟩)

/-- Takes the oldest link that waits in a listening socket. -/
def takeWaiting? (network : Network) (number : Nat) : Option (Network × EndId) :=
  match network.sockets[number]? with
  | none => none
  | some socket =>
    match socket.waiting with
    | [] => none
    | link :: later =>
      some ({ network with sockets := network.sockets.set number { socket with waiting := later } },
        ⟨link, .answerer⟩)

/-- Accepts the oldest link that waits in a listening socket.  While the host can make
no socket for it, the accept fails and the link goes on waiting. -/
def accept (network : Network) (number : Nat) : Network × Transfer EndId :=
  match network.takeWaiting? number with
  | none => (network, .blocked)
  | some (taken, endId) =>
    if network.exhausted then (network, .failed .noBuffers) else (taken, .moved endId)

/-- Sends the first bytes of some data, at most `amount` of them, and returns
how many were sent. -/
def send (network : Network) (id : EndId) (data : Bytes) (amount : Nat) :
    Network × Transfer Nat :=
  let own := network.getEnd id
  let peer := network.getEnd id.peer
  match own.fault with
  | some fault => (network.setEnd id { own with fault := none }, .failed fault)
  | none =>
    if own.severed then (network, .failed .brokenPipe)
    else if !peer.isOpen then
      (network.setEnd id { own with severed := true, fault := some .brokenPipe },
        .moved data.length)
    else
      let room := network.capacity - peer.inbox.length
      if room = 0 then (network, .blocked)
      else
        let count := min data.length (min room (max amount 1))
        (network.setEnd id.peer { peer with inbox := peer.inbox ++ data.take count }, .moved count)

/-- Receives bytes that have arrived, at most `size` and at most `amount` of
them; no bytes stand for the end. -/
def receive (network : Network) (id : EndId) (size amount : Nat) : Network × Transfer Bytes :=
  let own := network.getEnd id
  if !own.inbox.isEmpty then
    let count := min size (max amount 1)
    (network.setEnd id { own with inbox := own.inbox.drop count }, .moved (own.inbox.take count))
  else if own.ended then (network, .moved [])
  else
    match own.fault with
    | some fault => (network.setEnd id { own with fault := none }, .failed fault)
    | none => if own.severed then (network, .moved []) else (network, .blocked)

def endSending (network : Network) (id : EndId) : Network :=
  network.changeEnd id.peer fun peer => { peer with ended := true }

/-- Closes an end; an end that is closed already stays as it is. -/
def closeEnd (network : Network) (id : EndId) : Network :=
  let own := network.getEnd id
  if !own.isOpen then network
  else
    let closed := (network.endSending id).changeEnd id fun own => { own with isOpen := false }
    if own.inbox.isEmpty then closed
    else
      closed.changeEnd id.peer fun peer =>
        { peer with severed := true, fault := some .brokenPipe }

def resetLink (network : Network) (link : Nat) : Network :=
  (network.changeEnd ⟨link, .caller⟩ fun own =>
    { own with severed := true, fault := some .connectionReset }).changeEnd ⟨link, .answerer⟩
      fun own => { own with isOpen := false }

/-- Closes a listening socket and resets the links that wait in it. -/
def closeSocket (network : Network) (number : Nat) : Network :=
  match network.sockets[number]? with
  | none => network
  | some socket =>
    let closed := { network with
      sockets := network.sockets.set number { socket with isOpen := false, waiting := [] } }
    socket.waiting.foldl resetLink closed

end Network

end ResourceHandles
