import ResourceHandles.Proofs.Machine.Run
import ResourceHandles.Proofs.Network.Listening

/-!
# What carrying out an action comes to

Each action is taken apart once.  What it does to the tables, to the network and
to the connections is read off the cases that are left.
-/

namespace ResourceHandles

/-- The handle that a reply hands out. -/
def Reply.newHandle? : Reply → Option Handle
  | .handle number => if number = .invalid then none else some number
  | _ => none

namespace Machine

/-- The ways in which carrying out an action ends, for a machine, the space of
the action and the number of bytes that may be moved. -/
inductive Performed (machine : Machine) (space amount : Nat) :
    Action → Machine → Progress → Prop where
  | idle {action : Action} {tree : FileTree} {files : List OpenFile} {reply : Reply}
      (hlane : action.lane? = none) (hreply : reply.newHandle? = none) :
      Performed machine space amount action
        { machine with tree := tree, files := files } (.finished reply)
  | opened {path : Path} {access : Access} {tree : FileTree} {file : OpenFile} :
      Performed machine space amount (.openFile path access)
        ({ machine with tree := tree }.addFile space file).1
        (.finished (.handle ({ machine with tree := tree }.addFile space file).2))
  | listening {endpoint : Endpoint} {network : Network} {socket : Nat}
      (hbind :
        machine.bindAt (machine.space space).configuration.mode endpoint =
          .ok (network, socket)) :
      Performed machine space amount (.listen endpoint)
        ({ machine with network := network }.addListener space socket).1
        (.finished (.handle ({ machine with network := network }.addListener space socket).2))
  | connected {endpoint : Endpoint} {network : Network} {endId : EndId}
      (hreach : machine.reach endpoint = .ok (network, endId)) :
      Performed machine space amount (.connect endpoint)
        ({ machine with network := network }.addConnection space endId).1
        (.finished (.handle ({ machine with network := network }.addConnection space endId).2))
  | accepted {number : Nat} {listener : Listener} {network : Network} {endId : EndId}
      (htake : machine.network.takeWaiting? listener.socket = some (network, endId)) :
      Performed machine space amount (.accept number)
        ({ machine with network := network }.addConnection space endId).1
        (.finished (.handle ({ machine with network := network }.addConnection space endId).2))
  | received {handle : Handle} {number : Nat} {connection : Connection} {network : Network}
      {data : Bytes}
      (hconnection : machine.connections[number]? = some connection)
      (hraised : connection.signal.raised = false)
      (hreceive :
        machine.network.receive connection.endId connection.bufferSize amount =
          (network, .moved data)) :
      Performed machine space amount (.receive handle number)
        { machine with network := network } (.finished (.bytes data))
  | unreceived {handle : Handle} {number : Nat} {connection : Connection} {network : Network}
      {fault : SocketFault}
      (hconnection : machine.connections[number]? = some connection)
      (hreceive :
        machine.network.receive connection.endId connection.bufferSize amount =
          (network, .failed fault)) :
      Performed machine space amount (.receive handle number)
        { machine with network := network }
        (.finished (.failed (.connectionNotRead handle fault)))
  | receiverGone {handle : Handle} {number : Nat}
      (hgone :
        ∀ connection, machine.connections[number]? = some connection →
          connection.signal.raised = true) :
      Performed machine space amount (.receive handle number) machine (.finished (.bytes []))
  | sent {handle : Handle} {number : Nat} {data : Bytes} {connection : Connection}
      {network : Network} {count : Nat}
      (hconnection : machine.connections[number]? = some connection)
      (hraised : connection.signal.raised = false)
      (hsend : machine.network.send connection.endId data amount = (network, .moved count)) :
      Performed machine space amount (.send handle number data)
        { machine with network := network }
        (if (data.drop count).isEmpty then .finished .done
        else .continues (.send handle number (data.drop count)))
  | unsent {handle : Handle} {number : Nat} {data : Bytes} {connection : Connection}
      {network : Network} {fault : SocketFault}
      (hconnection : machine.connections[number]? = some connection)
      (hsend : machine.network.send connection.endId data amount = (network, .failed fault)) :
      Performed machine space amount (.send handle number data)
        { machine with network := network }
        (.finished (.failed (.connectionNotWritten handle fault)))
  | senderGone {handle : Handle} {number : Nat} {data : Bytes}
      (hgone :
        data = [] ∨
          ∀ connection, machine.connections[number]? = some connection →
            connection.signal.raised = true) :
      Performed machine space amount (.send handle number data) machine (.finished .done)
  | ended {number : Nat} :
      Performed machine space amount (.endSending number)
        (machine.endSending number) (.finished .done)
  | blocked {action : Action} :
      Performed machine space amount action machine .blocked

theorem performed_receive
    (machine : Machine) (space amount : Nat) (handle : Handle) (number : Nat) :
    machine.Performed space amount (.receive handle number)
      (machine.receive handle number amount).1 (machine.receive handle number amount).2 := by
  unfold receive
  split
  · next hnone =>
      apply Performed.receiverGone
      intro connection hconnection
      rw [hnone] at hconnection
      cases hconnection
  · next connection hconnection =>
      split
      · next hraised =>
          apply Performed.receiverGone
          intro other hother
          rw [hconnection] at hother
          cases hother
          exact hraised
      · next hraised =>
          split
          · next network data hreceive =>
              exact Performed.received hconnection (by simpa using hraised) hreceive
          · next network fault hreceive =>
              exact Performed.unreceived hconnection hreceive
          · exact Performed.blocked

theorem performed_send
    (machine : Machine) (space amount : Nat) (handle : Handle) (number : Nat) (data : Bytes) :
    machine.Performed space amount (.send handle number data)
      (machine.send handle number data amount).1 (machine.send handle number data amount).2 := by
  unfold send
  split
  · next hnone =>
      apply Performed.senderGone
      right
      intro connection hconnection
      rw [hnone] at hconnection
      cases hconnection
  · next connection hconnection =>
      split
      · next hraised =>
          apply Performed.senderGone
          right
          intro other hother
          rw [hconnection] at hother
          cases hother
          exact hraised
      · next hraised =>
          split
          · next hempty =>
              apply Performed.senderGone
              left
              simpa using hempty
          · split
            · next network count hsend =>
                exact Performed.sent hconnection (by simpa using hraised) hsend
            · next network fault hsend =>
                exact Performed.unsent hconnection hsend
            · exact Performed.blocked

theorem performed_accept (machine : Machine) (space amount number : Nat) :
    machine.Performed space amount (.accept number)
      (machine.accept space number).1 (machine.accept space number).2 := by
  unfold accept
  split
  · exact Performed.idle rfl rfl
  · split
    · exact Performed.idle rfl rfl
    · split
      · exact Performed.blocked
      · exact Performed.idle rfl rfl
      · next network endId haccept =>
          exact Performed.accepted (Network.accept_moved_iff.mp haccept).1

theorem performed (machine : Machine) (space amount : Nat) (action : Action) :
    machine.Performed space amount action
      (machine.perform space amount action).1 (machine.perform space amount action).2 := by
  cases action with
  | openFile path access =>
      simp only [perform, finish, openFile]
      split
      · exact Performed.idle rfl rfl
      · exact Performed.opened
  | closeFile file => exact Performed.idle rfl rfl
  | readFile handle file =>
      simp only [perform, finish, readFile]
      split
      · exact Performed.idle rfl rfl
      · split
        · exact Performed.idle rfl rfl
        · exact Performed.idle rfl rfl
  | writeFile handle file data =>
      simp only [perform, finish, writeFile]
      split
      · exact Performed.idle rfl rfl
      · split
        · exact Performed.idle rfl rfl
        · exact Performed.idle rfl rfl
  | unlink path =>
      simp only [perform, finish, unlink]
      split
      · exact Performed.idle rfl rfl
      · exact Performed.idle rfl rfl
  | listen endpoint =>
      simp only [perform, finish, listen]
      split
      · exact Performed.idle rfl rfl
      · next network socket hbind => exact Performed.listening hbind
  | connect endpoint =>
      simp only [perform, finish, connect]
      split
      · exact Performed.idle rfl rfl
      · next network endId hreach => exact Performed.connected hreach
  | accept listener => exact machine.performed_accept space amount listener
  | receive handle connection => exact machine.performed_receive space amount handle connection
  | send handle connection data => exact machine.performed_send space amount handle connection data
  | endSending connection => exact Performed.ended

theorem performed_of_perform
    {machine next : Machine} {space amount : Nat} {action : Action} {progress : Progress}
    (hperform : machine.perform space amount action = (next, progress)) :
    machine.Performed space amount action next progress := by
  have hperformed := machine.performed space amount action
  rw [hperform] at hperformed
  exact hperformed

theorem Performed.pending
    {machine next : Machine} {space amount : Nat} {action : Action} {progress : Progress}
    (hperformed : machine.Performed space amount action next progress) :
    next.pending = machine.pending ∧ next.nextTicket = machine.nextTicket := by
  cases hperformed with
  | ended =>
      unfold endSending
      split
      · exact ⟨rfl, rfl⟩
      · exact ⟨rfl, rfl⟩
  | _ => exact ⟨rfl, rfl⟩

end Machine

end ResourceHandles
