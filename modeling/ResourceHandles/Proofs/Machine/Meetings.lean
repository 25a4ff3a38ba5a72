import ResourceHandles.Proofs.Machine.FileOwners
import ResourceHandles.Proofs.Machine.Pairs
import ResourceHandles.Proofs.Network.Backlogs

/-!
# Meetings

A connect that succeeds puts a link into the backlog of a listening socket and hands out
the calling end; an accept that succeeds takes a link from the backlog of its listener and
hands out the answering end.  No other event brings about a connection, and no other event
puts a link into a backlog or takes one from it.
-/

namespace ResourceHandles

/-- An end of a link that was handed out: the listening socket in which the link waits or
waited, and the party that the end was handed to. -/
structure Meeting where
  id : EndId
  socket : Nat
  party : Party
  deriving Repr, DecidableEq

namespace Meeting

/-- The link of a meeting, if it is one on the given side through the given socket. -/
def linkAt? (side : Side) (socket : Nat) (meeting : Meeting) : Option Nat :=
  if meeting.id.side = side ∧ meeting.socket = socket then some meeting.id.link else none

/-- The handle of a meeting with its handle space. -/
def handle (meeting : Meeting) : Nat × Handle :=
  (meeting.party.space, meeting.party.handle)

end Meeting

/-- The links that reached a socket, in order. -/
def reachedAt (socket : Nat) (meetings : List Meeting) : List Nat :=
  meetings.filterMap (Meeting.linkAt? .caller socket)

/-- The links that were taken from a socket, in order. -/
def takenAt (socket : Nat) (meetings : List Meeting) : List Nat :=
  meetings.filterMap (Meeting.linkAt? .answerer socket)

/-- The handle that a connect or an accept was answered with, if it succeeded. -/
def Record.met? : Record → Option (Nat × Handle)
  | .advanced pending (some (.handle handle)) =>
    if handle = .invalid then none
    else
      match pending.action with
      | .connect _ => some (pending.space, handle)
      | .accept _ => some (pending.space, handle)
      | _ => none
  | _ => none

/-- The listening socket in which a link waits. -/
def Network.socketOf (network : Network) (link : Nat) : Nat :=
  network.sockets.findIdx fun socket => socket.waiting.contains link

namespace Machine

/-- The socket of a listener, and the link that has waited longest in it. -/
def oldest? (machine : Machine) (number : Nat) : Option (Nat × Nat) :=
  machine.listeners[number]?.bind fun listener =>
    machine.network.sockets[listener.socket]?.bind fun socket =>
      socket.waiting.head?.map fun link => (listener.socket, link)

/-- What comes of a connect or an accept that succeeds. -/
def meetingOf? (machine next : Machine) : Record → Option Meeting
  | .advanced pending (some (.handle handle)) =>
    if handle = .invalid then none
    else
      match pending.action with
      | .connect _ =>
        let link := machine.network.links.length
        some ⟨⟨link, .caller⟩, next.network.socketOf link,
          ⟨pending.space, handle, machine.connections.length⟩⟩
      | .accept number =>
        (machine.oldest? number).map fun found =>
          ⟨⟨found.2, .answerer⟩, found.1, ⟨pending.space, handle, machine.connections.length⟩⟩
      | _ => none
  | _ => none

/-- What an event brings about, if it lets a connect or an accept succeed. -/
def meeting? (machine : Machine) (event : Event) : Option Meeting :=
  (machine.step? event).bind fun step => machine.meetingOf? step.1 step.2

variable {machine next : Machine} {record : Record} {space amount : Nat}

/-! ## Quiet events -/

/-- No connection comes about, and backlogs are at most dropped. -/
structure Quiet (machine next : Machine) : Prop where
  ends : next.connections.map Connection.endId = machine.connections.map Connection.endId
  relists :
    ∀ socket : Nat, Network.Relisted machine.network.sockets[socket]? next.network.sockets[socket]?

theorem Quiet.of_eq
    (hconnections : next.connections = machine.connections)
    (hsockets : next.network.sockets = machine.network.sockets) :
    machine.Quiet next := by
  constructor
  · rw [hconnections]
  · intro socket
    rw [hsockets]
    exact Network.Relisted.same

theorem letGo_relists (machine : Machine) (resource : Resource) (socket : Nat) :
    Network.Relisted machine.network.sockets[socket]?
      (machine.letGo resource).network.sockets[socket]? := by
  rcases machine.letGo_cases resource with
    hsame | ⟨number, listener, -, hclosed⟩ | ⟨number, connection, -, -, -, hclosed⟩
  · rw [hsame]
    exact Network.Relisted.same
  · rw [hclosed]
    exact machine.network.closeSocket_relists listener.socket socket
  · rw [hclosed]
    simp only [Network.sockets_closeEnd]
    exact Network.Relisted.same

theorem letGoOf_relists (machine : Machine) (action : Action) (socket : Nat) :
    Network.Relisted machine.network.sockets[socket]?
      (machine.letGoOf action).network.sockets[socket]? := by
  unfold letGoOf
  split
  · exact machine.letGo_relists _ socket
  · exact Network.Relisted.same

theorem forget_relists (machine : Machine) (pending : Pending) (socket : Nat) :
    Network.Relisted machine.network.sockets[socket]?
      (machine.forget pending).network.sockets[socket]? :=
  letGoOf_relists
    { machine with
      pending := machine.pending.filter fun other => other.ticket != pending.ticket }
    pending.action socket

theorem ends_unbind (machine : Machine) (space : Nat) (handle : Handle) (resource : Resource) :
    (machine.unbind space handle resource).connections.map Connection.endId =
      machine.connections.map Connection.endId := by
  cases resource with
  | file number => rfl
  | listener number => rfl
  | connection number =>
      rw [connections_unbind_connection]
      have hkeep : ∀ connection : Connection, connection.released.endId = connection.endId :=
        fun _ => rfl
      exact map_modify hkeep _ _

/-- Only a connect puts a link into a backlog, and only an accept takes one from it. -/
theorem Performed.quiet
    {action : Action} {progress : Progress}
    (hperformed : machine.Performed space amount action next progress)
    (hconnect : ∀ endpoint, action ≠ .connect endpoint)
    (haccept : ∀ listener, action ≠ .accept listener) :
    machine.Quiet next := by
  cases hperformed with
  | idle hlane hreply => exact Quiet.of_eq rfl rfl
  | opened => exact Quiet.of_eq rfl rfl
  | @listening endpoint network number hbind =>
      unfold bindAt at hbind
      split at hbind
      · cases hbind
      · constructor
        · rfl
        · exact Network.bind_relists hbind
  | connected hreach => exact absurd rfl (hconnect _)
  | accepted htake => exact absurd rfl (haccept _)
  | @received handle number connection network data hconnection hraised hreceive =>
      refine Quiet.of_eq rfl ?_
      have hsockets :=
        machine.network.sockets_receive connection.endId connection.bufferSize amount
      rw [hreceive] at hsockets
      exact hsockets
  | @unreceived handle number connection network fault hconnection hreceive =>
      refine Quiet.of_eq rfl ?_
      have hsockets :=
        machine.network.sockets_receive connection.endId connection.bufferSize amount
      rw [hreceive] at hsockets
      exact hsockets
  | receiverGone hgone => exact Quiet.of_eq rfl rfl
  | @sent handle number data connection network count hconnection hraised hsend =>
      refine Quiet.of_eq rfl ?_
      have hsockets := machine.network.sockets_send connection.endId data amount
      rw [hsend] at hsockets
      exact hsockets
  | @unsent handle number data connection network fault hconnection hsend =>
      refine Quiet.of_eq rfl ?_
      have hsockets := machine.network.sockets_send connection.endId data amount
      rw [hsend] at hsockets
      exact hsockets
  | senderGone hgone => exact Quiet.of_eq rfl rfl
  | @ended number =>
      unfold endSending
      split
      · exact Quiet.of_eq rfl rfl
      · exact Quiet.of_eq rfl rfl
  | blocked => exact Quiet.of_eq rfl rfl

theorem Quiet.forget (hquiet : machine.Quiet next) (pending : Pending) :
    machine.Quiet (next.forget pending) := by
  constructor
  · rw [connections_forget]
    exact hquiet.ends
  · intro socket
    exact (hquiet.relists socket).trans (next.forget_relists pending socket)

/-- Starting an action brings about no connection, unless it is carried out at once. -/
theorem quiet_of_plan
    {call : Call} {action : Action} (hplan : machine.plan space call = (machine, .act action))
    (hconnect : ∀ endpoint, action ≠ .connect endpoint)
    (haccept : ∀ number, action ≠ .accept number) :
    machine.Quiet (machine.start space call).1 := by
  have hperformed := (machine.performed space 0 action).quiet hconnect haccept
  unfold start
  rw [hplan]
  simp only
  split
  · exact Quiet.of_eq rfl rfl
  · split
    · next performed reply hperform =>
        rw [hperform] at hperformed
        constructor
        · have hconnections : (performed.letGoOf action).connections = performed.connections := by
            rw [letGoOf_eq]
          rw [hconnections]
          exact hperformed.ends
        · intro socket
          exact (hperformed.relists socket).trans (performed.letGoOf_relists action socket)
    · next performed rest hperform =>
        rw [hperform] at hperformed
        exact ⟨hperformed.ends, hperformed.relists⟩
    · next performed hperform =>
        rw [hperform] at hperformed
        exact ⟨hperformed.ends, hperformed.relists⟩

theorem quiet_of_started
    {call : Call} {found : Option Resource} {result : Started}
    (htransition : machine.Transition (.started space call found result) next)
    (hhandle : call.handle? ≠ none) :
    machine.Quiet next := by
  generalize hrecord : Record.started space call found result = record at htransition
  cases htransition with
  | refused howner hfound hclose hreply => exact Quiet.of_eq rfl rfl
  | parked howner hleads => exact Quiet.of_eq rfl rfl
  | performed howner hcall hfree hperform =>
      cases hrecord
      exact absurd hcall hhandle
  | @closed owner handle resource howner hbound =>
      constructor
      · rw [connections_letGo]
        exact machine.ends_unbind owner handle resource
      · intro socket
        rw [← (machine.unbind_frame owner handle resource).1]
        exact letGo_relists _ resource socket
  | @closing owner handle resource action howner hbound haction =>
      constructor
      · rw [connections_park]
        exact machine.ends_unbind owner handle resource
      · intro socket
        rw [← (machine.unbind_frame owner handle resource).1]
        exact Network.Relisted.same
  | _ => cases hrecord

/-- Connecting waits in either mode, so no call brings about a connection at once. -/
theorem start_quiet
    (machine : Machine) (hspace : space < machine.spaces.length) (call : Call) :
    machine.Quiet (machine.start space call).1 := by
  have htransition := machine.start_transition call hspace
  cases call with
  | «open» path flags => exact quiet_of_plan rfl (by simp) (by simp)
  | unlink path => exact quiet_of_plan rfl (by simp) (by simp)
  | listen address =>
      cases hparse :
          Endpoint.parse? address (machine.space space).configuration.wildcardHost with
      | none =>
          simp only [start, plan, hparse]
          exact Quiet.of_eq rfl rfl
      | some endpoint =>
          have hplan :
              machine.plan space (.listen address) = (machine, .act (.listen endpoint)) := by
            simp only [plan, hparse]
          exact quiet_of_plan hplan (by simp) (by simp)
  | connect address =>
      have hsuspends :
          (machine.space space).configuration.mode.suspends .connect = true := by
        cases (machine.space space).configuration.mode <;> rfl
      have hoperation : (Call.connect address).operation = .connect := rfl
      cases hparse :
          Endpoint.parse? address (machine.space space).configuration.wildcardHost with
      | none =>
          simp only [start, plan, hparse]
          exact Quiet.of_eq rfl rfl
      | some endpoint =>
          simp only [start, plan, hparse, hoperation, hsuspends, if_true]
          exact Quiet.of_eq rfl rfl
  | close handle => exact quiet_of_started htransition (by simp [Call.handle?])
  | read handle => exact quiet_of_started htransition (by simp [Call.handle?])
  | write handle data => exact quiet_of_started htransition (by simp [Call.handle?])
  | accept handle => exact quiet_of_started htransition (by simp [Call.handle?])

/-! ## Events that bring about a connection -/

/-- A meeting comes about: its end of the link is that of the next connection, which is
bound to the next handle, and the link is put into the backlog or taken from it. -/
structure Comes (machine next : Machine) (meeting : Meeting) : Prop where
  number_eq : meeting.party.number = machine.connections.length
  handle_eq : meeting.party.handle = ⟨(machine.space meeting.party.space).table.next⟩
  isOpen : meeting.party.IsOpen next
  ends :
    next.connections.map Connection.endId =
      machine.connections.map Connection.endId ++ [meeting.id]
  backlogs :
    ∀ (socket : Nat) (reached taken : List Nat),
      Network.Backlog machine.network.sockets[socket]? reached taken →
        Network.Backlog next.network.sockets[socket]?
          (reached ++ (meeting.linkAt? .caller socket).toList)
          (taken ++ (meeting.linkAt? .answerer socket).toList)

/-- A new connection is bound to the next handle. -/
theorem isOpen_addConnection
    (htable : (machine.space space).table.WellFormed) (hspace : space < machine.spaces.length)
    (id : EndId) :
    Party.IsOpen ⟨space, ⟨(machine.space space).table.next⟩, machine.connections.length⟩
      (machine.addConnection space id).1 := by
  have howner :
      (machine.addConnection space id).1.space space =
        { machine.space space with
          table :=
            ((machine.space space).table.insert (.connection machine.connections.length)).1 } :=
    space_setTable_self _ _ hspace
  unfold Party.IsOpen lookup
  rw [howner]
  exact htable.get?_insert_self _

theorem addConnection_handle (machine : Machine) (space : Nat) (id : EndId) :
    (machine.addConnection space id).2 = ⟨(machine.space space).table.next⟩ :=
  bindHandle_handle
    { machine with
      connections :=
        machine.connections ++
          [{ endId := id, bufferSize := (machine.space space).configuration.bufferSize }] }
    space _

theorem next_ne_invalid
    {table : HandleTable Nat Nat Nat} (htable : table.WellFormed) :
    (⟨table.next⟩ : Handle) ≠ .invalid := by
  intro hinvalid
  have hraw : table.next = -1 := congrArg Handle.raw hinvalid
  have hfirst := htable.first_le_next
  unfold firstHandle at hfirst
  omega

/-- The socket of a new link is found in the list: the link waits nowhere else. -/
theorem socketOf_reached
    {network grown : Network} (hlinks : ∀ link ∈ network.waitingLinks, link < network.links.length)
    {number : Nat} {socket : ListeningSocket} (hsocket : network.sockets[number]? = some socket)
    (hgrown :
      grown.sockets =
        network.sockets.set number
          { socket with waiting := socket.waiting ++ [network.links.length] }) :
    grown.socketOf network.links.length = number := by
  obtain ⟨hnumber, hget⟩ := List.getElem?_eq_some_iff.mp hsocket
  unfold Network.socketOf
  rw [hgrown, List.findIdx_eq (by simpa using hnumber)]
  constructor
  · simp
  · intro earlier hearlier
    rw [List.getElem_set_ne (by omega)]
    by_contra hfound
    have hmem : network.links.length ∈ network.sockets[earlier].waiting := by simpa using hfound
    have hwaits : network.links.length ∈ network.waitingLinks :=
      List.mem_flatMap.mpr ⟨_, List.getElem_mem _, hmem⟩
    exact lt_irrefl _ (hlinks _ hwaits)

theorem comes_of_addConnection
    (hsound : machine.Sound) (hspace : space < machine.spaces.length) {network : Network}
    {id : EndId} {socket : Nat}
    (hbacklogs :
      ∀ (other : Nat) (reached taken : List Nat),
        Network.Backlog machine.network.sockets[other]? reached taken →
          Network.Backlog network.sockets[other]?
            (reached ++ (if id.side = .caller ∧ socket = other then some id.link else none).toList)
            (taken ++
              (if id.side = .answerer ∧ socket = other then some id.link else none).toList))
    (pending : Pending) :
    machine.Comes (({ machine with network := network }.addConnection space id).1.forget pending)
      ⟨id, socket,
        ⟨space, ⟨(machine.space space).table.next⟩, machine.connections.length⟩⟩ := by
  constructor
  · rfl
  · rfl
  · have htable : (({ machine with network := network } : Machine).space space).table.WellFormed :=
      hsound.bindings.tables space
    have hopen := isOpen_addConnection htable hspace id
    unfold Party.IsOpen lookup at hopen ⊢
    rw [space_congr (spaces_forget _ pending)]
    exact hopen
  · rw [connections_forget]
    exact List.map_append
  · intro other reached taken hbacklog
    have hrelisted :=
      ({ machine with network := network }.addConnection space id).1.forget_relists pending other
    exact (hbacklogs other reached taken hbacklog).relisted hrelisted

theorem connect_eq_handle
    {performed : Machine} {endpoint : Endpoint} {handle : Handle}
    (hconnect : machine.connect space endpoint = (performed, .handle handle))
    (hvalid : handle ≠ .invalid) :
    ∃ host network id,
      machine.network.connect host endpoint.port = .ok (network, id) ∧
        performed = ({ machine with network := network }.addConnection space id).1 ∧
          handle = ⟨(machine.space space).table.next⟩ := by
  unfold connect reach at hconnect
  split at hconnect
  · cases hconnect
    exact absurd rfl hvalid
  · next network id hreach =>
      simp only [Prod.mk.injEq, addConnection_handle, Reply.handle.injEq] at hconnect
      obtain ⟨rfl, rfl⟩ := hconnect
      split at hreach
      · cases hreach
      · next host hhost => exact ⟨host, network, id, hreach, rfl, rfl⟩

theorem accept_eq_handle
    {performed : Machine} {number : Nat} {handle : Handle}
    (haccept : machine.accept space number = (performed, .finished (.handle handle)))
    (hvalid : handle ≠ .invalid) :
    ∃ listener network id,
      machine.listeners[number]? = some listener ∧
        machine.network.takeWaiting? listener.socket = some (network, id) ∧
          performed = ({ machine with network := network }.addConnection space id).1 ∧
            handle = ⟨(machine.space space).table.next⟩ := by
  unfold accept at haccept
  split at haccept
  · cases haccept
    exact absurd rfl hvalid
  · next listener hlistener =>
      split at haccept
      · cases haccept
        exact absurd rfl hvalid
      · split at haccept
        · cases haccept
        · cases haccept
          exact absurd rfl hvalid
        · next network id hmoved =>
            simp only [Prod.mk.injEq, Progress.finished.injEq, addConnection_handle,
              Reply.handle.injEq] at haccept
            obtain ⟨rfl, rfl⟩ := haccept
            exact
              ⟨listener, network, id, hlistener, (Network.accept_moved_iff.mp hmoved).1, rfl,
                rfl⟩

theorem meetingOf?_connect
    {pending : Pending} {handle : Handle} {endpoint : Endpoint}
    (haction : pending.action = .connect endpoint) (hvalid : handle ≠ .invalid) :
    machine.meetingOf? next (.advanced pending (some (.handle handle))) =
      some ⟨⟨machine.network.links.length, .caller⟩,
        next.network.socketOf machine.network.links.length,
        ⟨pending.space, handle, machine.connections.length⟩⟩ := by
  simp [meetingOf?, hvalid, haction]

theorem meetingOf?_accept
    {pending : Pending} {handle : Handle} {number : Nat} {found : Nat × Nat}
    (haction : pending.action = .accept number) (hvalid : handle ≠ .invalid)
    (hfound : machine.oldest? number = some found) :
    machine.meetingOf? next (.advanced pending (some (.handle handle))) =
      some ⟨⟨found.2, .answerer⟩, found.1,
        ⟨pending.space, handle, machine.connections.length⟩⟩ := by
  simp [meetingOf?, hvalid, haction, hfound]

/-- A connect that succeeds puts its link into the backlog of a socket. -/
theorem comes_of_connect
    (hsound : machine.Sound) {pending : Pending} {performed : Machine} {handle : Handle}
    {endpoint : Endpoint} (haction : pending.action = .connect endpoint)
    (hspace : pending.space < machine.spaces.length) (hvalid : handle ≠ .invalid)
    (hconnect : machine.connect pending.space endpoint = (performed, .handle handle)) :
    ∃ meeting,
      machine.meetingOf? (performed.forget pending) (.advanced pending (some (.handle handle))) =
          some meeting ∧
        (Record.advanced pending (some (.handle handle))).met? = some meeting.handle ∧
          machine.Comes (performed.forget pending) meeting := by
  obtain ⟨host, network, id, hnetwork, rfl, rfl⟩ := connect_eq_handle hconnect hvalid
  obtain ⟨rfl, -, -⟩ := Network.connect_eq_ok hnetwork
  obtain ⟨number, socket, hsocket, hopen, hsockets⟩ := Network.connect_reaches hnetwork
  have hforgotten :
      ∀ grown : Machine, (grown.forget pending).network = grown.network := by
    intro grown
    unfold forget letGoOf
    rw [haction]
    rfl
  refine ⟨_, meetingOf?_connect haction hvalid, ?_, ?_⟩
  · simp [Record.met?, hvalid, haction, Meeting.handle]
  rw [hforgotten, show (addConnection _ _ _).1.network = network from rfl,
    socketOf_reached hsound.links.waitingInLinks hsocket hsockets]
  apply comes_of_addConnection hsound hspace
  intro other reached taken hbacklog
  rw [hsockets]
  simp only [true_and, reduceCtorEq, false_and, if_false, Option.toList_none, List.append_nil]
  by_cases hother : number = other
  · subst hother
    rw [hsocket] at hbacklog
    rw [if_pos rfl, List.getElem?_set_self (List.getElem?_eq_some_iff.mp hsocket).1]
    exact hbacklog.reach hopen _
  · rw [if_neg hother, List.getElem?_set_ne hother, Option.toList_none, List.append_nil]
    exact hbacklog

/-- An accept that succeeds takes the oldest link of its socket. -/
theorem comes_of_accept
    (hsound : machine.Sound) {pending : Pending} {performed : Machine} {handle : Handle}
    {number : Nat} (haction : pending.action = .accept number)
    (hspace : pending.space < machine.spaces.length) (hvalid : handle ≠ .invalid)
    (haccept : machine.accept pending.space number = (performed, .finished (.handle handle))) :
    ∃ meeting,
      machine.meetingOf? (performed.forget pending) (.advanced pending (some (.handle handle))) =
          some meeting ∧
        (Record.advanced pending (some (.handle handle))).met? = some meeting.handle ∧
          machine.Comes (performed.forget pending) meeting := by
  obtain ⟨listener, network, id, hlistener, htake, rfl, rfl⟩ := accept_eq_handle haccept hvalid
  obtain ⟨socket, link, later, hsocket, hwaiting, rfl, hsockets⟩ :=
    Network.takeWaiting?_takes htake
  have hfound : machine.oldest? number = some (listener.socket, link) := by
    unfold oldest?
    rw [hlistener, Option.bind_some, hsocket, Option.bind_some, hwaiting]
    rfl
  refine ⟨_, meetingOf?_accept haction hvalid hfound, ?_, ?_⟩
  · simp [Record.met?, hvalid, haction, Meeting.handle]
  apply comes_of_addConnection hsound hspace
  intro other reached taken hbacklog
  rw [hsockets]
  simp only [true_and, reduceCtorEq, false_and, if_false, Option.toList_none, List.append_nil]
  by_cases hother : listener.socket = other
  · subst hother
    rw [hsocket] at hbacklog
    rw [if_pos rfl, List.getElem?_set_self (List.getElem?_eq_some_iff.mp hsocket).1]
    exact hbacklog.take hwaiting
  · rw [if_neg hother, List.getElem?_set_ne hother, Option.toList_none, List.append_nil]
    exact hbacklog

/-! ## One event -/

/-- An event brings about no connection, or the one that its record tells of. -/
inductive Meets (machine next : Machine) (record : Record) : Prop where
  | nobody (hmeeting : machine.meetingOf? next record = none) (hmet : record.met? = none)
      (hquiet : machine.Quiet next)
  | somebody {meeting : Meeting} (hmeeting : machine.meetingOf? next record = some meeting)
      (hmet : record.met? = some meeting.handle) (hcomes : machine.Comes next meeting)

theorem meetingOf?_of_other
    {pending : Pending} {reply : Option Reply}
    (hconnect : ∀ endpoint, pending.action ≠ .connect endpoint)
    (haccept : ∀ number, pending.action ≠ .accept number) :
    machine.meetingOf? next (.advanced pending reply) = none ∧
      (Record.advanced pending reply).met? = none := by
  unfold meetingOf? Record.met?
  constructor
  · split
    · next waiting handle hrecord =>
        cases hrecord
        split
        · rfl
        · split
          · next endpoint haction => exact absurd haction (hconnect endpoint)
          · next number haction => exact absurd haction (haccept number)
          · rfl
    · rfl
  · split
    · next waiting handle hrecord =>
        cases hrecord
        split
        · rfl
        · split
          · next endpoint haction => exact absurd haction (hconnect endpoint)
          · next number haction => exact absurd haction (haccept number)
          · rfl
    · rfl

theorem meets_of_refused (machine : Machine) (pending : Pending) :
    machine.Meets (machine.forget pending) (.advanced pending (some (.handle .invalid))) :=
  Meets.nobody rfl rfl ((Quiet.of_eq rfl rfl : machine.Quiet machine).forget pending)

theorem meets_of_connect
    (hsound : machine.Sound) {pending : Pending} {endpoint : Endpoint}
    (haction : pending.action = .connect endpoint)
    (hspace : pending.space < machine.spaces.length) :
    machine.Meets ((machine.connect pending.space endpoint).1.forget pending)
      (.advanced pending (some (machine.connect pending.space endpoint).2)) := by
  cases hreach : machine.reach endpoint with
  | error fault =>
      unfold connect
      rw [hreach]
      exact machine.meets_of_refused pending
  | ok reached =>
      have hconnect :
          machine.connect pending.space endpoint =
            (({ machine with network := reached.1 }.addConnection pending.space reached.2).1,
              .handle ⟨(machine.space pending.space).table.next⟩) := by
        unfold connect
        rw [hreach]
        simp only [addConnection_handle]
        rfl
      have hvalid := next_ne_invalid (hsound.bindings.tables pending.space)
      obtain ⟨meeting, hmeeting, hmet, hcomes⟩ :=
        comes_of_connect hsound haction hspace hvalid hconnect
      rw [hconnect]
      exact Meets.somebody hmeeting hmet hcomes

theorem meets_of_accept
    (hsound : machine.Sound) {pending : Pending} {number : Nat}
    (haction : pending.action = .accept number)
    (hspace : pending.space < machine.spaces.length) {performed : Machine} {reply : Reply}
    (haccept : machine.accept pending.space number = (performed, .finished reply)) :
    machine.Meets (performed.forget pending) (.advanced pending (some reply)) := by
  have hvalid := next_ne_invalid (hsound.bindings.tables pending.space)
  have hwhole := haccept
  unfold accept at haccept
  split at haccept
  · cases haccept
    exact machine.meets_of_refused pending
  · split at haccept
    · cases haccept
      exact machine.meets_of_refused pending
    · split at haccept
      · cases haccept
      · cases haccept
        exact machine.meets_of_refused pending
      · simp only [Prod.mk.injEq, Progress.finished.injEq, addConnection_handle] at haccept
        obtain ⟨-, rfl⟩ := haccept
        obtain ⟨meeting, hmeeting, hmet, hcomes⟩ :=
          comes_of_accept hsound haction hspace hvalid hwhole
        exact Meets.somebody hmeeting hmet hcomes

theorem meets_of_finished
    (hsound : machine.Sound) {pending : Pending} {performed : Machine} {reply : Reply}
    (hspace : pending.space < machine.spaces.length)
    (hperform :
      machine.perform pending.space amount pending.action = (performed, .finished reply)) :
    machine.Meets (performed.forget pending) (.advanced pending (some reply)) := by
  have hperformed := performed_of_perform hperform
  by_cases hconnect : ∃ endpoint, pending.action = .connect endpoint
  · obtain ⟨endpoint, haction⟩ := hconnect
    have hmeets := meets_of_connect hsound haction hspace
    rw [haction] at hperform
    cases hperform
    exact hmeets
  · by_cases haccept : ∃ number, pending.action = .accept number
    · obtain ⟨number, haction⟩ := haccept
      rw [haction] at hperform
      exact meets_of_accept hsound haction hspace hperform
    · have hneither :
          (∀ endpoint, pending.action ≠ .connect endpoint) ∧
            ∀ number, pending.action ≠ .accept number :=
        ⟨not_exists.mp hconnect, not_exists.mp haccept⟩
      obtain ⟨hmeeting, hmet⟩ := meetingOf?_of_other hneither.1 hneither.2
      exact Meets.nobody hmeeting hmet ((hperformed.quiet hneither.1 hneither.2).forget pending)

theorem step?_meets
    (hsound : machine.Sound)
    (hrange : ∀ pending ∈ machine.pending, pending.space < machine.spaces.length)
    {event : Event} (hstep : machine.step? event = some (next, record)) :
    machine.Meets next record := by
  cases event with
  | start space call =>
      simp only [step?] at hstep
      split at hstep
      · next hspace =>
          cases hstep
          exact Meets.nobody rfl rfl (machine.start_quiet hspace call)
      · cases hstep
  | exhaust exhausted =>
      cases hstep
      exact Meets.nobody rfl rfl (Quiet.of_eq rfl rfl)
  | abandon ticket =>
      simp only [step?] at hstep
      split at hstep
      · next pending hpending =>
          cases hstep
          unfold abandon
          rw [hpending]
          exact
            Meets.nobody rfl rfl ((Quiet.of_eq rfl rfl : machine.Quiet machine).forget pending)
      · cases hstep
  | advance ticket amount =>
      have hrecord : ∃ pending reply, record = .advanced pending reply := by
        simp only [step?] at hstep
        split at hstep
        · cases hstep
          exact ⟨_, _, rfl⟩
        · cases hstep
      obtain ⟨pending, reply, rfl⟩ := hrecord
      have htransition := step?_transition hstep
      cases htransition with
      | finished hpending hturn hperform =>
          exact meets_of_finished hsound (hrange _ (mem_of_pending? hpending)) hperform
      | continued hpending hturn hperform =>
          have hperformed := performed_of_perform hperform
          obtain ⟨handle, number, data, count, hsend, -⟩ := hperformed.continues
          have hquiet := hperformed.quiet (by simp [hsend]) (by simp [hsend])
          exact Meets.nobody rfl rfl ⟨hquiet.ends, hquiet.relists⟩

end Machine

end ResourceHandles
