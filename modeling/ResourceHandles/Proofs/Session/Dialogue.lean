import ResourceHandles.Session.Script
import ResourceHandles.Proofs.Network.Listening

/-!
# A row of requests on the network

A client sends requests to a server one after the other, each on a link of its own.  An
exchange has four quarters on either side: the client connects, sends, receives and closes,
the server accepts, receives, responds and closes.  How far both of them are, counted in
quarters from the first exchange on, says what every link of the row holds.

What is sent fits into an inbox, so it is moved in one piece and is there as a whole when
the other side receives.
-/

namespace ResourceHandles

/-- A row of requests to a server that listens at a port which nobody else listens at. -/
structure Dialogue where
  sockets : List ListeningSocket
  host : IpAddress
  port : Nat
  mode : CallMode
  capacity : Nat
  size : Nat
  first : Nat
  bodies : List Bytes
  isLocal : host.isLocal = true
  free : ∀ socket ∈ sockets, socket.conflicts host port = false
  response_le : response.length ≤ capacity
  body_ne : ∀ body ∈ bodies, body ≠ []
  body_le_size : ∀ body ∈ bodies, body.length ≤ size
  body_le : ∀ body ∈ bodies, body.length ≤ capacity

theorem modify_concat {α : Type} (values : List α) (last : α) (change : α → α) :
    (values ++ [last]).modify values.length change = values ++ [change last] := by
  induction values with
  | nil => rfl
  | cons value values ih => simp [List.modify_succ_cons, ih]

theorem response_ne : response ≠ [] := by
  decide +kernel

namespace Network

variable {network next : Network} {id : EndId} {data : Bytes} {size amount : Nat}

/-! ## Moving all there is -/

theorem send_whole
    (hfault : (network.getEnd id).fault = none) (hsevered : (network.getEnd id).severed = false)
    (hopen : (network.getEnd id.peer).isOpen = true)
    (hempty : (network.getEnd id.peer).inbox = []) (hdata : data ≠ [])
    (hcapacity : data.length ≤ network.capacity) (hamount : network.capacity ≤ amount) :
    network.send id data amount =
      (network.setEnd id.peer { network.getEnd id.peer with inbox := data },
        .moved data.length) := by
  have hpos : 0 < data.length := List.length_pos_iff.mpr hdata
  have hroom : ¬network.capacity - (network.getEnd id.peer).inbox.length = 0 := by
    rw [hempty, List.length_nil]
    omega
  have hcount :
      min data.length
          (min (network.capacity - (network.getEnd id.peer).inbox.length) (max amount 1)) =
        data.length := by
    rw [hempty, List.length_nil]
    omega
  simp only [send, hfault, hsevered, hopen, hroom, hcount, Bool.false_eq_true, if_false,
    Bool.not_true, List.take_length]
  rw [hempty, List.nil_append]

theorem receive_arrived
    (hinbox : (network.getEnd id).inbox ≠ [])
    (hamount : (network.getEnd id).inbox.length ≤ amount) :
    network.receive id size amount =
      (network.setEnd id
          { network.getEnd id with inbox := (network.getEnd id).inbox.drop size },
        .moved ((network.getEnd id).inbox.take size)) := by
  have hisEmpty : (network.getEnd id).inbox.isEmpty = false := by
    simpa using hinbox
  have htake :
      (network.getEnd id).inbox.take (min size (max amount 1)) =
        (network.getEnd id).inbox.take size := by
    rw [List.take_eq_take_iff]
    omega
  have hdrop :
      (network.getEnd id).inbox.drop (min size (max amount 1)) =
        (network.getEnd id).inbox.drop size := by
    rw [List.drop_eq_drop_iff]
    omega
  simp only [receive, hisEmpty, Bool.not_false, if_true, htake, hdrop]

theorem receive_nothing
    (hinbox : (network.getEnd id).inbox = []) (hended : (network.getEnd id).ended = false)
    (hfault : (network.getEnd id).fault = none)
    (hsevered : (network.getEnd id).severed = false) :
    network.receive id size amount = (network, .blocked) := by
  simp [receive, hinbox, hended, hfault, hsevered]

/-- What closing an open end does to the ends of its link. -/
theorem getEnd_closeEnd
    (hlink : id.link < network.links.length) (hopen : (network.getEnd id).isOpen = true) :
    (network.closeEnd id).getEnd id = { network.getEnd id with isOpen := false } ∧
      (network.closeEnd id).getEnd id.peer =
        if (network.getEnd id).inbox.isEmpty then { network.getEnd id.peer with ended := true }
        else
          { network.getEnd id.peer with
            ended := true
            severed := true
            fault := some .brokenPipe } := by
  have hne := EndId.peer_ne id
  have hpeer : id.peer.link < network.links.length := hlink
  unfold closeEnd endSending
  simp only [hopen, Bool.not_true, Bool.false_eq_true, if_false]
  split
  · refine ⟨?_, ?_⟩
    · rw [getEnd_changeEnd_self _ (by simpa using hlink), getEnd_changeEnd_of_ne _ _ hne.symm]
    · rw [getEnd_changeEnd_of_ne _ _ hne, getEnd_changeEnd_self _ hpeer]
  · refine ⟨?_, ?_⟩
    · rw [getEnd_changeEnd_of_ne _ _ hne.symm, getEnd_changeEnd_self _ (by simpa using hlink),
        getEnd_changeEnd_of_ne _ _ hne.symm]
    · rw [getEnd_changeEnd_self _ (by simpa using hpeer), getEnd_changeEnd_of_ne _ _ hne,
        getEnd_changeEnd_self _ hpeer]

end Network

namespace Dialogue

variable {dialogue : Dialogue} {network next : Network} {client server : Nat}

/-! ## Links -/

/-- The socket of the server, with the links that wait in it. -/
def socket (dialogue : Dialogue) (waiting : List Nat) : ListeningSocket where
  host := dialogue.host
  port := dialogue.port
  mode := dialogue.mode
  waiting := waiting

/-- How many quarters of one exchange are over. -/
def quarters (progress exchange : Nat) : Nat :=
  min 4 (progress - 4 * exchange)

/-- The end of the client, after quarters of either side. -/
def callerEnd (size client server : Nat) : SocketEnd where
  inbox := if server < 3 then [] else if client < 3 then response else response.drop size
  ended := decide (4 ≤ server)
  isOpen := decide (client < 4)

/-- Whether the client has closed its end before it had received the whole response. -/
def isCut (size client : Nat) : Bool :=
  decide (4 ≤ client) && !(response.drop size).isEmpty

/-- The end of the server, after quarters of either side. -/
def answererEnd (body : Bytes) (size client server : Nat) : SocketEnd where
  inbox := if client < 2 ∨ 2 ≤ server then [] else body
  ended := decide (4 ≤ client)
  fault := if isCut size client then some .brokenPipe else none
  severed := isCut size client
  isOpen := decide (server < 4)

/-- The network after a number of quarters of the client and of the server.  Nobody is ahead
of what he needs from the other one. -/
structure Lines (dialogue : Dialogue) (network : Network) (client server : Nat) : Prop where
  routed : network.routed = true
  supplied : network.exhausted = false
  capacity : network.capacity = dialogue.capacity
  sockets :
    network.sockets =
      dialogue.sockets ++
        [dialogue.socket
          (List.range' (dialogue.first + (server + 3) / 4)
            ((client + 3) / 4 - (server + 3) / 4))]
  length : network.links.length = dialogue.first + (client + 3) / 4
  caller :
    ∀ exchange body, dialogue.bodies[exchange]? = some body → 4 * exchange < client →
      network.getEnd ⟨dialogue.first + exchange, .caller⟩ =
        callerEnd dialogue.size (quarters client exchange) (quarters server exchange)
  answerer :
    ∀ exchange body, dialogue.bodies[exchange]? = some body → 4 * exchange < client →
      network.getEnd ⟨dialogue.first + exchange, .answerer⟩ =
        answererEnd body dialogue.size (quarters client exchange) (quarters server exchange)
  client_le : client ≤ 4 * dialogue.bodies.length
  accepted : ∀ exchange, 4 * exchange + 1 ≤ server → 4 * exchange + 1 ≤ client
  heard : ∀ exchange, 4 * exchange + 2 ≤ server → 4 * exchange + 2 ≤ client
  answered : ∀ exchange, 4 * exchange + 3 ≤ client → 4 * exchange + 3 ≤ server

/-- Two networks that differ in one link of the row only. -/
structure Alters (dialogue : Dialogue) (exchange : Nat) (network next : Network) : Prop where
  routed : next.routed = network.routed
  supplied : next.exhausted = network.exhausted
  capacity : next.capacity = network.capacity
  sockets : next.sockets = network.sockets
  length : next.links.length = network.links.length
  others :
    ∀ id : EndId, id.link ≠ dialogue.first + exchange → next.getEnd id = network.getEnd id

theorem lt_of_getElem? {exchange : Nat} {body : Bytes}
    (hbody : dialogue.bodies[exchange]? = some body) : exchange < dialogue.bodies.length := by
  obtain ⟨hlt, -⟩ := List.getElem?_eq_some_iff.mp hbody
  exact hlt

/-- A quarter that is not the first one of its exchange alters the link of the exchange. -/
theorem Lines.alter
    {exchange client' server' : Nat} {body : Bytes}
    (hlines : dialogue.Lines network client server)
    (hbody : dialogue.bodies[exchange]? = some body) (hconnected : 4 * exchange < client)
    (hclient :
      client' = client ∨ (client' = client + 1 ∧ client / 4 = exchange ∧ client % 4 ≠ 0))
    (hserver :
      server' = server ∨ (server' = server + 1 ∧ server / 4 = exchange ∧ server % 4 ≠ 0))
    (hheard : ∀ exchange, 4 * exchange + 2 ≤ server' → 4 * exchange + 2 ≤ client')
    (hanswered : ∀ exchange, 4 * exchange + 3 ≤ client' → 4 * exchange + 3 ≤ server')
    (halters : dialogue.Alters exchange network next)
    (hcaller :
      next.getEnd ⟨dialogue.first + exchange, .caller⟩ =
        callerEnd dialogue.size (quarters client' exchange) (quarters server' exchange))
    (hanswerer :
      next.getEnd ⟨dialogue.first + exchange, .answerer⟩ =
        answererEnd body dialogue.size (quarters client' exchange) (quarters server' exchange)) :
    dialogue.Lines next client' server' := by
  have hlt := lt_of_getElem? hbody
  have hclientSame : (client' + 3) / 4 = (client + 3) / 4 := by omega
  have hserverSame : (server' + 3) / 4 = (server + 3) / 4 := by omega
  have hquarters :
      ∀ other, other ≠ exchange →
        quarters client' other = quarters client other ∧
          quarters server' other = quarters server other := by
    intro other hother
    unfold quarters
    omega
  constructor
  · exact halters.routed.trans hlines.routed
  · exact halters.supplied.trans hlines.supplied
  · exact halters.capacity.trans hlines.capacity
  · rw [halters.sockets, hlines.sockets, hclientSame, hserverSame]
  · rw [halters.length, hlines.length, hclientSame]
  · intro other otherBody hother hprogress
    by_cases hsame : other = exchange
    · subst hsame
      exact hcaller
    · obtain ⟨hclientQuarters, hserverQuarters⟩ := hquarters other hsame
      rw [halters.others _ (by simpa using hsame), hclientQuarters, hserverQuarters]
      exact hlines.caller other otherBody hother (by omega)
  · intro other otherBody hother hprogress
    by_cases hsame : other = exchange
    · subst hsame
      rw [hbody] at hother
      cases hother
      exact hanswerer
    · obtain ⟨hclientQuarters, hserverQuarters⟩ := hquarters other hsame
      rw [halters.others _ (by simpa using hsame), hclientQuarters, hserverQuarters]
      exact hlines.answerer other otherBody hother (by omega)
  · have hle := hlines.client_le
    omega
  · intro other hother
    have haccepted := hlines.accepted other
    omega
  · exact hheard
  · exact hanswered

theorem alters_setEnd {exchange : Nat} (side : Side) (value : SocketEnd) :
    dialogue.Alters exchange network
      (network.setEnd ⟨dialogue.first + exchange, side⟩ value) where
  routed := rfl
  supplied := rfl
  capacity := rfl
  sockets := rfl
  length := Network.length_links_setEnd _ _ _
  others id hne := by
    apply Network.getEnd_setEnd_of_ne
    rintro rfl
    exact hne rfl

theorem Alters.trans {exchange : Nat} {middle : Network}
    (hfirst : dialogue.Alters exchange network middle)
    (hsecond : dialogue.Alters exchange middle next) : dialogue.Alters exchange network next where
  routed := hsecond.routed.trans hfirst.routed
  supplied := hsecond.supplied.trans hfirst.supplied
  capacity := hsecond.capacity.trans hfirst.capacity
  sockets := hsecond.sockets.trans hfirst.sockets
  length := hsecond.length.trans hfirst.length
  others id hne := (hsecond.others id hne).trans (hfirst.others id hne)

theorem alters_closeEnd {exchange : Nat} (side : Side) :
    dialogue.Alters exchange network
      (network.closeEnd ⟨dialogue.first + exchange, side⟩) := by
  have hchange :
      ∀ (network : Network) (side : Side) (change : SocketEnd → SocketEnd),
        dialogue.Alters exchange network
          (network.changeEnd ⟨dialogue.first + exchange, side⟩ change) :=
    fun network side change => alters_setEnd side _
  unfold Network.closeEnd
  dsimp only
  split
  · exact ⟨rfl, rfl, rfl, rfl, rfl, fun _ _ => rfl⟩
  · split
    · exact (hchange _ side.other _).trans (hchange _ side _)
    · exact ((hchange _ side.other _).trans (hchange _ side _)).trans (hchange _ side.other _)

/-! ## What the client does -/

section Quarters

variable {exchange : Nat} {body : Bytes}

theorem Lines.link_lt (hlines : dialogue.Lines network client server)
    (hconnected : 4 * exchange < client) (side : Side) :
    (⟨dialogue.first + exchange, side⟩ : EndId).link < network.links.length := by
  rw [hlines.length]
  show dialogue.first + exchange < dialogue.first + (client + 3) / 4
  omega

/-- Both ends of an exchange, if it is known how far the sides are. -/
theorem Lines.ends
    {clientQuarters serverQuarters : Nat} (hlines : dialogue.Lines network client server)
    (hbody : dialogue.bodies[exchange]? = some body)
    (hclient : quarters client exchange = clientQuarters) (hpos : 0 < clientQuarters)
    (hserver : quarters server exchange = serverQuarters) :
    network.getEnd ⟨dialogue.first + exchange, .caller⟩ =
        callerEnd dialogue.size clientQuarters serverQuarters ∧
      network.getEnd ⟨dialogue.first + exchange, .answerer⟩ =
        answererEnd body dialogue.size clientQuarters serverQuarters := by
  have hconnected : 4 * exchange < client := by
    unfold quarters at hclient
    omega
  rw [← hclient, ← hserver]
  exact ⟨hlines.caller exchange body hbody hconnected,
    hlines.answerer exchange body hbody hconnected⟩

/-- The client goes on by a quarter after the first one. -/
theorem Lines.client_goes
    (hlines : dialogue.Lines network client server)
    (hbody : dialogue.bodies[exchange]? = some body)
    {quarter : Nat} (hclient : client = 4 * exchange + quarter) (hpos : 0 < quarter)
    (hlt : quarter < 4) (hanswered : quarter = 2 → 4 * exchange + 3 ≤ server)
    (halters : dialogue.Alters exchange network next)
    (hcaller :
      next.getEnd ⟨dialogue.first + exchange, .caller⟩ =
        callerEnd dialogue.size (quarter + 1) (quarters server exchange))
    (hanswerer :
      next.getEnd ⟨dialogue.first + exchange, .answerer⟩ =
        answererEnd body dialogue.size (quarter + 1) (quarters server exchange)) :
    dialogue.Lines next (client + 1) server := by
  have hquarters : quarters (client + 1) exchange = quarter + 1 := by
    unfold quarters
    omega
  rw [← hquarters] at hcaller hanswerer
  apply hlines.alter hbody (by omega) (Or.inr ⟨rfl, by omega, by omega⟩) (Or.inl rfl) ?_ ?_ halters
    hcaller hanswerer
  · intro other hother
    have hheard := hlines.heard other hother
    omega
  · intro other hother
    have hbefore := hlines.answered other
    by_cases hsame : other = exchange
    · subst hsame
      by_cases htwo : quarter = 2
      · exact hanswered htwo
      · omega
    · omega

theorem Lines.server_goes
    (hlines : dialogue.Lines network client server)
    (hbody : dialogue.bodies[exchange]? = some body)
    {quarter : Nat} (hserver : server = 4 * exchange + quarter) (hpos : 0 < quarter)
    (hlt : quarter < 4) (hheard : quarter = 1 → 4 * exchange + 2 ≤ client)
    (halters : dialogue.Alters exchange network next)
    (hcaller :
      next.getEnd ⟨dialogue.first + exchange, .caller⟩ =
        callerEnd dialogue.size (quarters client exchange) (quarter + 1))
    (hanswerer :
      next.getEnd ⟨dialogue.first + exchange, .answerer⟩ =
        answererEnd body dialogue.size (quarters client exchange) (quarter + 1)) :
    dialogue.Lines next client (server + 1) := by
  have hquarters : quarters (server + 1) exchange = quarter + 1 := by
    unfold quarters
    omega
  rw [← hquarters] at hcaller hanswerer
  have haccepted := hlines.accepted exchange
  apply hlines.alter hbody (by omega) (Or.inl rfl) (Or.inr ⟨rfl, by omega, by omega⟩) ?_ ?_ halters
    hcaller hanswerer
  · intro other hother
    have hbefore := hlines.heard other
    by_cases hsame : other = exchange
    · subst hsame
      by_cases hone : quarter = 1
      · exact hheard hone
      · omega
    · omega
  · intro other hother
    have hanswered := hlines.answered other hother
    omega

theorem Lines.client_sends
    (hlines : dialogue.Lines network client server) (hclient : client = 4 * exchange + 1)
    (hbody : dialogue.bodies[exchange]? = some body) :
    ∃ next,
      network.send ⟨dialogue.first + exchange, .caller⟩ body network.capacity =
          (next, .moved body.length) ∧
        dialogue.Lines next (client + 1) server := by
  have hmem : body ∈ dialogue.bodies := List.mem_of_getElem? hbody
  have hheard := hlines.heard exchange
  have hquarter : quarters client exchange = 1 := by
    unfold quarters
    omega
  generalize hserver : quarters server exchange = served
  have hserved : served < 2 := by
    unfold quarters at hserver
    omega
  obtain ⟨hcaller, hanswerer⟩ := hlines.ends hbody hquarter one_pos hserver
  have hpeer : (⟨dialogue.first + exchange, .caller⟩ : EndId).peer =
      ⟨dialogue.first + exchange, .answerer⟩ := rfl
  refine ⟨_, Network.send_whole ?_ ?_ ?_ ?_ (dialogue.body_ne body hmem) ?_ le_rfl, ?_⟩
  · rw [hcaller]
    rfl
  · rw [hcaller]
    rfl
  · rw [hpeer, hanswerer]
    simp only [answererEnd, decide_eq_true_eq]
    omega
  · rw [hpeer, hanswerer]
    simp [answererEnd]
  · rw [hlines.capacity]
    exact dialogue.body_le body hmem
  · rw [hpeer, hanswerer]
    apply hlines.client_goes hbody hclient (by omega) (by omega) (by omega) (alters_setEnd _ _)
    · rw [Network.getEnd_setEnd_of_ne _ _ (by simp), hcaller, hserver]
      simp [callerEnd]
    · rw [Network.getEnd_setEnd_self _ (hlines.link_lt (by omega) _), hserver]
      simp [answererEnd, isCut, hserved]

/-- Once there is a response the client receives what its buffer holds of it. -/
theorem Lines.client_receives
    (hlines : dialogue.Lines network client server) (hclient : client = 4 * exchange + 2)
    (hbody : dialogue.bodies[exchange]? = some body)
    (hanswered : 4 * exchange + 3 ≤ server) :
    ∃ next,
      network.receive ⟨dialogue.first + exchange, .caller⟩ dialogue.size network.capacity =
          (next, .moved (response.take dialogue.size)) ∧
        dialogue.Lines next (client + 1) server := by
  have hquarter : quarters client exchange = 2 := by
    unfold quarters
    omega
  generalize hserver : quarters server exchange = served
  have hserved : ¬served < 3 := by
    unfold quarters at hserver
    omega
  obtain ⟨hcaller, hanswerer⟩ := hlines.ends hbody hquarter two_pos hserver
  have hinbox :
      (network.getEnd ⟨dialogue.first + exchange, .caller⟩).inbox = response := by
    rw [hcaller]
    simp [callerEnd, hserved]
  have hreceive :=
    @Network.receive_arrived network ⟨dialogue.first + exchange, .caller⟩ dialogue.size
      network.capacity
  rw [hinbox] at hreceive
  refine ⟨_, hreceive response_ne ?_, ?_⟩
  · rw [hlines.capacity]
    exact dialogue.response_le
  · apply hlines.client_goes hbody hclient (by omega) (by omega) (fun _ => hanswered)
      (alters_setEnd _ _)
    · rw [Network.getEnd_setEnd_self _ (hlines.link_lt (by omega) _), hcaller, hserver]
      simp [callerEnd, hserved]
    · rw [Network.getEnd_setEnd_of_ne _ _ (by simp), hanswerer, hserver]
      simp [answererEnd, isCut]

/-- Before there is a response the client waits for it. -/
theorem Lines.client_waits
    (hlines : dialogue.Lines network client server) (hclient : client = 4 * exchange + 2)
    (hbody : dialogue.bodies[exchange]? = some body) (hunanswered : server ≤ 4 * exchange + 2) :
    network.receive ⟨dialogue.first + exchange, .caller⟩ dialogue.size network.capacity =
      (network, .blocked) := by
  have hquarter : quarters client exchange = 2 := by
    unfold quarters
    omega
  generalize hserver : quarters server exchange = served
  have hserved : served < 3 := by
    unfold quarters at hserver
    omega
  obtain ⟨hcaller, -⟩ := hlines.ends hbody hquarter two_pos hserver
  apply Network.receive_nothing
  · rw [hcaller]
    simp [callerEnd, hserved]
  · rw [hcaller]
    simp only [callerEnd, decide_eq_false_iff_not]
    omega
  · rw [hcaller]
    rfl
  · rw [hcaller]
    rfl

theorem Lines.client_closes
    (hlines : dialogue.Lines network client server) (hclient : client = 4 * exchange + 3)
    (hbody : dialogue.bodies[exchange]? = some body) :
    (network.getEnd ⟨dialogue.first + exchange, .caller⟩).isOpen = true ∧
      dialogue.Lines (network.closeEnd ⟨dialogue.first + exchange, .caller⟩) (client + 1)
        server := by
  have hanswered := hlines.answered exchange
  have hquarter : quarters client exchange = 3 := by
    unfold quarters
    omega
  generalize hserver : quarters server exchange = served
  have hserved : ¬served < 3 := by
    unfold quarters at hserver
    omega
  obtain ⟨hcaller, hanswerer⟩ := hlines.ends hbody hquarter three_pos hserver
  have hopen : (network.getEnd ⟨dialogue.first + exchange, .caller⟩).isOpen = true := by
    rw [hcaller]
    simp [callerEnd]
  obtain ⟨hown, hpeer⟩ := Network.getEnd_closeEnd (hlines.link_lt (by omega) _) hopen
  refine ⟨hopen, ?_⟩
  apply hlines.client_goes hbody hclient (by omega) (by omega) (by omega) (alters_closeEnd _)
  · rw [hown, hcaller, hserver]
    simp [callerEnd]
  · have hpeerId : (⟨dialogue.first + exchange, .caller⟩ : EndId).peer =
        ⟨dialogue.first + exchange, .answerer⟩ := rfl
    rw [hpeerId] at hpeer
    rw [hpeer, hcaller, hanswerer, hserver]
    cases hleft : (response.drop dialogue.size).isEmpty with
    | true => simp [callerEnd, answererEnd, isCut, hserved, hleft]
    | false => simp [callerEnd, answererEnd, isCut, hserved, hleft]

/-! ## What the server does -/

/-- Once the client has sent its request the server receives it as a whole. -/
theorem Lines.server_receives
    (hlines : dialogue.Lines network client server) (hserver : server = 4 * exchange + 1)
    (hbody : dialogue.bodies[exchange]? = some body) (hheard : 4 * exchange + 2 ≤ client) :
    ∃ next,
      network.receive ⟨dialogue.first + exchange, .answerer⟩ dialogue.size network.capacity =
          (next, .moved body) ∧
        dialogue.Lines next client (server + 1) := by
  have hmem : body ∈ dialogue.bodies := List.mem_of_getElem? hbody
  have hquarter : quarters server exchange = 1 := by
    unfold quarters
    omega
  generalize hclient : quarters client exchange = asked
  have hasked : ¬asked < 2 := by
    unfold quarters at hclient
    omega
  obtain ⟨hcaller, hanswerer⟩ := hlines.ends hbody hclient (by omega) hquarter
  have hinbox :
      (network.getEnd ⟨dialogue.first + exchange, .answerer⟩).inbox = body := by
    rw [hanswerer]
    simp [answererEnd, hasked]
  have hreceive :=
    @Network.receive_arrived network ⟨dialogue.first + exchange, .answerer⟩ dialogue.size
      network.capacity
  rw [hinbox, List.take_of_length_le (dialogue.body_le_size body hmem),
    List.drop_eq_nil_of_le (dialogue.body_le_size body hmem)] at hreceive
  refine ⟨_, hreceive (dialogue.body_ne body hmem) ?_, ?_⟩
  · rw [hlines.capacity]
    exact dialogue.body_le body hmem
  · apply hlines.server_goes hbody hserver (by omega) (by omega) (fun _ => hheard)
      (alters_setEnd _ _)
    · rw [Network.getEnd_setEnd_of_ne _ _ (by simp), hcaller, hclient]
      simp [callerEnd]
    · rw [Network.getEnd_setEnd_self _ (hlines.link_lt (by omega) _), hanswerer, hclient]
      simp [answererEnd]

/-- Before the client has sent its request the server waits for it. -/
theorem Lines.server_waits
    (hlines : dialogue.Lines network client server) (hserver : server = 4 * exchange + 1)
    (hbody : dialogue.bodies[exchange]? = some body) (hunheard : client ≤ 4 * exchange + 1) :
    network.receive ⟨dialogue.first + exchange, .answerer⟩ dialogue.size network.capacity =
      (network, .blocked) := by
  have haccepted := hlines.accepted exchange
  have hquarter : quarters server exchange = 1 := by
    unfold quarters
    omega
  have hclient : quarters client exchange = 1 := by
    unfold quarters
    omega
  obtain ⟨-, hanswerer⟩ := hlines.ends hbody hclient one_pos hquarter
  apply Network.receive_nothing
  · rw [hanswerer]
    simp [answererEnd]
  · rw [hanswerer]
    simp [answererEnd]
  · rw [hanswerer]
    simp [answererEnd, isCut]
  · rw [hanswerer]
    simp [answererEnd, isCut]

theorem Lines.server_sends
    (hlines : dialogue.Lines network client server) (hserver : server = 4 * exchange + 2)
    (hbody : dialogue.bodies[exchange]? = some body) :
    ∃ next,
      network.send ⟨dialogue.first + exchange, .answerer⟩ response network.capacity =
          (next, .moved response.length) ∧
        dialogue.Lines next client (server + 1) := by
  have hheard := hlines.heard exchange
  have hanswered := hlines.answered exchange
  have hquarter : quarters server exchange = 2 := by
    unfold quarters
    omega
  have hclient : quarters client exchange = 2 := by
    unfold quarters
    omega
  obtain ⟨hcaller, hanswerer⟩ := hlines.ends hbody hclient two_pos hquarter
  have hpeer : (⟨dialogue.first + exchange, .answerer⟩ : EndId).peer =
      ⟨dialogue.first + exchange, .caller⟩ := rfl
  refine ⟨_, Network.send_whole ?_ ?_ ?_ ?_ response_ne ?_ le_rfl, ?_⟩
  · rw [hanswerer]
    simp [answererEnd, isCut]
  · rw [hanswerer]
    simp [answererEnd, isCut]
  · rw [hpeer, hcaller]
    simp [callerEnd]
  · rw [hpeer, hcaller]
    simp [callerEnd]
  · rw [hlines.capacity]
    exact dialogue.response_le
  · rw [hpeer, hcaller]
    apply hlines.server_goes hbody hserver (by omega) (by omega) (by omega) (alters_setEnd _ _)
    · rw [Network.getEnd_setEnd_self _ (hlines.link_lt (by omega) _), hclient]
      simp [callerEnd]
    · rw [Network.getEnd_setEnd_of_ne _ _ (by simp), hanswerer, hclient]
      simp [answererEnd]

theorem Lines.server_closes
    (hlines : dialogue.Lines network client server) (hserver : server = 4 * exchange + 3)
    (hbody : dialogue.bodies[exchange]? = some body) :
    (network.getEnd ⟨dialogue.first + exchange, .answerer⟩).isOpen = true ∧
      dialogue.Lines (network.closeEnd ⟨dialogue.first + exchange, .answerer⟩) client
        (server + 1) := by
  have hheard := hlines.heard exchange
  have hquarter : quarters server exchange = 3 := by
    unfold quarters
    omega
  generalize hclient : quarters client exchange = asked
  have hasked : 0 < asked := by
    unfold quarters at hclient
    omega
  obtain ⟨hcaller, hanswerer⟩ := hlines.ends hbody hclient hasked hquarter
  have hopen : (network.getEnd ⟨dialogue.first + exchange, .answerer⟩).isOpen = true := by
    rw [hanswerer]
    simp [answererEnd]
  obtain ⟨hown, hpeer⟩ := Network.getEnd_closeEnd (hlines.link_lt (by omega) _) hopen
  refine ⟨hopen, ?_⟩
  apply hlines.server_goes hbody hserver (by omega) (by omega) (by omega) (alters_closeEnd _)
  · have hpeerId : (⟨dialogue.first + exchange, .answerer⟩ : EndId).peer =
        ⟨dialogue.first + exchange, .caller⟩ := rfl
    rw [hpeerId] at hpeer
    rw [hpeer, hcaller, hanswerer, hclient]
    simp [callerEnd, answererEnd]
  · rw [hown, hanswerer, hclient]
    simp [answererEnd]

/-! ## Links that are made and taken -/

theorem answers_socket (dialogue : Dialogue) (waiting : List Nat) :
    (dialogue.socket waiting).answers (Network.target dialogue.host) dialogue.port = true := by
  unfold Network.target
  split
  · next hhost => simp [ListeningSocket.answers, socket, hhost]
  · simp [ListeningSocket.answers, socket]

theorem not_answers (dialogue : Dialogue) {socket : ListeningSocket}
    (hmem : socket ∈ dialogue.sockets) :
    socket.answers (Network.target dialogue.host) dialogue.port = false := by
  have hfree := dialogue.free socket hmem
  rw [Bool.eq_false_iff] at hfree ⊢
  intro hanswers
  apply hfree
  unfold Network.target ListeningSocket.answers at hanswers
  unfold ListeningSocket.conflicts
  split at hanswers
  · next hhost => simp_all
  · simp only [Bool.and_eq_true, Bool.or_eq_true] at hanswers ⊢
    exact ⟨hanswers.1, Or.inl hanswers.2⟩

/-- The socket of the row is the only one that answers. -/
theorem findIdx?_answers (dialogue : Dialogue) (waiting : List Nat) :
    (dialogue.sockets ++ [dialogue.socket waiting]).findIdx?
        (fun socket => socket.answers (Network.target dialogue.host) dialogue.port) =
      some dialogue.sockets.length := by
  have hothers :
      dialogue.sockets.findIdx?
          (fun socket => socket.answers (Network.target dialogue.host) dialogue.port) = none := by
    rw [List.findIdx?_eq_none_iff]
    exact fun socket hmem => dialogue.not_answers hmem
  rw [List.findIdx?_append, hothers, List.findIdx?_singleton, answers_socket]
  simp

/-- The network after one more link was made to the socket of the row. -/
def joined (dialogue : Dialogue) (network : Network) (waiting : List Nat) : Network :=
  { network with
    sockets := dialogue.sockets ++ [dialogue.socket (waiting ++ [network.links.length])]
    links := network.links ++ [{}] }

theorem connect_eq
    (hrouted : network.routed = true) (hsupplied : network.exhausted = false) {waiting : List Nat}
    (hsockets : network.sockets = dialogue.sockets ++ [dialogue.socket waiting])
    (hroom : (dialogue.socket waiting).isFull = false) :
    network.connect dialogue.host dialogue.port =
      .ok (dialogue.joined network waiting, ⟨network.links.length, .caller⟩) := by
  have hanswers := dialogue.findIdx?_answers waiting
  have hnumber : network.isFull dialogue.sockets.length = false := by
    simp [Network.isFull, hsockets, hroom]
  rw [hsockets.symm] at hanswers
  simp only [Network.connect, hrouted, hsupplied, dialogue.isLocal, Bool.not_true, Bool.or_self,
    Bool.false_eq_true, if_false, hanswers, hnumber]
  simp only [joined, hrouted, hsupplied, hsockets, modify_concat]
  rfl

theorem Lines.client_connects
    (hlines : dialogue.Lines network client server) (hclient : client = 4 * exchange)
    (hbody : dialogue.bodies[exchange]? = some body) :
    ∃ next,
      network.connect dialogue.host dialogue.port =
          .ok (next, ⟨dialogue.first + exchange, .caller⟩) ∧
        dialogue.Lines next (client + 1) server := by
  have hlt := lt_of_getElem? hbody
  have haccepted := hlines.accepted exchange
  have hlength : network.links.length = dialogue.first + exchange := by
    rw [hlines.length]
    omega
  generalize hwaiting :
    List.range' (dialogue.first + (server + 3) / 4) ((client + 3) / 4 - (server + 3) / 4) =
      waiting
  have hsockets := hlines.sockets
  rw [hwaiting] at hsockets
  let next := dialogue.joined network waiting
  refine ⟨next, ?_, ?_⟩
  · -- All links of earlier exchanges have been accepted by now.
    have hnobody : waiting = [] := by
      rw [← hwaiting, List.range'_eq_nil_iff]
      have hearlier := hlines.answered (exchange - 1)
      omega
    rw [connect_eq hlines.routed hlines.supplied hsockets (by rw [hnobody]; rfl), hlength]
  · have hold :
        ∀ (side : Side) (other : Nat), 4 * other < client →
          next.getEnd ⟨dialogue.first + other, side⟩ =
            network.getEnd ⟨dialogue.first + other, side⟩ :=
      fun side other hother => Network.getEnd_of_linked rfl (hlines.link_lt hother side)
    have hnew : ∀ side, next.getEnd ⟨dialogue.first + exchange, side⟩ = {} := by
      intro side
      unfold Network.getEnd
      simp only [next, joined, ← hlength, List.getElem?_concat_length]
      cases side with
      | _ => rfl
    have hquarters :
        ∀ other, 4 * other < client → quarters (client + 1) other = quarters client other := by
      intro other hother
      unfold quarters
      omega
    have hfirst : quarters (client + 1) exchange = 1 ∧ quarters server exchange = 0 := by
      unfold quarters
      omega
    constructor
    · exact hlines.routed
    · exact hlines.supplied
    · exact hlines.capacity
    · have hserver : (server + 3) / 4 ≤ exchange := by omega
      obtain ⟨queued, hqueued⟩ := Nat.exists_eq_add_of_le hserver
      have hbefore : (client + 3) / 4 - (server + 3) / 4 = queued := by omega
      have hafter : (client + 1 + 3) / 4 - (server + 3) / 4 = queued + 1 := by omega
      rw [hbefore] at hwaiting
      rw [hafter, List.range'_1_concat, hwaiting]
      simp only [next, joined, hlength]
      rw [show dialogue.first + exchange = dialogue.first + (server + 3) / 4 + queued by omega]
    · simp only [next, joined, List.length_append, List.length_singleton]
      omega
    · intro other otherBody hother hprogress
      by_cases hsame : other = exchange
      · subst hsame
        rw [hnew, hfirst.1, hfirst.2]
        rfl
      · rw [hold _ other (by omega), hquarters other (by omega)]
        exact hlines.caller other otherBody hother (by omega)
    · intro other otherBody hother hprogress
      by_cases hsame : other = exchange
      · subst hsame
        rw [hnew, hfirst.1, hfirst.2]
        rfl
      · rw [hold _ other (by omega), hquarters other (by omega)]
        exact hlines.answerer other otherBody hother (by omega)
    · omega
    · intro other hother
      exact (hlines.accepted other hother).trans (Nat.le_succ client)
    · intro other hother
      exact (hlines.heard other hother).trans (Nat.le_succ client)
    · intro other hother
      exact hlines.answered other (by omega)

theorem Lines.server_accepts
    (hlines : dialogue.Lines network client server) (hserver : server = 4 * exchange)
    (hconnected : 4 * exchange < client) :
    ∃ next,
      network.accept dialogue.sockets.length =
          (next, .moved ⟨dialogue.first + exchange, .answerer⟩) ∧
        dialogue.Lines next client (server + 1) := by
  have hwaiting :
      List.range' (dialogue.first + (server + 3) / 4)
          ((client + 3) / 4 - (server + 3) / 4) =
        (dialogue.first + exchange) ::
          List.range' (dialogue.first + (server + 1 + 3) / 4)
            ((client + 3) / 4 - (server + 1 + 3) / 4) := by
    obtain ⟨queued, hqueued⟩ := Nat.exists_eq_add_of_lt (show exchange < (client + 3) / 4 by omega)
    rw [show (client + 3) / 4 - (server + 3) / 4 = queued + 1 by omega,
      show (client + 3) / 4 - (server + 1 + 3) / 4 = queued by omega,
      show (server + 3) / 4 = exchange by omega, show (server + 1 + 3) / 4 = exchange + 1 by omega,
      List.range'_succ, Nat.add_assoc]
  generalize hlater :
    List.range' (dialogue.first + (server + 1 + 3) / 4)
      ((client + 3) / 4 - (server + 1 + 3) / 4) = later at hwaiting
  have hsockets := hlines.sockets
  rw [hwaiting] at hsockets
  refine ⟨{ network with sockets := dialogue.sockets ++ [dialogue.socket later] }, ?_, ?_⟩
  · rw [Network.accept_moved_iff]
    refine ⟨?_, hlines.supplied⟩
    simp only [Network.takeWaiting?, hsockets, List.getElem?_concat_length, socket]
    rw [List.set_append_right _ _ le_rfl]
    simp
  · have hends :
        ∀ (side : Side) (other : Nat),
          ({ network with sockets := dialogue.sockets ++ [dialogue.socket later] } :
              Network).getEnd ⟨dialogue.first + other, side⟩ =
            network.getEnd ⟨dialogue.first + other, side⟩ := fun _ _ => rfl
    -- An end does not show whether its link was accepted.
    have hquarters :
        ∀ other,
          quarters (server + 1) other = quarters server other ∨
            (quarters (server + 1) other = 1 ∧ quarters server other = 0) := by
      intro other
      unfold quarters
      omega
    have hcaller :
        ∀ other asked,
          callerEnd dialogue.size asked (quarters (server + 1) other) =
            callerEnd dialogue.size asked (quarters server other) := by
      intro other asked
      rcases hquarters other with hsame | ⟨hone, hzero⟩
      · rw [hsame]
      · rw [hone, hzero]
        rfl
    have hanswerer :
        ∀ other asked body,
          answererEnd body dialogue.size asked (quarters (server + 1) other) =
            answererEnd body dialogue.size asked (quarters server other) := by
      intro other asked body
      rcases hquarters other with hsame | ⟨hone, hzero⟩
      · rw [hsame]
      · rw [hone, hzero]
        simp [answererEnd]
    constructor
    · exact hlines.routed
    · exact hlines.supplied
    · exact hlines.capacity
    · rw [hlater]
    · exact hlines.length
    · intro other body hother hprogress
      rw [hends, hcaller]
      exact hlines.caller other body hother hprogress
    · intro other body hother hprogress
      rw [hends, hanswerer]
      exact hlines.answerer other body hother hprogress
    · exact hlines.client_le
    · intro other hother
      have haccepted := hlines.accepted other
      omega
    · intro other hother
      exact hlines.heard other (by omega)
    · intro other hother
      exact (hlines.answered other hother).trans (Nat.le_succ server)

/-- While nobody has connected the server has nothing to accept. -/
theorem Lines.server_idles
    (hlines : dialogue.Lines network client server) (hserver : server = 4 * exchange)
    (hunconnected : client ≤ 4 * exchange) :
    network.accept dialogue.sockets.length = (network, .blocked) := by
  have hwaiting : (client + 3) / 4 - (server + 3) / 4 = 0 := by omega
  unfold Network.accept Network.takeWaiting?
  rw [hlines.sockets, hwaiting, List.getElem?_concat_length]
  rfl

end Quarters

end Dialogue

end ResourceHandles
