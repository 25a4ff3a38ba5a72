import ResourceHandles.Proofs.Session.Dialogue
import ResourceHandles.Proofs.Session.Turns

/-!
# A client and a server in a row of requests

A client makes a row of requests to a server that listens on the same handle space.  Each of
the two is at one of four stages of an exchange, with the call of that stage to be made or
waiting; so how far both are says what their scripts, their seats and the network look like.
A step of either one takes it further, and nobody has a step left only when all requests are
answered and the server waits for the next one.
-/

namespace ResourceHandles

/-- A machine on which a server listens at an address, and the row of requests to it. -/
structure Venue where
  base : Machine
  space : Nat
  address : String
  endpoint : Endpoint
  listener : Handle
  number : Nat
  dialogue : Dialogue
  parsed :
    Endpoint.parse? address (base.space space).configuration.wildcardHost = some endpoint
  resolved : IpAddress.ofHost? endpoint.host = some dialogue.host
  port_eq : endpoint.port = dialogue.port
  size_eq : (base.space space).configuration.bufferSize = dialogue.size
  wellFormed : (base.space space).table.WellFormed
  bound : base.lookup space listener = some (.listener number)
  listening : base.listeners[number]? = some { socket := dialogue.sockets.length }

namespace Venue

variable {venue : Venue} {machine : Machine} {client server : Speaker}

/-- The responses to a number of requests. -/
def replies (venue : Venue) (count : Nat) : List Response :=
  List.replicate count (.bytes (response.take venue.dialogue.size))

/-- The client at each of its stages. -/
inductive Asking (venue : Venue) : Speaker → Prop where
  | connecting {exchange : Nat} {body : Bytes} {later : List Bytes} {seat : Seat}
      (hrest : venue.dialogue.bodies.drop exchange = body :: later)
      (hout : seat.standing = .out) (hside : seat.id.side = .caller)
      (hcall : seat.CallsFor venue.space (.connect venue.endpoint)) :
      Asking venue
        ⟨4 * exchange, seat,
          .requests venue.address (.connect body) later (venue.replies exchange)⟩
  | sending {exchange : Nat} {body : Bytes} {later : List Bytes} {seat : Seat}
      (hrest : venue.dialogue.bodies.drop exchange = body :: later)
      (hseated : seat.standing = .seated)
      (hid : seat.id = ⟨venue.dialogue.first + exchange, .caller⟩)
      (hcall : seat.CallsFor venue.space (.send seat.handle seat.number body)) :
      Asking venue
        ⟨4 * exchange + 1, seat,
          .requests venue.address (.send seat.handle body) later (venue.replies exchange)⟩
  | receiving {exchange : Nat} {body : Bytes} {later : List Bytes} {seat : Seat}
      (hrest : venue.dialogue.bodies.drop exchange = body :: later)
      (hseated : seat.standing = .seated)
      (hid : seat.id = ⟨venue.dialogue.first + exchange, .caller⟩)
      (hcall : seat.CallsFor venue.space (.receive seat.handle seat.number)) :
      Asking venue
        ⟨4 * exchange + 2, seat,
          .requests venue.address (.receive seat.handle) later (venue.replies exchange)⟩
  | closing {exchange : Nat} {body : Bytes} {later : List Bytes} {seat : Seat}
      (hrest : venue.dialogue.bodies.drop exchange = body :: later)
      (hid : seat.id = ⟨venue.dialogue.first + exchange, .caller⟩)
      (hcloses : seat.Closes venue.space) :
      Asking venue
        ⟨4 * exchange + 3, seat,
          .requests venue.address
            (.close seat.handle (response.take venue.dialogue.size)) later
            (venue.replies exchange)⟩
  | done {seat : Seat} (hout : seat.standing = .out) (hcall : seat.call = none) :
      Asking venue
        ⟨4 * venue.dialogue.bodies.length, seat,
          .ended (.responded (venue.replies venue.dialogue.bodies.length))⟩

/-- The server at each of its stages, with the requests that it has received. -/
inductive Answering (venue : Venue) : Speaker → Prop where
  | accepting {exchange : Nat} {seat : Seat}
      (hle : exchange ≤ venue.dialogue.bodies.length)
      (hout : seat.standing = .out) (hside : seat.id.side = .answerer)
      (hcall : seat.CallsFor venue.space (.accept venue.number)) :
      Answering venue
        ⟨4 * exchange, seat,
          .serve venue.listener (venue.dialogue.bodies.take exchange).reverse .accept⟩
  | receiving {exchange : Nat} {body : Bytes} {seat : Seat}
      (hbody : venue.dialogue.bodies[exchange]? = some body)
      (hseated : seat.standing = .seated)
      (hid : seat.id = ⟨venue.dialogue.first + exchange, .answerer⟩)
      (hcall : seat.CallsFor venue.space (.receive seat.handle seat.number)) :
      Answering venue
        ⟨4 * exchange + 1, seat,
          .serve venue.listener (venue.dialogue.bodies.take exchange).reverse
            (.receive seat.handle)⟩
  | responding {exchange : Nat} {body : Bytes} {seat : Seat}
      (hbody : venue.dialogue.bodies[exchange]? = some body)
      (hseated : seat.standing = .seated)
      (hid : seat.id = ⟨venue.dialogue.first + exchange, .answerer⟩)
      (hcall : seat.CallsFor venue.space (.send seat.handle seat.number response)) :
      Answering venue
        ⟨4 * exchange + 2, seat,
          .serve venue.listener (venue.dialogue.bodies.take (exchange + 1)).reverse
            (.respond seat.handle)⟩
  | closing {exchange : Nat} {body : Bytes} {seat : Seat}
      (hbody : venue.dialogue.bodies[exchange]? = some body)
      (hid : seat.id = ⟨venue.dialogue.first + exchange, .answerer⟩)
      (hcloses : seat.Closes venue.space) :
      Answering venue
        ⟨4 * exchange + 3, seat,
          .serve venue.listener (venue.dialogue.bodies.take (exchange + 1)).reverse
            (.close seat.handle)⟩

/-- A client and a server in the middle of their row of requests. -/
structure Conversing (venue : Venue) (machine : Machine) (client server : Speaker) : Prop where
  lines : venue.dialogue.Lines machine.network client.progress server.progress
  company : Machine.Company venue.base machine venue.space client.seat server.seat
  asking : venue.Asking client
  answering : venue.Answering server

/-! ## The client -/

theorem body_of_rest
    {exchange : Nat} {body : Bytes} {later : List Bytes}
    (hrest : venue.dialogue.bodies.drop exchange = body :: later) :
    venue.dialogue.bodies[exchange]? = some body ∧
      venue.dialogue.bodies.drop (exchange + 1) = later := by
  constructor
  · rw [← List.head?_drop, hrest]
    rfl
  · rw [← List.tail_drop, hrest]
    rfl

theorem plan_connect
    {own other : Seat}
    (hcompany : Machine.Company venue.base machine venue.space own other) :
    machine.plan venue.space (.connect venue.address) =
      (machine, .act (.connect venue.endpoint)) := by
  simp only [Machine.plan, hcompany.configuration, venue.parsed]

/-- After the responses to some requests the client goes on with those that are left. -/
theorem asking_from
    {exchange : Nat} {seat : Seat} (hle : exchange ≤ venue.dialogue.bodies.length)
    (hout : seat.standing = .out) (hside : seat.id.side = .caller) (hcall : seat.call = none) :
    venue.Asking
      ⟨4 * exchange, seat,
        .requestsFrom venue.address (venue.replies exchange)
          (venue.dialogue.bodies.drop exchange)⟩ := by
  cases hrest : venue.dialogue.bodies.drop exchange with
  | nil =>
      have hlength : exchange = venue.dialogue.bodies.length :=
        Nat.le_antisymm hle (List.drop_eq_nil_iff.mp hrest)
      subst hlength
      simp only [Script.requestsFrom, replies, List.reverse_replicate]
      exact .done hout hcall
  | cons body later =>
      exact .connecting hrest hout hside (Seat.callsFor_none hcall _ _)

/-- The client waits for the response to a request. -/
structure AwaitsResponse (client server : Speaker) (exchange : Nat) : Prop where
  asked : client.progress = 4 * exchange + 2
  unanswered : server.progress ≤ 4 * exchange + 2

/-- A step of the client takes it further; there is none only if all its requests are
responded to, or it waits for a response. -/
theorem Conversing.client_goes (hconversing : venue.Conversing machine client server) :
    client.Goes venue.space machine (fun next later => venue.Conversing next later server) ∨
      ((client.task venue.space).step? machine = none ∧
        (client.progress = 4 * venue.dialogue.bodies.length ∨
          ∃ exchange, AwaitsResponse client server exchange)) := by
  obtain ⟨hlines, hcompany, hasking, hanswering⟩ := hconversing
  cases hasking with
  | @connecting exchange body later seat hrest hout hside hcall =>
      left
      obtain ⟨hbody, -⟩ := body_of_rest hrest
      cases hwaiting : seat.call with
      | none =>
          apply Speaker.goes_of_call hcompany hwaiting rfl (plan_connect hcompany)
            (by rintro ⟨⟩ <;> rfl) (by simp [Action.resource?])
          intro next ticket hnetwork hnext
          exact ⟨by rw [hnetwork]; exact hlines, hnext,
            .connecting hrest hout hside (seat.callsFor_new _ _ _), hanswering⟩
      | some pending =>
          obtain ⟨hspace, haction⟩ := hcall pending hwaiting
          obtain ⟨network, hconnect, hconnected⟩ := hlines.client_connects rfl hbody
          have hcaller :
              (⟨venue.dialogue.first + exchange, .caller⟩ : EndId).side = seat.id.side :=
            hside.symm
          apply Speaker.goes_enters hcompany hout hwaiting (by rw [haction]; trivial)
            (by simp [haction, Action.resource?]) hcaller
          · rw [hspace, haction]
            simp only [Machine.perform, Machine.connect, Machine.reach, venue.resolved,
              venue.port_eq, hconnect]
            rfl
          · intro next handle number hvalid hnetwork hnext
            simp only [Script.after, Script.afterRequests, Request.after, hvalid, if_true]
            exact ⟨by rw [hnetwork]; exact hconnected, hnext, .sending hrest rfl rfl
              (Seat.callsFor_none rfl _ _), hanswering⟩
  | @sending exchange body later seat hrest hseated hid hcall =>
      left
      obtain ⟨hbody, -⟩ := body_of_rest hrest
      have hmem := List.mem_of_getElem? hbody
      obtain ⟨network, hsend, hsent⟩ := hlines.client_sends rfl hbody
      rw [← hid] at hsend
      apply Speaker.goes_sends hcompany hseated hcall rfl (venue.dialogue.body_ne body hmem) hsend
      · intro next call hnetwork hnext hcalls
        exact ⟨by rw [hnetwork]; exact hlines, hnext, .sending hrest hseated hid hcalls,
          hanswering⟩
      · intro next hnetwork hnext
        exact ⟨by rw [hnetwork]; exact hsent, hnext, .receiving hrest hseated hid
          (Seat.callsFor_none rfl _ _), hanswering⟩
  | @receiving exchange body later seat hrest hseated hid hcall =>
      obtain ⟨hbody, -⟩ := body_of_rest hrest
      cases hwaiting : seat.call with
      | none =>
          left
          apply Speaker.goes_to_receive hcompany hseated hwaiting rfl
          intro next call hnetwork hnext hcalls
          exact ⟨by rw [hnetwork]; exact hlines, hnext, .receiving hrest hseated hid hcalls,
            hanswering⟩
      | some pending =>
          by_cases hanswered : 4 * exchange + 3 ≤ server.progress
          · left
            obtain ⟨network, hreceive, hreceived⟩ := hlines.client_receives rfl hbody hanswered
            rw [← hid] at hreceive
            apply Speaker.goes_receives hcompany hseated venue.size_eq hwaiting hcall hreceive
            intro next hnetwork hnext
            exact ⟨by rw [hnetwork]; exact hreceived, hnext,
              .closing hrest hid (.handle hseated rfl), hanswering⟩
          · right
            have hblocked := hlines.client_waits rfl hbody (by omega)
            rw [← hid] at hblocked
            exact ⟨hcompany.step?_receives_nothing _ hseated venue.size_eq hwaiting
              (hcall pending hwaiting).2 hblocked, Or.inr ⟨exchange, rfl, by omega⟩⟩
  | @closing exchange body later seat hrest hid hcloses =>
      left
      obtain ⟨hbody, -⟩ := body_of_rest hrest
      obtain ⟨hopen, hclosed⟩ := hlines.client_closes rfl hbody
      rw [← hid] at hopen hclosed
      apply Speaker.goes_closes hcompany hcloses rfl hopen
      · intro next after hnetwork hnext hsame hhandle hafter
        rw [← hhandle]
        exact ⟨by rw [hnetwork]; exact hlines, hnext, .closing hrest (hsame.trans hid) hafter,
          hanswering⟩
      · intro next after hnetwork hnext hsame hout hquiet
        have hle := Nat.succ_le_of_lt (Dialogue.lt_of_getElem? hbody)
        have hasking := asking_from hle hout (by rw [hsame, hid]) hquiet
        rw [(body_of_rest hrest).2] at hasking
        exact ⟨by rw [hnetwork]; exact hclosed, hnext, hasking, hanswering⟩
  | done hout hcall =>
      right
      refine ⟨?_, Or.inl rfl⟩
      simp only [Task.step?, Speaker.task, Seat.task, hcall]
      rfl

/-! ## The server -/

theorem listener_lt (venue : Venue) :
    venue.listener.raw < (venue.base.space venue.space).table.next :=
  venue.wellFormed.lt_next _
    ((HandleTable.get?_isSome_iff _ _).mp (Option.isSome_of_mem venue.bound))

theorem plan_accept
    {own other : Seat}
    (hcompany : Machine.Company venue.base machine venue.space own other) :
    machine.plan venue.space (.accept venue.listener) =
      (machine, .act (.accept venue.number)) := by
  have hbound := hcompany.lookup_old venue.listener_lt
  rw [venue.bound] at hbound
  unfold Machine.lookup at hbound
  simp only [Machine.plan, hbound]

theorem take_succ
    {exchange : Nat} {body : Bytes} (hbody : venue.dialogue.bodies[exchange]? = some body) :
    body :: (venue.dialogue.bodies.take exchange).reverse =
      (venue.dialogue.bodies.take (exchange + 1)).reverse := by
  rw [List.take_add_one, hbody, List.reverse_append]
  rfl

/-- The server waits for a client to connect, or for the request of the one that did. -/
inductive AwaitsRequest (client server : Speaker) : Prop where
  | connected (exchange : Nat) (hserver : server.progress = 4 * exchange)
      (hclient : client.progress ≤ 4 * exchange)
  | heard (exchange : Nat) (hserver : server.progress = 4 * exchange + 1)
      (hclient : client.progress ≤ 4 * exchange + 1)

/-- A step of the server takes it further; there is none only if it waits for the client. -/
theorem Conversing.server_goes (hconversing : venue.Conversing machine client server) :
    server.Goes venue.space machine (fun next later => venue.Conversing next client later) ∨
      ((server.task venue.space).step? machine = none ∧ AwaitsRequest client server) := by
  obtain ⟨hlines, hcompany, hasking, hanswering⟩ := hconversing
  have hown := hcompany.symm
  have hlistener : machine.listeners[venue.number]? =
      some { socket := venue.dialogue.sockets.length } := by
    rw [hcompany.listeners]
    exact venue.listening
  cases hanswering with
  | @accepting exchange seat hle hout hside hcall =>
      cases hwaiting : seat.call with
      | none =>
          left
          apply Speaker.goes_of_call hown hwaiting rfl (plan_accept hown)
            (by rintro ⟨⟩ <;> rfl) (by simp [Action.resource?])
          intro next ticket hnetwork hnext
          exact ⟨by rw [hnetwork]; exact hlines, hnext.symm, hasking,
            .accepting hle hout hside (seat.callsFor_new _ _ _)⟩
      | some pending =>
          obtain ⟨hspace, haction⟩ := hcall pending hwaiting
          by_cases hconnected : 4 * exchange < client.progress
          · left
            have hbody : ∃ body, venue.dialogue.bodies[exchange]? = some body := by
              have hclient := hlines.client_le
              exact ⟨_, List.getElem?_eq_getElem (by omega)⟩
            obtain ⟨body, hbody⟩ := hbody
            obtain ⟨network, htake, haccepted⟩ := hlines.server_accepts rfl hconnected
            have hanswerer :
                (⟨venue.dialogue.first + exchange, .answerer⟩ : EndId).side = seat.id.side :=
              hside.symm
            apply Speaker.goes_enters hown hout hwaiting
              (by rw [haction]; exact ⟨_, hlistener, rfl⟩) (by simp [haction, Action.resource?])
              hanswerer
            · rw [hspace, haction]
              simp only [Machine.perform, Machine.accept, hlistener, htake]
              rfl
            · intro next handle number hvalid hnetwork hnext
              simp only [Script.after, Script.afterService, hvalid, if_true]
              exact ⟨by rw [hnetwork]; exact haccepted, hnext.symm, hasking,
                .receiving hbody rfl rfl (Seat.callsFor_none rfl _ _)⟩
          · right
            have hidle := hlines.server_idles rfl (by omega)
            refine ⟨?_, .connected exchange rfl (by omega)⟩
            apply hown.step?_blocked _ hwaiting
            rw [haction]
            simp only [Machine.perform, Machine.accept, hlistener, hidle]
            rfl
  | @receiving exchange body seat hbody hseated hid hcall =>
      cases hwaiting : seat.call with
      | none =>
          left
          apply Speaker.goes_to_receive hown hseated hwaiting rfl
          intro next call hnetwork hnext hcalls
          exact ⟨by rw [hnetwork]; exact hlines, hnext.symm, hasking,
            .receiving hbody hseated hid hcalls⟩
      | some pending =>
          by_cases hheard : 4 * exchange + 2 ≤ client.progress
          · left
            obtain ⟨network, hreceive, hreceived⟩ := hlines.server_receives rfl hbody hheard
            rw [← hid] at hreceive
            apply Speaker.goes_receives hown hseated venue.size_eq hwaiting hcall hreceive
            intro next hnetwork hnext
            simp only [Script.after, Script.afterService, take_succ hbody]
            exact ⟨by rw [hnetwork]; exact hreceived, hnext.symm, hasking,
              .responding hbody hseated hid (Seat.callsFor_none rfl _ _)⟩
          · right
            have hblocked := hlines.server_waits rfl hbody (by omega)
            rw [← hid] at hblocked
            exact ⟨hown.step?_receives_nothing _ hseated venue.size_eq hwaiting
              (hcall pending hwaiting).2 hblocked, .heard exchange rfl (by omega)⟩
  | @responding exchange body seat hbody hseated hid hcall =>
      left
      obtain ⟨network, hsend, hsent⟩ := hlines.server_sends rfl hbody
      rw [← hid] at hsend
      apply Speaker.goes_sends hown hseated hcall rfl response_ne hsend
      · intro next call hnetwork hnext hcalls
        exact ⟨by rw [hnetwork]; exact hlines, hnext.symm, hasking,
          .responding hbody hseated hid hcalls⟩
      · intro next hnetwork hnext
        exact ⟨by rw [hnetwork]; exact hsent, hnext.symm, hasking,
          .closing hbody hid (.handle hseated rfl)⟩
  | @closing exchange body seat hbody hid hcloses =>
      left
      obtain ⟨hopen, hclosed⟩ := hlines.server_closes rfl hbody
      rw [← hid] at hopen hclosed
      apply Speaker.goes_closes hown hcloses rfl hopen
      · intro next after hnetwork hnext hsame hhandle hafter
        rw [← hhandle]
        exact ⟨by rw [hnetwork]; exact hlines, hnext.symm, hasking,
          .closing hbody (hsame.trans hid) hafter⟩
      · intro next after hnetwork hnext hsame hout hquiet
        have hlt := Dialogue.lt_of_getElem? hbody
        refine ⟨by rw [hnetwork]; exact hclosed, hnext.symm, hasking, ?_⟩
        exact .accepting (Nat.succ_le_of_lt hlt) hout (by rw [hsame, hid])
          (Seat.callsFor_none hquiet _ _)

/-- If neither of them has a step left, all requests are answered and the server waits for
the next one. -/
theorem Conversing.through
    (hconversing : venue.Conversing machine client server)
    (hclient : (client.task venue.space).step? machine = none)
    (hserver : (server.task venue.space).step? machine = none) :
    client.progress = 4 * venue.dialogue.bodies.length ∧
      server.progress = 4 * venue.dialogue.bodies.length := by
  have hlines := hconversing.lines
  rcases hconversing.client_goes with ⟨_, _, hstep, -⟩ | ⟨-, hasked⟩
  · rw [hclient] at hstep
    cases hstep
  rcases hconversing.server_goes with ⟨_, _, hstep, -⟩ | ⟨-, hanswered⟩
  · rw [hserver] at hstep
    cases hstep
  have hle := hlines.client_le
  -- Nobody waits for the other one while the other one waits for him.
  rcases hasked with hdone | ⟨asked, hprogress, hunanswered⟩
  · cases hanswered with
    | connected exchange hserver hclient =>
        have haccepted := hlines.accepted (exchange - 1)
        omega
    | heard exchange hserver hclient =>
        have haccepted := hlines.accepted exchange
        omega
  · cases hanswered with
    | connected exchange hserver hclient => omega
    | heard exchange hserver hclient => omega

end Venue

end ResourceHandles
