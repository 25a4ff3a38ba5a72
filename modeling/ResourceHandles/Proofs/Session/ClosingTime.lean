import ResourceHandles.Proofs.Session.Conversation

/-!
# The listener of a server is closed

Once the requests of a row are responded to, the listener of the server is closed.  The server
may still be about to close its last connection, or it waits for the next one.  It does what
is left to be done and ends; then its socket and all its connections are closed.
-/

namespace ResourceHandles

namespace Venue

variable {venue : Venue} {machine : Machine} {client server : Speaker}

/-- The machine that the server listened on, without its listener. -/
def shut (venue : Venue) : Machine :=
  venue.base.unbind venue.space venue.listener (.listener venue.number)

theorem space_shut (venue : Venue) :
    venue.shut.space venue.space =
      { venue.base.space venue.space with
        table := ((venue.base.space venue.space).table.remove venue.listener).1 } :=
  venue.base.space_unbind_self _ _ (Machine.lt_length_of_lookup venue.bound)

/-- The socket of the server after it was closed. -/
def closedSocket (venue : Venue) : ListeningSocket :=
  { venue.dialogue.socket [] with isOpen := false }

/-- What is left to be done by the server when its listener is closed. -/
inductive Departing (venue : Venue) : Speaker → Prop where
  | closing {exchange : Nat} {seat : Seat}
      (hlast : exchange + 1 = venue.dialogue.bodies.length)
      (hid : seat.id = ⟨venue.dialogue.first + exchange, .answerer⟩)
      (hcloses : seat.Closes venue.space) :
      Departing venue
        ⟨4 * exchange + 3, seat,
          .serve venue.listener venue.dialogue.bodies.reverse (.close seat.handle)⟩
  | accepting {seat : Seat} (hout : seat.standing = .out)
      (hcall : seat.CallsFor venue.space (.accept venue.number)) :
      Departing venue
        ⟨4 * venue.dialogue.bodies.length, seat,
          .serve venue.listener venue.dialogue.bodies.reverse .accept⟩
  | ended {seat : Seat} (hout : seat.standing = .out) (hcall : seat.call = none) :
      Departing venue
        ⟨4 * venue.dialogue.bodies.length + 1, seat, .ended (.served venue.dialogue.bodies)⟩

/-- The listener is closed, and its socket is or will be once the server no longer waits in
it.  All connections of the row are closed but for the one that the server has yet to
close. -/
structure Departed (venue : Venue) (machine : Machine) (client server : Speaker) : Prop where
  company : Machine.Company venue.shut machine venue.space client.seat server.seat
  sockets :
    (machine.network.sockets = venue.dialogue.sockets ++ [venue.closedSocket] ∧
        (server.seat.standing = .out → server.seat.call = none)) ∨
      (machine.network.sockets = venue.dialogue.sockets ++ [venue.dialogue.socket []] ∧
        server.seat.call ≠ none ∧ server.seat.standing = .out)
  ends :
    ∀ id : EndId, venue.dialogue.first ≤ id.link → (machine.network.getEnd id).isOpen = true →
      id = server.seat.id ∧ server.seat.standing ≠ .out
  isOpen :
    server.seat.standing ≠ .out → (machine.network.getEnd server.seat.id).isOpen = true
  asking : venue.Asking client
  done : client.progress = 4 * venue.dialogue.bodies.length
  departing : venue.Departing server

/-- The client has nothing left to do once its requests are responded to. -/
theorem Asking.ended
    (hasking : venue.Asking client)
    (hdone : client.progress = 4 * venue.dialogue.bodies.length) :
    client.seat.standing = .out ∧ client.seat.call = none ∧
      client.script = .ended (.responded (venue.replies venue.dialogue.bodies.length)) := by
  cases hasking with
  | done hout hcall => exact ⟨hout, hcall, rfl⟩
  | @connecting exchange body later seat hrest =>
      obtain ⟨hbody, -⟩ := body_of_rest hrest
      have hlt := Dialogue.lt_of_getElem? hbody
      change 4 * exchange = _ at hdone
      omega
  | sending => change 4 * _ + 1 = _ at hdone; omega
  | receiving => change 4 * _ + 2 = _ at hdone; omega
  | closing => change 4 * _ + 3 = _ at hdone; omega

/-! ## The listener is closed -/

theorem Conversing.departing
    (hconversing : venue.Conversing machine client server)
    (hdone : client.progress = 4 * venue.dialogue.bodies.length) :
    venue.Departing server := by
  have hanswered := hconversing.lines.answered (venue.dialogue.bodies.length - 1)
  have hanswering := hconversing.answering
  cases hanswering with
  | @accepting exchange seat hle hout hside hcall =>
      have hall : exchange = venue.dialogue.bodies.length := by
        change _ → _ ≤ 4 * exchange at hanswered
        omega
      subst hall
      rw [List.take_length]
      exact .accepting hout hcall
  | @receiving exchange body seat hbody =>
      have hlt := Dialogue.lt_of_getElem? hbody
      change _ → _ ≤ 4 * exchange + 1 at hanswered
      omega
  | @responding exchange body seat hbody =>
      have hlt := Dialogue.lt_of_getElem? hbody
      change _ → _ ≤ 4 * exchange + 2 at hanswered
      omega
  | @closing exchange body seat hbody hid hcloses =>
      have hlt := Dialogue.lt_of_getElem? hbody
      have hlast : exchange + 1 = venue.dialogue.bodies.length := by
        change _ → _ ≤ 4 * exchange + 3 at hanswered
        omega
      rw [hlast, List.take_length]
      exact .closing hlast hid hcloses

/-- The only end that may be open is the one that the server is about to close. -/
theorem Conversing.ends
    (hconversing : venue.Conversing machine client server)
    (hdone : client.progress = 4 * venue.dialogue.bodies.length) :
    (∀ id : EndId, venue.dialogue.first ≤ id.link → (machine.network.getEnd id).isOpen = true →
        id = server.seat.id ∧ server.seat.standing ≠ .out) ∧
      (server.seat.standing ≠ .out →
        (machine.network.getEnd server.seat.id).isOpen = true) := by
  have hlines := hconversing.lines
  have hdeparting := hconversing.departing hdone
  rw [hdone] at hlines
  have hanswerer :
      ∀ id : EndId, venue.dialogue.first ≤ id.link → (machine.network.getEnd id).isOpen = true →
        ∃ exchange, exchange < venue.dialogue.bodies.length ∧
          id = ⟨venue.dialogue.first + exchange, .answerer⟩ ∧
            server.progress < 4 * exchange + 4 := by
    intro id hfirst hopen
    obtain ⟨exchange, hexchange⟩ := Nat.exists_eq_add_of_le hfirst
    have hlink := Network.link_lt_of_isOpen hopen
    rw [hlines.length] at hlink
    have hlt : exchange < venue.dialogue.bodies.length := by omega
    have hbody := List.getElem?_eq_getElem hlt
    obtain ⟨link, side⟩ := id
    change link = _ at hexchange
    subst hexchange
    refine ⟨exchange, hlt, ?_⟩
    cases side with
    | caller =>
        rw [hlines.caller exchange _ hbody (by omega)] at hopen
        have hquarters := of_decide_eq_true hopen
        unfold Dialogue.quarters at hquarters
        omega
    | answerer =>
        rw [hlines.answerer exchange _ hbody (by omega)] at hopen
        have hquarters := of_decide_eq_true hopen
        unfold Dialogue.quarters at hquarters
        exact ⟨rfl, by omega⟩
  cases hdeparting with
  | @closing exchange seat hlast hid hcloses =>
      constructor
      · intro id hfirst hopen
        obtain ⟨other, hlt, rfl, hprogress⟩ := hanswerer id hfirst hopen
        have hsame : other = exchange := by
          change 4 * exchange + 3 < _ at hprogress
          omega
        subst hsame
        exact ⟨hid.symm, hcloses.standing_ne⟩
      · intro _
        have hlt : exchange < venue.dialogue.bodies.length := by omega
        have hbody := List.getElem?_eq_getElem hlt
        have hopen := (hlines.server_closes rfl hbody).1
        rwa [← hid] at hopen
  | accepting hout hcall =>
      refine ⟨?_, fun hstanding => absurd hout hstanding⟩
      intro id hfirst hopen
      obtain ⟨other, hlt, -, hprogress⟩ := hanswerer id hfirst hopen
      change 4 * venue.dialogue.bodies.length < _ at hprogress
      omega
  | ended hout hcall =>
      refine ⟨?_, fun hstanding => absurd hout hstanding⟩
      intro id hfirst hopen
      obtain ⟨other, hlt, -, hprogress⟩ := hanswerer id hfirst hopen
      change 4 * venue.dialogue.bodies.length + 1 < _ at hprogress
      omega

theorem listener_released (venue : Venue) (hlisteners : machine.listeners = venue.shut.listeners) :
    machine.listeners[venue.number]? =
      some (Listener.released { socket := venue.dialogue.sockets.length }) := by
  rw [hlisteners, shut, Machine.listeners_unbind_listener, List.getElem?_modify, venue.listening]
  simp

/-- The socket is closed when nobody waits in it any more. -/
theorem letGo_listener (venue : Venue)
    (hlisteners : machine.listeners = venue.shut.listeners)
    (hused : machine.isUsed (.listener venue.number) = false)
    (hsockets :
      machine.network.sockets = venue.dialogue.sockets ++ [venue.dialogue.socket []]) :
    ∃ network,
      machine.letGo (.listener venue.number) = { machine with network := network } ∧
        network.sockets = venue.dialogue.sockets ++ [venue.closedSocket] ∧
          ∀ id, network.getEnd id = machine.network.getEnd id := by
  have hlistener := venue.listener_released hlisteners
  refine ⟨machine.network.closeSocket venue.dialogue.sockets.length, ?_, ?_, ?_⟩
  · unfold Machine.letGo
    simp only [hused, hlistener, Listener.released, Bool.false_eq_true, if_false]
  all_goals
    unfold Network.closeSocket
    rw [hsockets, List.getElem?_concat_length]
  · show (venue.dialogue.sockets ++ [_]).set _ _ = _
    rw [List.set_append_right _ _ le_rfl, Nat.sub_self]
    rfl
  · intro id
    rfl

theorem isUsed_listener
    {own other : Seat} (hcompany : Machine.Company venue.shut machine venue.space own other)
    (hcalls :
      ∀ pending, own.call = some pending ∨ other.call = some pending →
        pending.action ≠ .accept venue.number) :
    machine.isUsed (.listener venue.number) = false := by
  rw [Bool.eq_false_iff]
  intro hused
  obtain ⟨pending, hmem, hresource⟩ := (machine.isUsed_iff _).mp hused
  have hcall := hcalls pending ((hcompany.pending pending).mp hmem)
  cases haction : pending.action <;> rw [haction] at hresource hcall <;> cases hresource
  exact hcall rfl

theorem start_close_listener
    (hcompany : Machine.Company venue.base machine venue.space client.seat server.seat) :
    machine.start venue.space (.close venue.listener) =
      ((machine.unbind venue.space venue.listener (.listener venue.number)).letGo
        (.listener venue.number), .answered .done) := by
  have hbound := hcompany.lookup_old venue.listener_lt
  rw [venue.bound] at hbound
  have hplanned := machine.planned_close venue.space venue.listener
  generalize hplan : machine.plan venue.space (.close venue.listener) = planned at hplanned
  cases hplanned with
  | refused hfound hclose => exact absurd ((hclose _ rfl).symm.trans hbound) (by simp)
  | free hfree => cases hfree
  | fitting hsuspends hfound => cases hfound
  | @closed _ resource hslot =>
      cases Option.some.inj (hslot.symm.trans hbound)
      unfold Machine.start
      rw [hplan]
  | @closing _ resource action hslot haction hsuspends =>
      cases Option.some.inj (hslot.symm.trans hbound)
      cases haction

/-- Nobody waits in the socket once all requests are responded to. -/
theorem Conversing.sockets_eq
    (hconversing : venue.Conversing machine client server)
    (hdone : client.progress = 4 * venue.dialogue.bodies.length) :
    machine.network.sockets = venue.dialogue.sockets ++ [venue.dialogue.socket []] := by
  have hanswered := hconversing.lines.answered (venue.dialogue.bodies.length - 1)
  have hnone :
      (4 * venue.dialogue.bodies.length + 3) / 4 - (server.progress + 3) / 4 = 0 := by
    omega
  rw [hconversing.lines.sockets, hdone, hnone]
  rfl

/-- Once the handle of the listener is taken, only the socket of the server has changed. -/
theorem Conversing.departs
    {network : Network} (hconversing : venue.Conversing machine client server)
    (hdone : client.progress = 4 * venue.dialogue.bodies.length)
    (hletGo :
      (machine.unbind venue.space venue.listener (.listener venue.number)).letGo
          (.listener venue.number) =
        { machine.unbind venue.space venue.listener (.listener venue.number) with
          network := network })
    (hends : ∀ id, network.getEnd id = machine.network.getEnd id)
    (hsockets :
      (network.sockets = venue.dialogue.sockets ++ [venue.closedSocket] ∧
          (server.seat.standing = .out → server.seat.call = none)) ∨
        (network.sockets = venue.dialogue.sockets ++ [venue.dialogue.socket []] ∧
          server.seat.call ≠ none ∧ server.seat.standing = .out)) :
    ∃ next,
      machine.start venue.space (.close venue.listener) = (next, .answered .done) ∧
        venue.Departed next client server := by
  obtain ⟨honly, hopen⟩ := hconversing.ends hdone
  have hstart := start_close_listener hconversing.company
  rw [hletGo] at hstart
  refine ⟨_, hstart, (hconversing.company.unbind_listener venue.bound).withNetwork network,
    hsockets, ?_, ?_, hconversing.asking, hdone, hconversing.departing hdone⟩
  · intro id
    rw [hends]
    exact honly id
  · rw [hends]
    exact hopen

/-- If the server does not wait for an accept the socket is closed with the handle. -/
theorem Conversing.closes_socket
    (hconversing : venue.Conversing machine client server)
    (hdone : client.progress = 4 * venue.dialogue.bodies.length)
    (hquiet : server.seat.standing = .out → server.seat.call = none)
    (hcalls :
      ∀ pending, server.seat.call = some pending → pending.action ≠ .accept venue.number) :
    ∃ next,
      machine.start venue.space (.close venue.listener) = (next, .answered .done) ∧
        venue.Departed next client server := by
  obtain ⟨-, hclientCall, -⟩ := hconversing.asking.ended hdone
  have hcompany := hconversing.company.unbind_listener venue.bound
  have hnetwork := (machine.unbind_frame venue.space venue.listener (.listener venue.number)).1
  have hused := isUsed_listener hcompany (by
    rintro pending (hclient | hserver)
    · rw [hclientCall] at hclient
      cases hclient
    · exact hcalls pending hserver)
  obtain ⟨network, hletGo, hclosed, hends⟩ :=
    venue.letGo_listener hcompany.listeners hused (by
      rw [hnetwork]
      exact hconversing.sockets_eq hdone)
  rw [hnetwork] at hends
  exact hconversing.departs hdone hletGo hends (Or.inl ⟨hclosed, hquiet⟩)

/-- The handle of the listener is taken.  If the server waits in the socket, that is closed
later on. -/
theorem Conversing.closes_listener
    (hconversing : venue.Conversing machine client server)
    (hdone : client.progress = 4 * venue.dialogue.bodies.length) :
    ∃ next,
      machine.start venue.space (.close venue.listener) = (next, .answered .done) ∧
        venue.Departed next client server := by
  cases hconversing.departing hdone with
  | @closing exchange seat hlast hid hcloses =>
      apply hconversing.closes_socket hdone (fun hout => absurd hout hcloses.standing_ne)
      intro pending hcall haction
      cases hcloses with
      | handle hseated hquiet =>
          rw [show seat.call = some pending from hcall] at hquiet
          cases hquiet
      | sending hparting hsending =>
          rw [show seat.call = some pending from hcall] at hsending
          cases hsending
          cases haction
  | @accepting seat hout hcall =>
      cases hwaiting : seat.call with
      | none =>
          apply hconversing.closes_socket hdone (fun _ => hwaiting)
          intro pending hpending
          rw [show seat.call = some pending from hpending] at hwaiting
          cases hwaiting
      | some pending =>
          have hcompany := hconversing.company.unbind_listener venue.bound
          have hnetwork :=
            (machine.unbind_frame venue.space venue.listener (.listener venue.number)).1
          have hletGo :
              (machine.unbind venue.space venue.listener (.listener venue.number)).letGo
                  (.listener venue.number) =
                { machine.unbind venue.space venue.listener (.listener venue.number) with
                  network := machine.network } := by
            unfold Machine.letGo
            rw [(Machine.isUsed_iff _ _).mpr ⟨pending, (hcompany.pending pending).mpr
              (Or.inr hwaiting), by rw [(hcall pending hwaiting).2]; rfl⟩, ← hnetwork]
            rfl
          apply hconversing.departs hdone hletGo fun id => rfl
          exact Or.inr ⟨hconversing.sockets_eq hdone, by simp [hwaiting], hout⟩
  | ended hout hcall =>
      have haccepted := hconversing.lines.accepted venue.dialogue.bodies.length le_rfl
      omega

/-! ## What the server has left to do -/

/-- The handle of the listener stands for nothing any more. -/
theorem lookup_listener
    {own other : Seat} (hcompany : Machine.Company venue.shut machine venue.space own other) :
    machine.lookup venue.space venue.listener = none := by
  have hold : venue.listener.raw < (venue.shut.space venue.space).table.next := by
    rw [venue.space_shut, HandleTable.remove_next]
    exact venue.listener_lt
  rw [hcompany.lookup_old hold]
  unfold Machine.lookup
  rw [venue.space_shut]
  exact venue.wellFormed.get?_remove_self _

/-- A server that comes to accept again is told that there is no listener, and ends. -/
theorem after_invalid (venue : Venue) :
    (Script.serve venue.listener venue.dialogue.bodies.reverse .accept).after (.handle .invalid) =
      .ended (.served venue.dialogue.bodies) := by
  simp [Script.after, Script.afterService, Handle.isValid, Handle.invalid]

/-- A server that comes to accept after the listener was closed does not wait. -/
theorem start_accept
    {own other : Seat} (hcompany : Machine.Company venue.shut machine venue.space own other) :
    machine.start venue.space (.accept venue.listener) =
      (machine, .answered (.handle .invalid)) := by
  have hunbound := lookup_listener hcompany
  unfold Machine.lookup at hunbound
  simp only [Machine.start, Machine.plan, hunbound]

/-- A server that waited in its socket is woken, and the socket is closed behind it. -/
theorem step?_woken
    {own other : Seat} {pending : Pending}
    (hcompany : Machine.Company venue.shut machine venue.space own other)
    (hquiet : other.call = none) (hcall : own.call = some pending)
    (haction : pending.action = .accept venue.number)
    (hsockets :
      machine.network.sockets = venue.dialogue.sockets ++ [venue.dialogue.socket []]) :
    ∃ next,
      (own.task venue.space
          (.serve venue.listener venue.dialogue.bodies.reverse .accept)).step? machine =
          some (next,
            Seat.task { own with call := none } venue.space
              (.ended (.served venue.dialogue.bodies))) ∧
        Machine.Company venue.shut next venue.space { own with call := none } other ∧
          next.network.sockets = venue.dialogue.sockets ++ [venue.closedSocket] ∧
            ∀ id, next.network.getEnd id = machine.network.getEnd id := by
  have hperform :
      machine.perform pending.space machine.network.capacity pending.action =
        (machine, .finished (.handle .invalid)) := by
    have hlistener := venue.listener_released hcompany.listeners
    rw [haction]
    simp only [Machine.perform, Machine.accept, hlistener]
    rfl
  have hstep := hcompany.step?_finished
    (.serve venue.listener venue.dialogue.bodies.reverse .accept) hcall hperform
  have hanswered := hcompany.answered hcall
  generalize hshorter :
    ({ machine with
        pending :=
          machine.pending.filter fun other => other.ticket != pending.ticket } : Machine) =
      shorter at hanswered
  have hforget : machine.forget pending = shorter.letGo (.listener venue.number) := by
    unfold Machine.forget Machine.letGoOf
    rw [haction, ← hshorter]
    rfl
  have hnetwork : shorter.network = machine.network := by
    rw [← hshorter]
  have hused : shorter.isUsed (.listener venue.number) = false := by
    apply isUsed_listener hanswered
    rintro waiting (hself | hother)
    · cases hself
    · rw [hquiet] at hother
      cases hother
  obtain ⟨network, hletGo, hclosed, hsame⟩ :=
    venue.letGo_listener hanswered.listeners hused (by rw [hnetwork]; exact hsockets)
  rw [hforget, hletGo, venue.after_invalid] at hstep
  rw [hnetwork] at hsame
  exact ⟨_, hstep, hanswered.withNetwork network, hclosed, hsame⟩

/-- A server that closes its last connection comes to accept again. -/
theorem Departed.goes_closing
    {exchange : Nat} {seat : Seat}
    (hdeparted :
      venue.Departed machine client
        ⟨4 * exchange + 3, seat,
          .serve venue.listener venue.dialogue.bodies.reverse (.close seat.handle)⟩)
    (hlast : exchange + 1 = venue.dialogue.bodies.length)
    (hid : seat.id = ⟨venue.dialogue.first + exchange, .answerer⟩)
    (hcloses : seat.Closes venue.space) :
    Speaker.Goes
      ⟨4 * exchange + 3, seat,
        .serve venue.listener venue.dialogue.bodies.reverse (.close seat.handle)⟩
      venue.space machine fun next later => venue.Departed next client later := by
  obtain ⟨hcompany, hsockets, hends, hopen, hasking, hdone, -⟩ := hdeparted
  have hclosedSocket :
      machine.network.sockets = venue.dialogue.sockets ++ [venue.closedSocket] := by
    rcases hsockets with ⟨hclosed, -⟩ | ⟨-, -, hout⟩
    · exact hclosed
    · exact absurd hout hcloses.standing_ne
  apply Speaker.goes_closes hcompany.symm hcloses rfl (hopen hcloses.standing_ne)
  · intro next later hnetwork hnext hsame hhandle hlater
    rw [← hhandle]
    refine ⟨hnext.symm, Or.inl ⟨?_, fun hout => absurd hout hlater.standing_ne⟩, ?_, ?_,
      hasking, hdone, .closing hlast (hsame.trans hid) hlater⟩
    · rw [hnetwork, hclosedSocket]
    · intro id hfirst hidOpen
      rw [hnetwork] at hidOpen
      exact ⟨(hends id hfirst hidOpen).1.trans hsame.symm, hlater.standing_ne⟩
    · intro _
      rw [hnetwork]
      exact (congrArg (fun id => (machine.network.getEnd id).isOpen) hsame).trans
        (hopen hcloses.standing_ne)
  · intro next later hnetwork hnext hsame hout hquiet
    have hprogress : 4 * exchange + 3 + 1 = 4 * venue.dialogue.bodies.length := by omega
    rw [hprogress]
    refine ⟨hnext.symm, Or.inl ⟨?_, fun _ => hquiet⟩, ?_,
      fun hstanding => absurd hout hstanding, hasking, hdone,
      .accepting hout (Seat.callsFor_none hquiet _ _)⟩
    · have halters :
          venue.dialogue.Alters exchange machine.network
            (machine.network.closeEnd ⟨venue.dialogue.first + exchange, .answerer⟩) :=
        Dialogue.alters_closeEnd .answerer
      rw [hnetwork, hid, halters.sockets, hclosedSocket]
    · intro id hfirst hidOpen
      rw [hnetwork] at hidOpen
      by_cases hclosed : id = seat.id
      · subst hclosed
        rw [Network.isOpen_closeEnd_self] at hidOpen
        cases hidOpen
      · rw [Network.isOpen_closeEnd_of_ne _ hclosed] at hidOpen
        exact absurd (hends id hfirst hidOpen).1 hclosed

/-- A server that accepts, or waits to, ends. -/
theorem Departed.goes_accepting
    {seat : Seat}
    (hdeparted :
      venue.Departed machine client
        ⟨4 * venue.dialogue.bodies.length, seat,
          .serve venue.listener venue.dialogue.bodies.reverse .accept⟩)
    (hout : seat.standing = .out) (hcall : seat.CallsFor venue.space (.accept venue.number)) :
    Speaker.Goes
      ⟨4 * venue.dialogue.bodies.length, seat,
        .serve venue.listener venue.dialogue.bodies.reverse .accept⟩
      venue.space machine fun next later => venue.Departed next client later := by
  obtain ⟨hcompany, hsockets, hends, hopen, hasking, hdone, -⟩ := hdeparted
  obtain ⟨-, hclientCall, -⟩ := hasking.ended hdone
  cases hwaiting : seat.call with
  | none =>
      have hclosedSocket :
          machine.network.sockets = venue.dialogue.sockets ++ [venue.closedSocket] := by
        rcases hsockets with ⟨hclosed, -⟩ | ⟨-, hcalled, -⟩
        · exact hclosed
        · exact absurd hwaiting hcalled
      have hstep :
          (seat.task venue.space
              (.serve venue.listener venue.dialogue.bodies.reverse .accept)).step? machine =
            some (machine, seat.task venue.space (.ended (.served venue.dialogue.bodies))) := by
        unfold Seat.task
        rw [hwaiting, ← venue.after_invalid]
        exact Task.step?_answered rfl (start_accept hcompany)
      exact ⟨machine, ⟨_, seat, _⟩, hstep,
        ⟨hcompany, Or.inl ⟨hclosedSocket, fun _ => hwaiting⟩, hends, hopen, hasking, hdone,
          .ended hout hwaiting⟩,
        Speaker.effort_lt _ _ _ _ hwaiting⟩
  | some pending =>
      have hopened :
          machine.network.sockets = venue.dialogue.sockets ++ [venue.dialogue.socket []] := by
        rcases hsockets with ⟨-, hquiet⟩ | ⟨hopened, -⟩
        · rw [show seat.call = none from hquiet hout] at hwaiting
          cases hwaiting
        · exact hopened
      obtain ⟨next, hstep, hnext, hclosed, hsame⟩ :=
        step?_woken hcompany.symm hclientCall hwaiting (hcall pending hwaiting).2 hopened
      refine ⟨next, ⟨_, { seat with call := none }, _⟩, hstep,
        ⟨hnext.symm, Or.inl ⟨hclosed, fun _ => rfl⟩, ?_,
          fun hstanding => absurd hout hstanding, hasking, hdone, .ended hout rfl⟩,
        Speaker.effort_lt _ _ _ _ rfl⟩
      intro id hfirst hidOpen
      rw [hsame] at hidOpen
      exact hends id hfirst hidOpen

/-- The server goes on until it has ended. -/
theorem Departed.server_goes (hdeparted : venue.Departed machine client server) :
    server.Goes venue.space machine (fun next later => venue.Departed next client later) ∨
      ((server.task venue.space).step? machine = none ∧
        server.progress = 4 * venue.dialogue.bodies.length + 1) := by
  have hdeparting := hdeparted.departing
  cases hdeparting with
  | closing hlast hid hcloses => exact Or.inl (hdeparted.goes_closing hlast hid hcloses)
  | accepting hout hcall => exact Or.inl (hdeparted.goes_accepting hout hcall)
  | ended hout hcall =>
      right
      refine ⟨?_, rfl⟩
      simp only [Task.step?, Speaker.task, Seat.task, hcall]
      rfl

end Venue

end ResourceHandles
