import ResourceHandles.Proofs.Machine.Bare

/-!
# A call while nothing else waits

A call that is made while nothing waits comes to an end after its start and one advance,
or it waits for something that does not come by itself.  What it comes to does not depend
on the mode, although the modes go different ways: a deferred call waits where the other
one is answered at once, and a deferred close of a connection ends its sending before the
connection is let go.
-/

namespace ResourceHandles

/-! ## The network -/

namespace Network

theorem setEnd_setEnd (network : Network) (id : EndId) (value later : SocketEnd) :
    (network.setEnd id value).setEnd id later = network.setEnd id later := by
  unfold setEnd
  simp only [List.modify_modify_eq]
  congr 2
  funext link
  cases id.side with
  | caller => rfl
  | answerer => rfl

/-- Ending the sending twice is ending it once. -/
theorem endSending_endSending
    {network : Network} {id : EndId} (hlink : id.link < network.links.length) :
    (network.endSending id).endSending id = network.endSending id := by
  unfold endSending changeEnd
  have hpeer : id.peer.link < network.links.length := hlink
  rw [getEnd_setEnd_self _ hpeer, setEnd_setEnd]

/-- An open end that is closed tells the other end that nothing more will come, so it makes
no difference if that was told before. -/
theorem closeEnd_endSending
    {network : Network} {id : EndId} (hopen : (network.getEnd id).isOpen = true) :
    (network.endSending id).closeEnd id = network.closeEnd id := by
  have hown : (network.endSending id).getEnd id = network.getEnd id :=
    getEnd_changeEnd_of_ne network _ id.peer_ne.symm
  unfold closeEnd
  rw [hown, endSending_endSending (link_lt_of_isOpen hopen)]
  simp only [hopen, Bool.not_true, Bool.false_eq_true, if_false]

/-- Once a send has moved what fits, nothing more fits. -/
theorem send_blocked
    {network next : Network} {id : EndId} {data : Bytes} {amount count : Nat}
    (hsend : network.send id data amount = (next, .moved count))
    (hamount : network.capacity ≤ amount) (hleft : count < data.length)
    (rest : Bytes) (later : Nat) : next.send id rest later = (next, .blocked) := by
  unfold send at hsend
  dsimp only at hsend
  split at hsend
  · cases hsend
  · next hfault =>
      split at hsend
      · cases hsend
      · next hsevered =>
          split at hsend
          · cases hsend
            exact absurd hleft (lt_irrefl _)
          · next hopen =>
              split at hsend
              · cases hsend
              · next hroom =>
                  obtain ⟨hnext, hcount⟩ := Prod.mk.inj hsend
                  have hpeerOpen : (network.getEnd id.peer).isOpen = true := by simpa using hopen
                  have hlink := link_lt_of_isOpen hpeerOpen
                  have hown : next.getEnd id = network.getEnd id := by
                    rw [← hnext, getEnd_setEnd_of_ne _ _ id.peer_ne.symm]
                  have hpeer := congrArg (fun later => later.getEnd id.peer) hnext
                  simp only [getEnd_setEnd_self _ hlink] at hpeer
                  have hcapacity : next.capacity = network.capacity := by
                    rw [← hnext]
                    rfl
                  have hmoved := Transfer.moved.inj hcount
                  have hfull : next.capacity - (next.getEnd id.peer).inbox.length = 0 := by
                    rw [hcapacity, ← hpeer, List.length_append, List.length_take, hmoved]
                    omega
                  unfold send
                  dsimp only
                  rw [hown, hfault]
                  dsimp only
                  rw [if_neg hsevered, ← hpeer, if_neg hopen, hpeer, if_pos hfull]

end Network

namespace Machine

variable {machine next : Machine} {space : Nat} {action rest : Action}

/-! ## Carrying out an action alone -/

/-- Carries out an action as far as it goes by itself, and lets go of its resource then.
There is no reply if that is not its end. -/
def carryOut (machine : Machine) (space : Nat) (action : Action) : Machine × Option Reply :=
  match machine.perform space machine.network.capacity action with
  | (performed, .finished reply) => (performed.letGoOf action, some reply)
  | (performed, .continues rest) => (performed.letGoOf rest, none)
  | (_, .blocked) => (machine.letGoOf action, none)

/-- What a call comes to if nothing else is done. -/
def alone (machine : Machine) (space : Nat) (call : Call) : Machine × Option Reply :=
  match machine.plan space call with
  | (planned, .answer reply) => (planned, some reply)
  | (planned, .act action) => planned.carryOut space action

theorem perform_amount_of_free
    (machine : Machine) (space amount other : Nat) (hfree : action.resource? = none) :
    machine.perform space amount action = machine.perform space other action := by
  cases action with
  | openFile path access => rfl
  | unlink path => rfl
  | listen endpoint => rfl
  | connect endpoint => rfl
  | closeFile file => cases hfree
  | readFile handle file => cases hfree
  | writeFile handle file data => cases hfree
  | accept listener => cases hfree
  | receive handle connection => cases hfree
  | send handle connection data => cases hfree
  | endSending connection => cases hfree

theorem letGoOf_of_free (machine : Machine) (hfree : action.resource? = none) :
    machine.letGoOf action = machine := by
  unfold letGoOf
  rw [hfree]

/-- An action that goes on after it has moved all it could has to wait. -/
theorem perform_rest
    {last : Machine} {amount : Nat}
    (hperform : machine.perform space amount action = (next, .continues rest))
    (hamount : machine.network.capacity ≤ amount) (hnetwork : last.network = next.network)
    (hconnections : last.connections = next.connections) (owner later : Nat) :
    last.perform owner later rest = (last, .blocked) := by
  have hperformed := performed_of_perform hperform
  generalize hprogress : Progress.continues rest = progress at hperformed
  cases hperformed with
  | @sent handle number data connection network count hconnection hraised hsend =>
      split at hprogress
      · cases hprogress
      · next hmore =>
          cases hprogress
          have hleft : count < data.length := by
            simpa [List.isEmpty_iff, List.drop_eq_nil_iff] using hmore
          have hblocked := Network.send_blocked hsend hamount hleft (data.drop count) later
          simp only [perform, send, hnetwork, hconnections, hconnection, hraised, hblocked, hmore,
            Bool.false_eq_true, if_false]
  | _ => cases hprogress

/-! ## The only action that waits -/

section Only

variable {pending : Pending} {performed : Machine} {reply : Reply} {amount : Nat}

theorem pending?_only (honly : machine.pending = [pending]) :
    machine.pending? pending.ticket = some pending := by
  simp [pending?, honly]

theorem inTurn_only (honly : machine.pending = [pending]) : machine.inTurn pending = true := by
  unfold inTurn
  rw [honly]
  cases hlane : pending.action.lane? with
  | none => rfl
  | some lane => simp [hlane]

theorem advance?_finished
    (honly : machine.pending = [pending])
    (hperform :
      machine.perform pending.space amount pending.action = (performed, .finished reply)) :
    machine.advance? pending.ticket amount = some (performed.forget pending, some reply) := by
  unfold advance?
  simp only [pending?_only honly, inTurn_only honly, Bool.not_true, Bool.false_eq_true, if_false,
    hperform]

theorem advance?_continues
    (honly : machine.pending = [pending])
    (hperform :
      machine.perform pending.space amount pending.action = (performed, .continues rest)) :
    machine.advance? pending.ticket amount =
      some (performed.replace pending.ticket rest, none) := by
  unfold advance?
  simp only [pending?_only honly, inTurn_only honly, Bool.not_true, Bool.false_eq_true, if_false,
    hperform]

theorem advance?_blocked
    (honly : machine.pending = [pending])
    (hperform :
      machine.perform pending.space amount pending.action = (performed, .blocked)) :
    machine.advance? pending.ticket amount = none := by
  unfold advance?
  simp only [pending?_only honly, inTurn_only honly, Bool.not_true, Bool.false_eq_true, if_false,
    hperform]

theorem abandon_only (honly : machine.pending = [pending]) :
    (machine.abandon pending.ticket).bare = machine.bare.letGoOf pending.action ∧
      (machine.abandon pending.ticket).pending = [] := by
  unfold abandon
  rw [pending?_only honly]
  apply bare_forget
  rw [honly]
  simp

end Only

/-- How a call goes that is made while nothing waits. -/
inductive Goes (machine : Machine) (space : Nat) (call : Call) : Machine × Option Reply → Prop where
  | answered {last : Machine} {reply : Reply}
      (hstart : machine.start space call = (last, .answered reply)) (hquiet : last.pending = []) :
      Goes machine space call (last.bare, some reply)
  | advanced {parked last : Machine} {ticket : Nat} {reply : Reply}
      (hstart : machine.start space call = (parked, .waiting ticket))
      (hadvance :
        parked.advance? ticket parked.network.capacity = some (last, some reply))
      (hquiet : last.pending = []) : Goes machine space call (last.bare, some reply)
  | blocked {parked : Machine} {ticket : Nat}
      (hstart : machine.start space call = (parked, .waiting ticket))
      (hblocked : parked.advance? ticket parked.network.capacity = none)
      (hquiet : (parked.abandon ticket).pending = []) :
      Goes machine space call ((parked.abandon ticket).bare, none)
  | stuck {parked last : Machine} {ticket : Nat}
      (hstart : machine.start space call = (parked, .waiting ticket))
      (hadvance : parked.advance? ticket parked.network.capacity = some (last, none))
      (hblocked : last.advance? ticket last.network.capacity = none)
      (hquiet : (last.abandon ticket).pending = []) :
      Goes machine space call ((last.abandon ticket).bare, none)

/-- An action that is parked while nothing else waits is carried out alone. -/
theorem goes_of_wait
    {call : Call} (hquiet : machine.pending = [])
    (hstart : next.start space call = machine.wait space action) :
    next.Goes space call (machine.bare.carryOut space action) := by
  let pending : Pending := ⟨machine.nextTicket, space, action⟩
  let parked : Machine := (machine.park space action).1
  have hparked : next.start space call = (parked, .waiting pending.ticket) := hstart
  have honly : parked.pending = [pending] := by
    show machine.pending ++ [pending] = [pending]
    rw [hquiet, List.nil_append]
  have hbare :
      machine.bare.perform space machine.bare.network.capacity action =
        ((parked.perform space parked.network.capacity action).1.bare,
          (parked.perform space parked.network.capacity action).2) :=
    parked.bare_perform space parked.network.capacity action
  unfold carryOut
  cases hperform : parked.perform space parked.network.capacity action with
  | mk performed progress =>
      have hpending : performed.pending = [pending] :=
        (performed_of_perform hperform).pending.1.trans honly
      rw [hperform] at hbare
      cases progress with
      | finished reply =>
          obtain ⟨hlast, hstill⟩ := @bare_forget performed pending (by simp [hpending])
          simp only [hbare]
          rw [show performed.bare.letGoOf action = (performed.forget pending).bare from
            hlast.symm]
          exact .advanced hparked (advance?_finished honly hperform) hstill
      | continues rest =>
          let waiting : Pending := ⟨machine.nextTicket, space, rest⟩
          let last : Machine := performed.replace pending.ticket rest
          have hleft : last.pending = [waiting] := by
            simp [last, Machine.replace, hpending, pending, waiting]
          have hstuck : last.perform space last.network.capacity rest = (last, .blocked) :=
            @perform_rest parked performed space action rest last _ hperform (Nat.le_refl _) rfl rfl
              _ _
          have hadvanced :
              parked.advance? pending.ticket parked.network.capacity = some (last, none) :=
            advance?_continues honly hperform
          have hblocked : last.advance? waiting.ticket last.network.capacity = none :=
            advance?_blocked hleft hstuck
          obtain ⟨hlast, hstill⟩ := abandon_only hleft
          simp only [hbare]
          rw [show performed.bare.letGoOf rest = (last.abandon waiting.ticket).bare from
            hlast.symm]
          exact .stuck hparked hadvanced hblocked hstill
      | blocked =>
          obtain ⟨hlast, hstill⟩ := abandon_only honly
          simp only [hbare]
          rw [show machine.bare.letGoOf action = (parked.abandon pending.ticket).bare from
            hlast.symm]
          exact .blocked hparked (advance?_blocked honly hperform) hstill

/-! ## Starting a call -/

/-- A call is planned alike whether or not something has waited before. -/
theorem plan_bare (hquiet : machine.pending = []) (space : Nat) (call : Call) :
    machine.bare.plan space call =
        ((machine.plan space call).1.bare, (machine.plan space call).2) ∧
      (machine.plan space call).1.pending = [] := by
  cases call with
  | «open» path flags => exact ⟨rfl, hquiet⟩
  | unlink path => exact ⟨rfl, hquiet⟩
  | close handle =>
      simp only [plan, space_bare]
      split
      · exact ⟨rfl, hquiet⟩
      · next table resource hremove =>
          have hreleased :
              ((machine.bare.setTable space table).release resource =
                  ((machine.setTable space table).release resource).bare) ∧
                ((machine.setTable space table).release resource).pending = [] := by
            cases resource with
            | _ => exact ⟨rfl, hquiet⟩
          split
          · exact ⟨congrArg (·, _) hreleased.1, hreleased.2⟩
          · refine ⟨?_, (letGo_pending _ _).1.trans hreleased.2⟩
            rw [hreleased.1, bare_letGo hreleased.2]
  | read handle =>
      simp only [plan, space_bare]
      split
      · exact ⟨rfl, hquiet⟩
      · exact ⟨rfl, hquiet⟩
      · exact ⟨rfl, hquiet⟩
  | write handle data =>
      simp only [plan, space_bare]
      split
      · exact ⟨rfl, hquiet⟩
      · exact ⟨rfl, hquiet⟩
      · exact ⟨rfl, hquiet⟩
  | accept handle =>
      simp only [plan, space_bare]
      split
      · exact ⟨rfl, hquiet⟩
      · exact ⟨rfl, hquiet⟩
  | listen address =>
      simp only [plan, space_bare]
      split
      · exact ⟨rfl, hquiet⟩
      · exact ⟨rfl, hquiet⟩
  | connect address =>
      simp only [plan, space_bare]
      split
      · exact ⟨rfl, hquiet⟩
      · exact ⟨rfl, hquiet⟩

/-- Only calls without a handle are carried out at once in some mode. -/
theorem free_of_not_suspends
    {call : Call} {planned : Machine} (hplan : machine.plan space call = (planned, .act action))
    (hsuspends : (machine.space space).configuration.mode.suspends call.operation = false) :
    planned = machine ∧ action.resource? = none := by
  have hplanned := machine.planned space call
  generalize machine.plan space call = result at hplan hplanned
  cases hplanned with
  | free hcall hfree =>
      cases hplan
      exact ⟨rfl, hfree⟩
  | fitting hall hfound =>
      rw [hall] at hsuspends
      cases hsuspends
  | closing hbound haction hall =>
      have hclose : (machine.space space).configuration.mode.suspends .close = false := hsuspends
      rw [hall] at hclose
      cases hclose
  | refused => cases hplan
  | closed => cases hplan

/-- A call that is made while nothing waits goes as if nothing had ever waited. -/
theorem goes (hquiet : machine.pending = []) (space : Nat) (call : Call) :
    machine.Goes space call (machine.bare.alone space call) := by
  obtain ⟨hbare, hstill⟩ := machine.plan_bare hquiet space call
  unfold alone
  rw [hbare]
  cases hplan : machine.plan space call with
  | mk planned plan =>
      rw [hplan] at hstill
      cases plan with
      | answer reply =>
          refine .answered ?_ hstill
          unfold start
          rw [hplan]
      | act action =>
          cases hsuspends : (machine.space space).configuration.mode.suspends call.operation with
          | true =>
              apply goes_of_wait hstill
              unfold start
              rw [hplan]
              simp only [hsuspends, if_true]
          | false =>
              obtain ⟨rfl, hfree⟩ := free_of_not_suspends hplan hsuspends
              obtain ⟨performed, reply, hperform⟩ := planned.perform_of_free space 0 hfree
              have hcarried :
                  planned.bare.carryOut space action = (performed.bare, some reply) := by
                unfold carryOut
                rw [bare_perform, planned.perform_amount_of_free space _ 0 hfree, hperform]
                simp only
                rw [letGoOf_of_free _ hfree]
              simp only [hcarried]
              refine .answered ?_ ((performed_of_perform hperform).pending.1.trans hquiet)
              unfold start
              rw [hplan]
              simp only [hsuspends, Bool.false_eq_true, if_false, hperform]
              rw [letGoOf_of_free _ hfree]

/-! ## Closing -/

theorem plan_close_unbound
    {handle : Handle} (hlookup : machine.lookup space handle = none) :
    machine.plan space (.close handle) = (machine, .answer .done) := by
  unfold lookup at hlookup
  simp only [plan, HandleTable.remove_eq_self hlookup]

theorem alone_close_unbound {handle : Handle} (hlookup : machine.lookup space handle = none) :
    machine.alone space (.close handle) = (machine, some .done) := by
  unfold alone
  rw [plan_close_unbound hlookup]

/-- A close takes the handle away and lets go of its resource, if that is what is left to do
after the start of a close that suspends. -/
theorem alone_close_of_closing
    {handle : Handle} {resource : Resource}
    (hlookup : machine.lookup space handle = some resource)
    (hclosing :
      (machine.space space).configuration.mode.suspends .close = true →
        ∀ action, closingAction resource = some action →
          (machine.unbind space handle resource).carryOut space action =
            ((machine.unbind space handle resource).letGo resource, some .done)) :
    machine.alone space (.close handle) =
      ((machine.unbind space handle resource).letGo resource, some .done) := by
  have hplanned := machine.planned_close space handle
  generalize hplan : machine.plan space (.close handle) = planned at hplanned
  unfold alone
  rw [hplan]
  cases hplanned with
  | refused hfound hclose => cases hlookup.symm.trans (hclose handle rfl)
  | free hcall => cases hcall
  | fitting hsuspends hfound => cases hfound
  | closed hbound =>
      cases hlookup.symm.trans hbound
      rfl
  | closing hbound haction hsuspends =>
      cases hlookup.symm.trans hbound
      exact hclosing hsuspends _ haction

/-- What a deferred close does after its start is what the other one does at once. -/
theorem carryOut_closing
    {handle : Handle} {resource : Resource} (horderly : machine.Orderly)
    (hlookup : machine.lookup space handle = some resource)
    (haction : closingAction resource = some action) :
    (machine.bare.unbind space handle resource).carryOut space action =
      ((machine.bare.unbind space handle resource).letGo resource, some .done) := by
  generalize hreleased : machine.bare.unbind space handle resource = released
  cases resource with
  | file number =>
      cases haction
      rfl
  | listener number => cases haction
  | connection number =>
      cases haction
      obtain ⟨connection, hconnection, hheld, -⟩ :=
        horderly.bindings.held space handle number hlookup
      have hopen := horderly.links.heldOpen connection (List.mem_of_getElem? hconnection) hheld
      have hconnections : released.connections[number]? = some connection.released := by
        rw [← hreleased, connections_unbind_connection, List.getElem?_modify,
          show machine.bare.connections = machine.connections from rfl, hconnection]
        simp
      have hnetwork : released.network = machine.network := by
        rw [← hreleased]
        exact (machine.bare.unbind_frame space handle _).1
      have hquiet : released.pending = [] := by
        rw [← hreleased]
        exact (machine.bare.unbind_frame space handle _).2.1
      have hletGo : ∀ later : Machine, later.connections = released.connections →
          later.pending = [] → later.letGo (.connection number) =
            { later with network := later.network.closeEnd connection.endId } := by
        intro later hsame hstill
        unfold letGo
        rw [later.isUsed_of_quiet hstill]
        simp only [Bool.false_eq_true, if_false, hsame, hconnections]
        rfl
      let ended : Machine :=
        { released with network := released.network.endSending connection.endId }
      have hended : released.endSending number = ended := by
        unfold endSending
        rw [hconnections]
        rfl
      rw [hletGo released rfl hquiet]
      show ((released.endSending number).letGo (.connection number), some Reply.done) = _
      rw [hended, hletGo ended rfl hquiet]
      dsimp only [ended]
      rw [hnetwork, Network.closeEnd_endSending hopen]

/-- A close takes the handle away and lets go of its resource, whatever the mode. -/
theorem alone_close_bound
    {handle : Handle} {resource : Resource} (horderly : machine.Orderly)
    (hlookup : machine.lookup space handle = some resource) :
    machine.bare.alone space (.close handle) =
      ((machine.bare.unbind space handle resource).letGo resource, some .done) :=
  @alone_close_of_closing machine.bare space handle resource hlookup
    fun _ _ haction => carryOut_closing horderly hlookup haction

end Machine

end ResourceHandles
