import ResourceHandles.Proofs.Machine.Alone
import ResourceHandles.Proofs.Session.Company
import ResourceHandles.Proofs.Session.Idle

/-!
# Turns of a party

A party is a task that makes one call after the other.  A step of it leaves an action to be
done, carries out the action that was left, or comes to nothing as long as that has to wait.
Each of these steps is told by what it does to the network and to the seat of the party; the
other party keeps its seat.
-/

namespace ResourceHandles

/-- The task of a party with the given script. -/
def Seat.task (seat : Seat) (space : Nat) (script : Script) : Task where
  space := space
  script := script
  waiting := seat.call.map Pending.ticket

namespace Machine

variable {base machine next performed : Machine} {space : Nat} {own other : Seat}
variable {pending : Pending} {action : Action} {network : Network} {script : Script} {call : Call}
variable {reply : Reply} {id : EndId}

/-! ## Resources that are held -/

/-- A handle is bound to the resource of an action, if it has one. -/
def HoldsResource (machine : Machine) (action : Action) : Prop :=
  match action.resource? with
  | some (.connection number) =>
    ∃ connection, machine.connections[number]? = some connection ∧ connection.held = true
  | some (.listener number) =>
    ∃ listener, machine.listeners[number]? = some listener ∧ listener.held = true
  | _ => True

theorem letGo_held {number : Nat} {connection : Connection}
    (hconnection : machine.connections[number]? = some connection)
    (hheld : connection.held = true) : machine.letGo (.connection number) = machine := by
  unfold letGo
  simp only [hconnection, hheld, if_true, ite_self]

theorem letGo_released {number : Nat} {connection : Connection}
    (hconnection : machine.connections[number]? = some connection)
    (hheld : connection.held = false) (hused : machine.isUsed (.connection number) = false) :
    machine.letGo (.connection number) =
      { machine with network := machine.network.closeEnd connection.endId } := by
  unfold letGo
  simp only [hused, hconnection, hheld, Bool.false_eq_true, if_false]

/-- An action whose resource is held is forgotten, and nothing else happens. -/
theorem forget_held (hholds : machine.HoldsResource pending.action) :
    machine.forget pending =
      { machine with
        pending := machine.pending.filter fun waiting => waiting.ticket != pending.ticket } := by
  unfold forget letGoOf
  dsimp only
  unfold HoldsResource at hholds
  cases hresource : pending.action.resource? with
  | none => rfl
  | some resource =>
      rw [hresource] at hholds
      cases resource with
      | file number =>
          dsimp only
          unfold letGo
          exact ite_self _
      | listener number =>
          obtain ⟨listener, hlistener, hheld⟩ := hholds
          dsimp only
          unfold letGo
          simp only [hlistener, hheld, if_true, ite_self]
      | connection number =>
          obtain ⟨connection, hconnection, hheld⟩ := hholds
          exact letGo_held hconnection hheld

namespace Company

/-! ## Actions that wait -/

/-- A call that suspends leaves its action to be done. -/
theorem step?_parks
    (hcompany : Company base machine space own other) (hcall : own.call = none)
    (hturn : script.turn = .call call)
    (hplan : machine.plan space call = (machine, .act action))
    (hsuspends : ∀ mode : CallMode, mode.suspends call.operation = true)
    (huses :
      ∀ number, action.resource? = some (.connection number) →
        number = own.number ∧ own.standing ≠ .out) :
    ∃ next,
      (own.task space script).step? machine =
          some (next,
            Seat.task { own with call := some ⟨machine.nextTicket, space, action⟩ } space script) ∧
        next.network = machine.network ∧
          Company base next space { own with call := some ⟨machine.nextTicket, space, action⟩ }
            other := by
  have hstart : machine.start space call =
      ((machine.park space action).1, .waiting machine.nextTicket) := by
    unfold start
    rw [hplan]
    simp only [hsuspends, if_true]
    rfl
  refine ⟨(machine.park space action).1, ?_, rfl, hcompany.park hcall huses⟩
  unfold Seat.task
  rw [hcall]
  exact Task.step?_waiting hturn hstart

theorem step?_finished
    (hcompany : Company base machine space own other) (script : Script)
    (hcall : own.call = some pending)
    (hperform :
      machine.perform pending.space machine.network.capacity pending.action =
        (performed, .finished reply)) :
    (own.task space script).step? machine =
      some (performed.forget pending,
        Seat.task { own with call := none } space (script.after reply)) := by
  have hadvance :
      machine.advance? pending.ticket machine.network.capacity =
        some (performed.forget pending, some reply) := by
    unfold advance?
    rw [hcompany.pending?_eq hcall]
    simp only [hcompany.inTurn_eq hcall, Bool.not_true, Bool.false_eq_true, if_false, hperform]
  unfold Seat.task
  rw [hcall]
  exact Task.step?_resumed hadvance

theorem step?_blocked
    (hcompany : Company base machine space own other) (script : Script)
    (hcall : own.call = some pending)
    (hperform :
      machine.perform pending.space machine.network.capacity pending.action =
        (performed, .blocked)) :
    (own.task space script).step? machine = none := by
  have hadvance : machine.advance? pending.ticket machine.network.capacity = none := by
    unfold advance?
    rw [hcompany.pending?_eq hcall]
    simp only [hcompany.inTurn_eq hcall, Bool.not_true, Bool.false_eq_true, if_false, hperform]
  unfold Seat.task
  rw [hcall]
  exact Task.step?_blocked hadvance

/-! ## Actions on the connection of a party -/

theorem plan_read
    (hcompany : Company base machine space own other) (hseated : own.standing = .seated) :
    machine.plan space (.read own.handle) = (machine, .act (.receive own.handle own.number)) := by
  have hbound := hcompany.ownSeat.bound hseated
  unfold lookup at hbound
  simp only [plan, hbound]

theorem plan_write
    (hcompany : Company base machine space own other) (hseated : own.standing = .seated)
    (data : Bytes) :
    machine.plan space (.write own.handle data) =
      (machine, .act (.send own.handle own.number data)) := by
  have hbound := hcompany.ownSeat.bound hseated
  unfold lookup at hbound
  simp only [plan, hbound]

/-- A party receives what the network has moved for it. -/
theorem step?_receives
    {size : Nat} {data : Bytes} (hcompany : Company base machine space own other) (script : Script)
    (hseated : own.standing = .seated)
    (hsize : (base.space space).configuration.bufferSize = size)
    (hcall : own.call = some pending)
    (haction : pending.action = .receive own.handle own.number)
    (hreceive :
      machine.network.receive own.id size machine.network.capacity = (network, .moved data)) :
    ∃ next,
      (own.task space script).step? machine =
          some (next, Seat.task { own with call := none } space (script.after (.bytes data))) ∧
        next.network = network ∧ Company base next space { own with call := none } other := by
  have hconnection := hcompany.ownSeat.seated hseated
  have hperform :
      machine.perform pending.space machine.network.capacity pending.action =
        ({ machine with network := network }, .finished (.bytes data)) := by
    rw [haction]
    simp only [perform, receive, hconnection, hsize, hreceive]
    rfl
  have hstep := hcompany.step?_finished script hcall hperform
  rw [forget_held (by rw [haction]; exact ⟨_, hconnection, rfl⟩)] at hstep
  exact ⟨_, hstep, rfl, (hcompany.withNetwork network).answered hcall⟩

theorem step?_receives_nothing
    {size : Nat} (hcompany : Company base machine space own other) (script : Script)
    (hseated : own.standing = .seated)
    (hsize : (base.space space).configuration.bufferSize = size)
    (hcall : own.call = some pending)
    (haction : pending.action = .receive own.handle own.number)
    (hreceive :
      machine.network.receive own.id size machine.network.capacity = (network, .blocked)) :
    (own.task space script).step? machine = none := by
  have hconnection := hcompany.ownSeat.seated hseated
  have hperform :
      machine.perform pending.space machine.network.capacity pending.action =
        (machine, .blocked) := by
    rw [haction]
    simp only [perform, receive, hconnection, hsize, hreceive]
    rfl
  exact hcompany.step?_blocked script hcall hperform

/-- A party sends all there is to send. -/
theorem step?_sends
    {data : Bytes} (hcompany : Company base machine space own other) (script : Script)
    (hseated : own.standing = .seated) (hcall : own.call = some pending)
    (haction : pending.action = .send own.handle own.number data) (hdata : data ≠ [])
    (hsend :
      machine.network.send own.id data machine.network.capacity =
        (network, .moved data.length)) :
    ∃ next,
      (own.task space script).step? machine =
          some (next, Seat.task { own with call := none } space (script.after .done)) ∧
        next.network = network ∧ Company base next space { own with call := none } other := by
  have hconnection := hcompany.ownSeat.seated hseated
  have hisEmpty : data.isEmpty = false := by
    simpa using hdata
  have hperform :
      machine.perform pending.space machine.network.capacity pending.action =
        ({ machine with network := network }, .finished .done) := by
    rw [haction]
    simp only [perform, send, hconnection, hisEmpty, hsend, List.drop_length, List.isEmpty_nil]
    rfl
  have hstep := hcompany.step?_finished script hcall hperform
  rw [forget_held (by rw [haction]; exact ⟨_, hconnection, rfl⟩)] at hstep
  exact ⟨_, hstep, rfl, (hcompany.withNetwork network).answered hcall⟩

/-! ## Entering -/

/-- A party is on a new connection once its action has made one. -/
theorem step?_enters
    (hcompany : Company base machine space own other) (script : Script) (hout : own.standing = .out)
    (hcall : own.call = some pending) (hholds : machine.HoldsResource pending.action)
    (hfree : ∀ number, pending.action.resource? ≠ some (.connection number))
    (hside : id.side = own.id.side)
    (hperform :
      machine.perform pending.space machine.network.capacity pending.action =
        (({ machine with network := network }.addConnection space id).1,
          .finished (.handle ⟨(machine.space space).table.next⟩))) :
    ∃ next handle number,
      (own.task space script).step? machine =
          some (next,
            Seat.task { own with call := none } space (script.after (.handle handle))) ∧
        handle.isValid = true ∧ next.network = network ∧
          Company base next space ⟨.seated, handle, number, id, none⟩ other := by
  have hstep := hcompany.step?_finished script hcall hperform
  have hgrown := (hcompany.withNetwork network).enter hout hside
  rw [forget_held (by
    unfold HoldsResource at hholds ⊢
    split
    · next number hresource => exact absurd hresource (hfree number)
    · next number hresource =>
        rw [hresource] at hholds
        exact hholds
    · trivial)] at hstep
  refine ⟨_, _, _, hstep, ?_, rfl, hgrown.answered hcall⟩
  have hfirst := hcompany.usable.table.first_le_next
  unfold firstHandle at hfirst
  simp only [Handle.isValid, decide_eq_true_eq]
  omega

/-! ## Leaving -/

/-- A party that closes its handle is out at once, or waits for its sending to end. -/
theorem step?_closes
    (hcompany : Company base machine space own other) (hseated : own.standing = .seated)
    (hcall : own.call = none) (hturn : script.turn = .call (.close own.handle)) :
    ∃ next seat later,
      (own.task space script).step? machine = some (next, Seat.task seat space later) ∧
        Company base next space seat other ∧ seat.id = own.id ∧ seat.handle = own.handle ∧
          ((seat.standing = .out ∧ seat.call = none ∧ later = script.after .done ∧
              next.network = machine.network.closeEnd own.id) ∨
            (seat.standing = .parting ∧
              (∃ ticket, seat.call = some ⟨ticket, space, .endSending seat.number⟩) ∧
                later = script ∧ next.network = machine.network)) := by
  have hbound := hcompany.ownSeat.bound hseated
  have hparted := hcompany.part hseated
  obtain ⟨hnetwork, -, hticket⟩ :=
    machine.unbind_frame space own.handle (.connection own.number)
  generalize hreleased :
    machine.unbind space own.handle (.connection own.number) = released at *
  have hused := hparted.isUsed_eq hcall (by simp)
  let closed : Machine := { released with network := released.network.closeEnd own.id }
  have hletGo : released.letGo (.connection own.number) = closed :=
    letGo_released (hparted.ownSeat.parting rfl) rfl hused
  have hplanned := machine.planned_close space own.handle
  generalize hplan : machine.plan space (.close own.handle) = planned at hplanned
  cases hplanned with
  | refused hfound hclose => exact absurd ((hclose _ rfl).symm.trans hbound) (by simp)
  | free hfree => cases hfree
  | fitting hsuspends hfound => cases hfound
  | @closed _ resource hslot =>
      cases Option.some.inj (hslot.symm.trans hbound)
      rw [hreleased, hletGo] at hplan
      have hstart : machine.start space (.close own.handle) = (closed, .answered .done) := by
        unfold start
        rw [hplan]
      refine ⟨closed, { own with standing := .out }, script.after .done, ?_,
        (hparted.vacate rfl hcall).withNetwork _, rfl, rfl, Or.inl ⟨rfl, hcall, rfl, ?_⟩⟩
      · unfold Seat.task
        rw [hcall]
        exact Task.step?_answered hturn hstart
      · rw [← hnetwork]
  | @closing _ resource action hslot haction hsuspends =>
      cases Option.some.inj (hslot.symm.trans hbound)
      cases haction
      rw [hreleased] at hplan
      have hstart :
          machine.start space (.close own.handle) =
            ((released.park space (.endSending own.number)).1, .waiting released.nextTicket) := by
        unfold start
        rw [hplan]
        simp only [Call.operation, hsuspends, if_true]
        rfl
      have huses :
          ∀ number, (Action.endSending own.number).resource? = some (.connection number) →
            number = own.number ∧ Standing.parting ≠ .out := by
        rintro number ⟨⟩
        exact ⟨rfl, by simp⟩
      refine ⟨_, _, script, ?_, hparted.park hcall huses, rfl, rfl,
        Or.inr ⟨rfl, ⟨_, rfl⟩, rfl, hnetwork⟩⟩
      · unfold Seat.task
        rw [hcall]
        exact Task.step?_waiting hturn hstart

/-- A party whose sending has ended is out. -/
theorem step?_leaves
    {ticket : Nat} (hcompany : Company base machine space own other) (script : Script)
    (hparting : own.standing = .parting)
    (hcall : own.call = some ⟨ticket, space, .endSending own.number⟩)
    (hopen : (machine.network.getEnd own.id).isOpen = true) :
    ∃ next,
      (own.task space script).step? machine =
          some (next,
            Seat.task { own with standing := .out, call := none } space (script.after .done)) ∧
        next.network = machine.network.closeEnd own.id ∧
          Company base next space { own with standing := .out, call := none } other := by
  have hconnection := hcompany.ownSeat.parting hparting
  have hperform :
      machine.perform space machine.network.capacity (.endSending own.number) =
        ({ machine with network := machine.network.endSending own.id }, .finished .done) := by
    simp only [perform, endSending, hconnection]
    rfl
  have hstep := hcompany.step?_finished script hcall hperform
  have hanswered :=
    (hcompany.withNetwork (machine.network.endSending own.id)).answered hcall
  generalize hshorter :
    ({ machine with
        network := machine.network.endSending own.id
        pending := machine.pending.filter fun waiting => waiting.ticket != ticket } : Machine) =
      shorter at hanswered
  have hforget :
      ({ machine with network := machine.network.endSending own.id } : Machine).forget
          ⟨ticket, space, .endSending own.number⟩ =
        { shorter with network := shorter.network.closeEnd own.id } := by
    have hletGo :=
      letGo_released (hanswered.ownSeat.parting hparting) rfl
        (hanswered.isUsed_eq rfl (by simp [hparting]))
    rw [← hshorter] at hletGo ⊢
    exact hletGo
  rw [hforget] at hstep
  refine ⟨_, hstep, ?_, (hanswered.vacate hparting rfl).withNetwork _⟩
  rw [← hshorter]
  exact Network.closeEnd_endSending hopen

end Company

end Machine

/-! ## Parties with what they are through with -/

/-- A party in a row of exchanges: the quarters that it is through with, its seat, and its
script. -/
structure Speaker where
  progress : Nat
  seat : Seat
  script : Script
  deriving Repr, DecidableEq

/-- A party has not called yet, or its call has left the given action. -/
def Seat.CallsFor (seat : Seat) (space : Nat) (action : Action) : Prop :=
  ∀ pending, seat.call = some pending → pending.space = space ∧ pending.action = action

/-- A party is about to close its handle, or its sending is about to end. -/
inductive Seat.Closes (space : Nat) : Seat → Prop where
  | handle {seat : Seat} (hseated : seat.standing = .seated) (hcall : seat.call = none) :
      Closes space seat
  | sending {seat : Seat} {ticket : Nat} (hparting : seat.standing = .parting)
      (hcall : seat.call = some ⟨ticket, space, .endSending seat.number⟩) : Closes space seat

theorem Seat.Closes.standing_ne {space : Nat} {seat : Seat} (hcloses : seat.Closes space) :
    seat.standing ≠ .out := by
  cases hcloses with
  | handle hseated => simp [hseated]
  | sending hparting => simp [hparting]

theorem Seat.callsFor_none
    {seat : Seat} (hcall : seat.call = none) (space : Nat) (action : Action) :
    seat.CallsFor space action := by
  intro pending hpending
  rw [hcall] at hpending
  cases hpending

theorem Seat.callsFor_new (seat : Seat) (space ticket : Nat) (action : Action) :
    Seat.CallsFor { seat with call := some ⟨ticket, space, action⟩ } space action := by
  rintro pending ⟨⟩
  exact ⟨rfl, rfl⟩

namespace Speaker

variable {base machine : Machine} {space progress : Nat} {seat other : Seat} {script : Script}
variable {holds : Machine → Speaker → Prop} {call : Call} {action : Action} {data : Bytes}

def task (speaker : Speaker) (space : Nat) : Task :=
  speaker.seat.task space speaker.script

/-- The steps that lie behind a party: a call takes one step to be left and one to be
carried out. -/
def effort (speaker : Speaker) : Nat :=
  2 * speaker.progress + if speaker.seat.call.isSome then 1 else 0

/-- A party makes a step that takes it further. -/
def Goes (speaker : Speaker) (space : Nat) (machine : Machine) (holds : Machine → Speaker → Prop) :
    Prop :=
  ∃ next later,
    (speaker.task space).step? machine = some (next, later.task space) ∧
      holds next later ∧ speaker.effort < later.effort

theorem effort_lt (seat later : Seat) (script next : Script) (hlater : later.call = none) :
    effort ⟨progress, seat, script⟩ < effort ⟨progress + 1, later, next⟩ := by
  simp only [effort, hlater, Option.isSome_none, Bool.false_eq_true, if_false]
  split <;> omega

/-- A party that has not called makes its call and stays at its stage. -/
theorem goes_of_call
    (hcompany : Machine.Company base machine space seat other) (hcall : seat.call = none)
    (hturn : script.turn = .call call)
    (hplan : machine.plan space call = (machine, .act action))
    (hsuspends : ∀ mode : CallMode, mode.suspends call.operation = true)
    (huses :
      ∀ number, action.resource? = some (.connection number) →
        number = seat.number ∧ seat.standing ≠ .out)
    (hholds :
      ∀ next ticket, next.network = machine.network →
        Machine.Company base next space { seat with call := some ⟨ticket, space, action⟩ } other →
          holds next ⟨progress, { seat with call := some ⟨ticket, space, action⟩ }, script⟩) :
    Goes ⟨progress, seat, script⟩ space machine holds := by
  obtain ⟨next, hstep, hnetwork, hnext⟩ :=
    hcompany.step?_parks hcall hturn hplan hsuspends huses
  refine ⟨next, ⟨progress, _, script⟩, hstep, hholds next _ hnetwork hnext, ?_⟩
  simp [effort, hcall]

/-- A party sends what fits, or makes its call. -/
theorem goes_sends
    {network : Network} (hcompany : Machine.Company base machine space seat other)
    (hseated : seat.standing = .seated)
    (hcalls : seat.CallsFor space (.send seat.handle seat.number data))
    (hturn : script.turn = .call (.write seat.handle data)) (hdata : data ≠ [])
    (hsend :
      machine.network.send seat.id data machine.network.capacity = (network, .moved data.length))
    (hcalled :
      ∀ next call, next.network = machine.network →
        Machine.Company base next space { seat with call := call } other →
          Seat.CallsFor { seat with call := call } space
              (.send seat.handle seat.number data) →
            holds next ⟨progress, { seat with call := call }, script⟩)
    (hsent :
      ∀ next, next.network = network →
        Machine.Company base next space { seat with call := none } other →
          holds next ⟨progress + 1, { seat with call := none }, script.after .done⟩) :
    Goes ⟨progress, seat, script⟩ space machine holds := by
  cases hwaiting : seat.call with
  | none =>
      apply goes_of_call hcompany hwaiting hturn (hcompany.plan_write hseated data)
        (by rintro ⟨⟩ <;> rfl)
      · rintro number ⟨⟩
        exact ⟨rfl, by simp [hseated]⟩
      · intro next ticket hnetwork hnext
        exact hcalled next _ hnetwork hnext (seat.callsFor_new space ticket _)
  | some pending =>
      obtain ⟨next, hstep, hnetwork, hnext⟩ :=
        hcompany.step?_sends script hseated hwaiting (hcalls pending hwaiting).2 hdata hsend
      exact ⟨next, ⟨progress + 1, _, _⟩, hstep, hsent next hnetwork hnext,
        effort_lt _ _ _ _ rfl⟩

/-- A party that has called receives what has arrived. -/
theorem goes_receives
    {network : Network} {pending : Pending} {size : Nat}
    (hcompany : Machine.Company base machine space seat other)
    (hseated : seat.standing = .seated)
    (hsize : (base.space space).configuration.bufferSize = size)
    (hcall : seat.call = some pending)
    (hcalls : seat.CallsFor space (.receive seat.handle seat.number))
    (hreceive :
      machine.network.receive seat.id size machine.network.capacity = (network, .moved data))
    (hreceived :
      ∀ next, next.network = network →
        Machine.Company base next space { seat with call := none } other →
          holds next ⟨progress + 1, { seat with call := none }, script.after (.bytes data)⟩) :
    Goes ⟨progress, seat, script⟩ space machine holds := by
  obtain ⟨next, hstep, hnetwork, hnext⟩ :=
    hcompany.step?_receives script hseated hsize hcall (hcalls pending hcall).2 hreceive
  exact ⟨next, ⟨progress + 1, _, _⟩, hstep, hreceived next hnetwork hnext,
    effort_lt _ _ _ _ rfl⟩

/-- A party that has not called yet makes its call to receive. -/
theorem goes_to_receive
    (hcompany : Machine.Company base machine space seat other)
    (hseated : seat.standing = .seated) (hcall : seat.call = none)
    (hturn : script.turn = .call (.read seat.handle))
    (hcalled :
      ∀ next call, next.network = machine.network →
        Machine.Company base next space { seat with call := call } other →
          Seat.CallsFor { seat with call := call } space (.receive seat.handle seat.number) →
            holds next ⟨progress, { seat with call := call }, script⟩) :
    Goes ⟨progress, seat, script⟩ space machine holds := by
  apply goes_of_call hcompany hcall hturn (hcompany.plan_read hseated) (by rintro ⟨⟩ <;> rfl)
  · rintro number ⟨⟩
    exact ⟨rfl, by simp [hseated]⟩
  · intro next ticket hnetwork hnext
    exact hcalled next _ hnetwork hnext (seat.callsFor_new space ticket _)

/-- A party on a new connection. -/
theorem goes_enters
    {network : Network} {id : EndId} {pending : Pending}
    (hcompany : Machine.Company base machine space seat other)
    (hout : seat.standing = .out) (hcall : seat.call = some pending)
    (hholds : machine.HoldsResource pending.action)
    (hfree : ∀ number, pending.action.resource? ≠ some (.connection number))
    (hside : id.side = seat.id.side)
    (hperform :
      machine.perform pending.space machine.network.capacity pending.action =
        (({ machine with network := network }.addConnection space id).1,
          .finished (.handle ⟨(machine.space space).table.next⟩)))
    (hentered :
      ∀ next handle number, handle.isValid = true → next.network = network →
        Machine.Company base next space ⟨.seated, handle, number, id, none⟩ other →
          holds next
            ⟨progress + 1, ⟨.seated, handle, number, id, none⟩,
              script.after (.handle handle)⟩) :
    Goes ⟨progress, seat, script⟩ space machine holds := by
  obtain ⟨next, handle, number, hstep, hvalid, hnetwork, hnext⟩ :=
    hcompany.step?_enters script hout hcall hholds hfree hside hperform
  exact ⟨next, ⟨progress + 1, ⟨.seated, handle, number, id, none⟩, script.after (.handle handle)⟩,
    hstep, hentered next handle number hvalid hnetwork hnext, effort_lt _ _ _ _ rfl⟩

/-- A party that closes its connection is out, or still has to end its sending. -/
theorem goes_closes
    (hcompany : Machine.Company base machine space seat other) (hcloses : seat.Closes space)
    (hturn : script.turn = .call (.close seat.handle))
    (hopen : (machine.network.getEnd seat.id).isOpen = true)
    (hparting :
      ∀ next later, next.network = machine.network →
        Machine.Company base next space later other → later.id = seat.id →
          later.handle = seat.handle → later.Closes space → holds next ⟨progress, later, script⟩)
    (hclosed :
      ∀ next later, next.network = machine.network.closeEnd seat.id →
        Machine.Company base next space later other → later.id = seat.id →
          later.standing = .out → later.call = none →
            holds next ⟨progress + 1, later, script.after .done⟩) :
    Goes ⟨progress, seat, script⟩ space machine holds := by
  cases hcloses with
  | handle hseated hcall =>
      obtain ⟨next, later, after, hstep, hnext, hid, hhandle, hleft⟩ :=
        hcompany.step?_closes hseated hcall hturn
      rcases hleft with
        ⟨hout, hquiet, rfl, hnetwork⟩ | ⟨hstanding, ⟨ticket, hticket⟩, rfl, hnetwork⟩
      · exact ⟨next, ⟨progress + 1, later, _⟩, hstep,
          hclosed next later hnetwork hnext hid hout hquiet, effort_lt _ _ _ _ hquiet⟩
      · refine ⟨next, ⟨progress, later, after⟩, hstep,
          hparting next later hnetwork hnext hid hhandle (.sending hstanding hticket), ?_⟩
        simp [effort, hcall, hticket]
  | sending hstanding hcall =>
      obtain ⟨next, hstep, hnetwork, hnext⟩ := hcompany.step?_leaves script hstanding hcall hopen
      exact ⟨next, ⟨progress + 1, _, _⟩, hstep, hclosed next _ hnetwork hnext rfl rfl rfl,
        effort_lt _ _ _ _ rfl⟩

end Speaker

end ResourceHandles
