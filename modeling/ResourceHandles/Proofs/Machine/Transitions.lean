import ResourceHandles.Proofs.Machine.Performing
import ResourceHandles.Proofs.Table.Basic

/-!
# Transitions

The possible events fall into a few transitions: a call is refused, waits, is
carried out at once, or closes a handle; a waiting action is finished, goes on,
or is given up; the host runs out of memory for sockets.  Later files reason about
transitions and do not open the functions that start a call or advance an action.
-/

namespace ResourceHandles

/-! ## Calls and actions -/

/-- The action of a call on what its handle stands for, if the two fit. -/
def Call.actionOn? : Call → Option Resource → Option Action
  | .read handle, some (.file number) => some (.readFile handle number)
  | .read handle, some (.connection number) => some (.receive handle number)
  | .write handle data, some (.file number) => some (.writeFile handle number data)
  | .write handle data, some (.connection number) => some (.send handle number data)
  | .accept _, some (.listener number) => some (.accept number)
  | _, _ => none

/-- Whether a call leads to an action, given what its handle stands for. -/
def Call.LeadsTo (call : Call) (found : Option Resource) (action : Action) : Prop :=
  (call.handle? = none ∧ action.resource? = none) ∨ call.actionOn? found = some action

namespace Machine

/-- The machine after a handle was taken out of its table and its resource
released. -/
def unbind (machine : Machine) (space : Nat) (handle : Handle) (resource : Resource) :
    Machine :=
  (machine.setTable space ((machine.space space).table.remove handle).1).release resource

/-- Letting go of a resource closes its socket and changes nothing else. -/
theorem letGo_eq (machine : Machine) (resource : Resource) :
    machine.letGo resource = { machine with network := (machine.letGo resource).network } := by
  unfold letGo
  repeat' split
  all_goals rfl

theorem letGoOf_eq (machine : Machine) (action : Action) :
    machine.letGoOf action = { machine with network := (machine.letGoOf action).network } := by
  unfold letGoOf
  split
  · exact machine.letGo_eq _
  · rfl

/-- Forgetting an action removes it and closes the socket of its resource at most. -/
theorem forget_eq (machine : Machine) (pending : Pending) :
    machine.forget pending =
      { machine with
        network := (machine.forget pending).network
        pending := machine.pending.filter fun other => other.ticket != pending.ticket } :=
  letGoOf_eq _ pending.action

/-- What comes of an event: the record that is noted and the next machine. -/
inductive Transition (machine : Machine) : Record → Machine → Prop where
  | refused {space : Nat} {call : Call} {reply : Reply}
      (hspace : space < machine.spaces.length)
      (hfound : call.actionOn? (machine.found space call) = none)
      (hclose : ∀ handle, call = .close handle → machine.found space call = none)
      (hreply : reply.newHandle? = none) :
      Transition machine
        (.started space call (machine.found space call) (.answered reply)) machine
  | parked {space : Nat} {call : Call} {action : Action}
      (hspace : space < machine.spaces.length)
      (hleads : call.LeadsTo (machine.found space call) action) :
      Transition machine
        (.started space call (machine.found space call) (.waiting machine.nextTicket))
        (machine.park space action).1
  | performed {space : Nat} {call : Call} {action : Action} {performed : Machine} {reply : Reply}
      (hspace : space < machine.spaces.length)
      (hcall : call.handle? = none) (hfree : action.resource? = none)
      (hperform : machine.perform space 0 action = (performed, .finished reply)) :
      Transition machine
        (.started space call (machine.found space call) (.answered reply)) performed
  | closed {space : Nat} {handle : Handle} {resource : Resource}
      (hspace : space < machine.spaces.length)
      (hbound : (machine.space space).table.get? handle = some resource) :
      Transition machine
        (.started space (.close handle) (some resource) (.answered .done))
        ((machine.unbind space handle resource).letGo resource)
  | closing {space : Nat} {handle : Handle} {resource : Resource} {action : Action}
      (hspace : space < machine.spaces.length)
      (hbound : (machine.space space).table.get? handle = some resource)
      (haction : closingAction resource = some action) :
      Transition machine
        (.started space (.close handle) (some resource) (.waiting machine.nextTicket))
        ((machine.unbind space handle resource).park space action).1
  | finished {pending : Pending} {amount : Nat} {performed : Machine} {reply : Reply}
      (hpending : machine.pending? pending.ticket = some pending)
      (hturn : machine.inTurn pending = true)
      (hperform :
        machine.perform pending.space amount pending.action = (performed, .finished reply)) :
      Transition machine (.advanced pending (some reply)) (performed.forget pending)
  | continued {pending : Pending} {amount : Nat} {performed : Machine} {rest : Action}
      (hpending : machine.pending? pending.ticket = some pending)
      (hturn : machine.inTurn pending = true)
      (hperform :
        machine.perform pending.space amount pending.action = (performed, .continues rest)) :
      Transition machine (.advanced pending none) (performed.replace pending.ticket rest)
  | abandoned {pending : Pending}
      (hpending : machine.pending? pending.ticket = some pending) :
      Transition machine (.abandoned pending) (machine.forget pending)
  | exhausted (exhausted : Bool) :
      Transition machine (.exhausted exhausted) (machine.exhaust exhausted)

/-! ## Starting a call -/

theorem pending?_ticket
    {machine : Machine} {ticket : Nat} {pending : Pending}
    (hpending : machine.pending? ticket = some pending) :
    pending.ticket = ticket := by
  have hfound := List.find?_some hpending
  simpa using hfound

theorem perform_of_free
    (machine : Machine) (space amount : Nat) {action : Action}
    (hfree : action.resource? = none) :
    ∃ performed reply,
      machine.perform space amount action = (performed, .finished reply) := by
  cases action with
  | openFile path access => exact ⟨_, _, rfl⟩
  | unlink path => exact ⟨_, _, rfl⟩
  | listen endpoint => exact ⟨_, _, rfl⟩
  | connect endpoint => exact ⟨_, _, rfl⟩
  | closeFile file => simp [Action.resource?] at hfree
  | readFile handle file => simp [Action.resource?] at hfree
  | writeFile handle file data => simp [Action.resource?] at hfree
  | accept listener => simp [Action.resource?] at hfree
  | receive handle connection => simp [Action.resource?] at hfree
  | send handle connection data => simp [Action.resource?] at hfree
  | endSending connection => simp [Action.resource?] at hfree

/-- What the plan of a call can be. -/
inductive Planned (machine : Machine) (space : Nat) : Call → Machine × Plan → Prop where
  | refused {call : Call} {reply : Reply}
      (hfound : call.actionOn? (machine.found space call) = none)
      (hclose : ∀ handle, call = .close handle → machine.found space call = none)
      (hreply : reply.newHandle? = none) :
      Planned machine space call (machine, .answer reply)
  | free {call : Call} {action : Action}
      (hcall : call.handle? = none) (hfree : action.resource? = none) :
      Planned machine space call (machine, .act action)
  | fitting {call : Call} {action : Action}
      (hsuspends : ∀ mode : CallMode, mode.suspends call.operation = true)
      (hfound : call.actionOn? (machine.found space call) = some action) :
      Planned machine space call (machine, .act action)
  | closed {handle : Handle} {resource : Resource}
      (hbound : (machine.space space).table.get? handle = some resource) :
      Planned machine space (.close handle)
        ((machine.unbind space handle resource).letGo resource, .answer .done)
  | closing {handle : Handle} {resource : Resource} {action : Action}
      (hbound : (machine.space space).table.get? handle = some resource)
      (haction : closingAction resource = some action)
      (hsuspends : (machine.space space).configuration.mode.suspends .close = true) :
      Planned machine space (.close handle)
        (machine.unbind space handle resource, .act action)

theorem planned_close (machine : Machine) (space : Nat) (handle : Handle) :
    machine.Planned space (.close handle) (machine.plan space (.close handle)) := by
  have hfound :
      machine.found space (.close handle) = (machine.space space).table.get? handle := rfl
  unfold plan
  cases hbound : (machine.space space).table.get? handle with
  | none =>
      simp only [HandleTable.remove_eq_self hbound]
      apply Planned.refused
      · rfl
      · intro _ _
        rw [hfound, hbound]
      · rfl
  | some resource =>
      have hslot := HandleTable.remove_slot (machine.space space).table handle
      rw [hbound] at hslot
      have hunbind :
          (machine.setTable space ((machine.space space).table.remove handle).1).release resource =
            machine.unbind space handle resource := rfl
      generalize hremoved : (machine.space space).table.remove handle = removed
        at hslot hunbind
      obtain ⟨table, slot⟩ := removed
      simp only at hslot hunbind
      subst hslot
      simp only [hremoved, hunbind]
      split
      · next action hsuspends haction =>
          exact Planned.closing hbound haction hsuspends
      · exact Planned.closed hbound

theorem planned_of_plan
    {machine : Machine} {space : Nat} {call : Call} {reply : Reply}
    (hsuspends : ∀ mode : CallMode, mode.suspends call.operation = true)
    (hclose : ∀ handle, call ≠ .close handle)
    (hreply : reply.newHandle? = none)
    (hplan :
      machine.plan space call =
        (machine,
          match call.actionOn? (machine.found space call) with
          | some action => .act action
          | none => .answer reply)) :
    machine.Planned space call (machine.plan space call) := by
  rw [hplan]
  cases hfound : call.actionOn? (machine.found space call) with
  | none =>
      apply Planned.refused hfound _ hreply
      intro handle hcall
      exact absurd hcall (hclose handle)
  | some action => exact Planned.fitting hsuspends hfound

theorem planned (machine : Machine) (space : Nat) (call : Call) :
    machine.Planned space call (machine.plan space call) := by
  cases call with
  | «open» path flags => exact Planned.free rfl rfl
  | unlink path => exact Planned.free rfl rfl
  | close handle => exact machine.planned_close space handle
  | read handle =>
      refine planned_of_plan ?_ ?_ (show (Reply.bytes []).newHandle? = none from rfl) ?_
      · intro mode
        cases mode <;> rfl
      · intro other hcall
        cases hcall
      · simp only [plan, found, Call.handle?, Option.bind_some]
        cases (machine.space space).table.get? handle with
        | none => rfl
        | some resource => cases resource <;> rfl
  | write handle data =>
      refine planned_of_plan ?_ ?_ (show Reply.done.newHandle? = none from rfl) ?_
      · intro mode
        cases mode <;> rfl
      · intro other hcall
        cases hcall
      · simp only [plan, found, Call.handle?, Option.bind_some]
        cases (machine.space space).table.get? handle with
        | none => rfl
        | some resource => cases resource <;> rfl
  | accept handle =>
      refine planned_of_plan ?_ ?_ (show (Reply.handle .invalid).newHandle? = none from rfl) ?_
      · intro mode
        cases mode <;> rfl
      · intro other hcall
        cases hcall
      · simp only [plan, found, Call.handle?, Option.bind_some]
        cases (machine.space space).table.get? handle with
        | none => rfl
        | some resource => cases resource <;> rfl
  | listen address =>
      simp only [plan]
      split
      · exact Planned.free rfl rfl
      · exact Planned.refused rfl (by simp) rfl
  | connect address =>
      simp only [plan]
      split
      · exact Planned.free rfl rfl
      · exact Planned.refused rfl (by simp) rfl

theorem start_transition
    (machine : Machine) {space : Nat} (call : Call)
    (hspace : space < machine.spaces.length) :
    machine.Transition
      (.started space call (machine.found space call) (machine.start space call).2)
      (machine.start space call).1 := by
  have hplanned := machine.planned space call
  unfold start
  generalize machine.plan space call = planned at hplanned ⊢
  cases hplanned with
  | refused hfound hclose hreply =>
      exact Transition.refused hspace hfound hclose hreply
  | @free _ action hcall hfree =>
      simp only
      split
      · exact Transition.parked hspace (Or.inl ⟨hcall, hfree⟩)
      · obtain ⟨performed, reply, hperform⟩ := machine.perform_of_free space 0 hfree
        have hletGo : performed.letGoOf action = performed := by
          unfold letGoOf
          rw [hfree]
        simp only [hperform, hletGo]
        exact Transition.performed hspace hcall hfree hperform
  | fitting hsuspends hfound =>
      simp only [hsuspends, if_true]
      exact Transition.parked hspace (Or.inr hfound)
  | @closed handle resource hbound =>
      have hfound : machine.found space (.close handle) = some resource := hbound
      rw [hfound]
      exact Transition.closed hspace hbound
  | @closing handle resource action hbound haction hsuspends =>
      have hfound : machine.found space (.close handle) = some resource := hbound
      have hticket : (machine.unbind space handle resource).nextTicket = machine.nextTicket := by
        unfold unbind release
        cases resource <;> rfl
      have hoperation : (Call.close handle).operation = Operation.close := rfl
      simp only [hoperation, hsuspends, if_true, hfound]
      unfold wait
      have hwaiting :
          ((machine.unbind space handle resource).park space action).2 =
            machine.nextTicket := hticket
      simp only [hwaiting]
      exact Transition.closing hspace hbound haction

/-! ## Changes -/

/-- What a call, a waiting action or the host changes, whether the space of the call exists
or not. -/
inductive Change (machine : Machine) : Machine → Prop where
  | same : Change machine machine
  | parked {space : Nat} {call : Call} {action : Action}
      (hleads : call.LeadsTo (machine.found space call) action) :
      Change machine (machine.park space action).1
  | performed {space : Nat} {action : Action} {performed : Machine} {reply : Reply}
      (hfree : action.resource? = none)
      (hperform : machine.perform space 0 action = (performed, .finished reply)) :
      Change machine performed
  | closed {space : Nat} {handle : Handle} {resource : Resource}
      (hbound : (machine.space space).table.get? handle = some resource) :
      Change machine ((machine.unbind space handle resource).letGo resource)
  | closing {space : Nat} {handle : Handle} {resource : Resource} {action : Action}
      (hbound : (machine.space space).table.get? handle = some resource)
      (haction : closingAction resource = some action) :
      Change machine ((machine.unbind space handle resource).park space action).1
  | finished {pending : Pending} {amount : Nat} {performed : Machine} {reply : Reply}
      (hpending : machine.pending? pending.ticket = some pending)
      (hperform :
        machine.perform pending.space amount pending.action = (performed, .finished reply)) :
      Change machine (performed.forget pending)
  | continued {pending : Pending} {amount : Nat} {performed : Machine} {rest : Action}
      (hpending : machine.pending? pending.ticket = some pending)
      (hperform :
        machine.perform pending.space amount pending.action = (performed, .continues rest)) :
      Change machine (performed.replace pending.ticket rest)
  | abandoned {pending : Pending}
      (hpending : machine.pending? pending.ticket = some pending) :
      Change machine (machine.forget pending)
  | exhausted (exhausted : Bool) : Change machine (machine.exhaust exhausted)

theorem Transition.change
    {machine next : Machine} {record : Record} (htransition : machine.Transition record next) :
    machine.Change next := by
  cases htransition with
  | refused _ _ _ _ => exact .same
  | parked _ hleads => exact .parked hleads
  | performed _ _ hfree hperform => exact .performed hfree hperform
  | closed _ hbound => exact .closed hbound
  | closing _ hbound haction => exact .closing hbound haction
  | finished hpending _ hperform => exact .finished hpending hperform
  | continued hpending _ hperform => exact .continued hpending hperform
  | abandoned hpending => exact .abandoned hpending
  | exhausted exhausted => exact .exhausted exhausted

theorem start_change (machine : Machine) (space : Nat) (call : Call) :
    machine.Change (machine.start space call).1 := by
  have hplanned := machine.planned space call
  unfold start
  generalize machine.plan space call = planned at hplanned ⊢
  cases hplanned with
  | refused hfound hclose hreply => exact .same
  | @free _ action hcall hfree =>
      simp only
      split
      · exact .parked (Or.inl ⟨hcall, hfree⟩)
      · obtain ⟨performed, reply, hperform⟩ := machine.perform_of_free space 0 hfree
        have hletGo : performed.letGoOf action = performed := by
          unfold letGoOf
          rw [hfree]
        simp only [hperform, hletGo]
        exact .performed hfree hperform
  | fitting hsuspends hfound =>
      simp only [hsuspends, if_true]
      exact .parked (Or.inr hfound)
  | closed hbound => exact .closed hbound
  | @closing handle resource action hbound haction hsuspends =>
      have hoperation : (Call.close handle).operation = Operation.close := rfl
      simp only [hoperation, hsuspends, if_true]
      exact .closing hbound haction

theorem advance_change
    {machine next : Machine} {ticket amount : Nat} {reply : Option Reply}
    (hadvance : machine.advance? ticket amount = some (next, reply)) : machine.Change next := by
  unfold advance? at hadvance
  split at hadvance
  · cases hadvance
  · next pending hpending =>
      cases pending?_ticket hpending
      split at hadvance
      · cases hadvance
      · split at hadvance
        · next performed answer hperform =>
            cases hadvance
            exact .finished hpending hperform
        · next performed rest hperform =>
            cases hadvance
            exact .continued hpending hperform
        · cases hadvance

theorem abandon_change (machine : Machine) (ticket : Nat) :
    machine.Change (machine.abandon ticket) := by
  unfold abandon
  split
  · exact .same
  · next pending hpending =>
      cases pending?_ticket hpending
      exact .abandoned hpending

/-! ## Events -/

theorem step?_start
    (machine : Machine) {space : Nat} (hspace : space < machine.spaces.length) (call : Call) :
    machine.step? (.start space call) =
      some ((machine.start space call).1,
        .started space call (machine.found space call) (machine.start space call).2) := by
  unfold step?
  simp only [hspace, if_true]

/-- Every possible event is one of the transitions. -/
theorem step?_transition
    {machine next : Machine} {event : Event} {record : Record}
    (hstep : machine.step? event = some (next, record)) :
    machine.Transition record next := by
  cases event with
  | start space call =>
      simp only [step?] at hstep
      split at hstep
      · next hspace =>
          simp only [Option.some.injEq, Prod.mk.injEq] at hstep
          obtain ⟨rfl, rfl⟩ := hstep
          exact machine.start_transition call hspace
      · cases hstep
  | advance ticket amount =>
      simp only [step?] at hstep
      split at hstep
      · next pending advanced reply hpending hadvance =>
          simp only [Option.some.injEq, Prod.mk.injEq] at hstep
          obtain ⟨rfl, rfl⟩ := hstep
          have hticket := pending?_ticket hpending
          subst hticket
          simp only [advance?, hpending] at hadvance
          split at hadvance
          · cases hadvance
          · next hturn =>
              have hfirst : machine.inTurn pending = true := by simpa using hturn
              split at hadvance
              · next performed reply hperform =>
                  simp only [Option.some.injEq, Prod.mk.injEq] at hadvance
                  obtain ⟨rfl, rfl⟩ := hadvance
                  exact Transition.finished hpending hfirst hperform
              · next performed rest hperform =>
                  simp only [Option.some.injEq, Prod.mk.injEq] at hadvance
                  obtain ⟨rfl, rfl⟩ := hadvance
                  exact Transition.continued hpending hfirst hperform
              · cases hadvance
      · cases hstep
  | abandon ticket =>
      simp only [step?] at hstep
      split at hstep
      · next pending hpending =>
          simp only [Option.some.injEq, Prod.mk.injEq] at hstep
          obtain ⟨rfl, rfl⟩ := hstep
          have hticket := pending?_ticket hpending
          subst hticket
          unfold abandon
          simp only [hpending]
          exact Transition.abandoned hpending
      · cases hstep
  | exhaust exhausted =>
      cases hstep
      exact Transition.exhausted exhausted

theorem event_of_advanced
    {machine next : Machine} {event : Event} {pending : Pending} {reply : Option Reply}
    (hstep : machine.step? event = some (next, .advanced pending reply)) :
    ∃ amount, event = .advance pending.ticket amount := by
  cases event with
  | start space call =>
      simp only [step?] at hstep
      split at hstep
      · cases hstep
      · cases hstep
  | advance ticket amount =>
      simp only [step?] at hstep
      split at hstep
      · next found advanced answer hfound hadvance =>
          cases hstep
          exact ⟨amount, by rw [pending?_ticket hfound]⟩
      · cases hstep
  | abandon ticket =>
      simp only [step?] at hstep
      split at hstep
      · cases hstep
      · cases hstep
  | exhaust exhausted => cases hstep

theorem event_of_abandoned
    {machine next : Machine} {event : Event} {pending : Pending}
    (hstep : machine.step? event = some (next, .abandoned pending)) :
    event = .abandon pending.ticket := by
  cases event with
  | start space call =>
      simp only [step?] at hstep
      split at hstep
      · cases hstep
      · cases hstep
  | advance ticket amount =>
      simp only [step?] at hstep
      split at hstep
      · cases hstep
      · cases hstep
  | abandon ticket =>
      simp only [step?] at hstep
      split at hstep
      · next found hfound =>
          cases hstep
          rw [pending?_ticket hfound]
      · cases hstep
  | exhaust exhausted => cases hstep

end Machine

/-- What every transition preserves holds after every run. -/
theorem History.play_invariant
    {P : Machine → List Record → Prop}
    (hstep :
      ∀ machine log record next,
        P machine log → machine.Transition record next → P next (log ++ [record]))
    {history : History} (hstart : P history.machine history.log) (events : List Event) :
    P (history.play events).machine (history.play events).log := by
  apply play_preserves (P := fun later => P later.machine later.log)
  · intro later event machine record hlater hpossible
    exact hstep _ _ _ _ hlater (Machine.step?_transition hpossible)
  · exact hstart

end ResourceHandles
