import ResourceHandles.Proofs.Machine.Alone
import ResourceHandles.Proofs.Machine.Footprints

/-!
# Calls that come to their end

A call that is made while nothing waits comes to its end by itself, or it has to wait.  If it
comes to its end, it has done two things that have nothing to do with each other: something
with what belongs to its resource, and something with the books in which handles and waiting
actions are kept, from which a close strikes its handle.
-/

namespace ResourceHandles

/-- Whether a call reads, writes or closes what its handle stands for. -/
inductive Call.On (handle : Handle) : Call → Prop where
  | read : Call.On handle (.read handle)
  | write (data : Bytes) : Call.On handle (.write handle data)
  | close : Call.On handle (.close handle)

namespace Machine

variable {machine donor performed : Machine} {footprint : Footprint} {action rest : Action}
variable {space ticket next amount : Nat} {handle : Handle} {reply : Reply}

/-- Advances a waiting action until it is finished, each time by the next amount.  There is no
result if the action is blocked, or is not finished when there are no amounts left. -/
def conclude? (machine : Machine) (ticket : Nat) : List Nat → Option (Machine × Reply)
  | [] => none
  | amount :: amounts =>
    match machine.advance? ticket amount with
    | none => none
    | some (advanced, none) => advanced.conclude? ticket amounts
    | some (advanced, some reply) => some (advanced, reply)

/-- Starts a call and carries it out to its end, if it comes to it without waiting. -/
def complete? (machine : Machine) (space : Nat) (call : Call) (amounts : List Nat) :
    Option (Machine × Reply) :=
  match machine.start space call with
  | (answered, .answered reply) => some (answered, reply)
  | (parked, .waiting ticket) => parked.conclude? ticket amounts

/-! ## The books -/

/-- A machine with other handle spaces, waiting actions and tickets. -/
def withBooks (machine : Machine) (spaces : List HandleSpace) (pending : List Pending)
    (nextTicket : Nat) : Machine :=
  { machine with spaces := spaces, pending := pending, nextTicket := nextTicket }

section Books

variable {spaces : List HandleSpace} {pending : List Pending}

theorem graft_withBooks (machine donor : Machine) (footprint : Footprint) :
    (machine.withBooks spaces pending next).graft donor footprint =
      (machine.graft donor footprint).withBooks spaces pending next := by
  cases footprint with
  | file number entry => rfl
  | connection number link => rfl

/-- Carrying out an action on a resource leaves the books alone and does not look at them. -/
theorem perform_withBooks
    (hcarries : machine.Carries footprint) (haction : action.resource? = some footprint.resource) :
    (machine.withBooks spaces pending next).perform space amount action =
      ((machine.perform space amount action).1.withBooks spaces pending next,
        (machine.perform space amount action).2) := by
  have hthere := @perform_graft (machine.withBooks spaces pending next) machine footprint action
    ⟨rfl, rfl, rfl, rfl, rfl⟩ hcarries haction space amount
  rwa [graft_withBooks, graft_self, graft_withBooks, graft_perform hcarries haction] at hthere

theorem letGo_withBooks (hquiet : machine.pending = []) (resource : Resource) :
    (machine.withBooks spaces [] next).letGo resource =
      (machine.letGo resource).withBooks spaces [] next := by
  unfold letGo
  rw [isUsed_of_quiet rfl, isUsed_of_quiet hquiet]
  cases resource with
  | file number => rfl
  | listener number =>
      simp only [withBooks, Bool.false_eq_true, if_false]
      split
      · rfl
      · split
        · rfl
        · rfl
  | connection number =>
      simp only [withBooks, Bool.false_eq_true, if_false]
      split
      · rfl
      · split
        · rfl
        · rfl

end Books

/-! ## Working off an action -/

/-- Carries out an action to its end and lets go of its resource, without the action waiting
anywhere in the meantime. -/
def workOff? (machine : Machine) (space : Nat) (action : Action) :
    List Nat → Option (Machine × Reply)
  | [] => none
  | amount :: amounts =>
    match machine.perform space amount action with
    | (performed, .finished reply) => some (performed.letGoOf action, reply)
    | (performed, .continues rest) => performed.workOff? space rest amounts
    | (_, .blocked) => none

theorem resource?_of_continues
    (hperform : machine.perform space amount action = (performed, .continues rest)) :
    rest.resource? = action.resource? := by
  obtain ⟨handle, number, data, count, rfl, rfl⟩ := (performed_of_perform hperform).continues
  rfl

theorem letGoOf_eq_letGo {resource : Resource} (haction : action.resource? = some resource) :
    machine.letGoOf action = machine.letGo resource := by
  unfold letGoOf
  rw [haction]

/-- An action that waits alone is worked off when it is advanced. -/
theorem conclude?_only
    {spaces : List HandleSpace} (hquiet : machine.pending = [])
    (hcarries : machine.Carries footprint)
    (haction : action.resource? = some footprint.resource) (amounts : List Nat) :
    (machine.withBooks spaces [⟨ticket, space, action⟩] next).conclude? ticket amounts =
      (machine.workOff? space action amounts).map fun ended =>
        (ended.1.withBooks spaces [] next, ended.2) := by
  induction amounts generalizing machine action with
  | nil => rfl
  | cons amount amounts ih =>
      let pending : Pending := ⟨ticket, space, action⟩
      have honly : (machine.withBooks spaces [pending] next).pending = [pending] := rfl
      rw [conclude?, workOff?]
      cases hperform : machine.perform space amount action with
      | mk performed progress =>
          have hbooks :
              (machine.withBooks spaces [pending] next).perform pending.space amount
                  pending.action = (performed.withBooks spaces [pending] next, progress) := by
            rw [perform_withBooks hcarries haction, hperform]
          have hstill : performed.pending = [] :=
            (performed_of_perform hperform).pending.1.trans hquiet
          cases progress with
          | finished reply =>
              have hforget :
                  (performed.withBooks spaces [pending] next).forget pending =
                    (performed.withBooks spaces [] next).letGoOf action := by
                simp [Machine.forget, withBooks, pending]
              rw [advance?_finished honly hbooks, hforget]
              simp only [Option.map_some, letGoOf_eq_letGo haction, letGo_withBooks hstill]
          | continues rest =>
              have hrest := (resource?_of_continues hperform).trans haction
              have hleft := hcarries.perform haction space amount
              rw [hperform] at hleft
              have hreplace :
                  (performed.withBooks spaces [pending] next).replace ticket rest =
                    performed.withBooks spaces [⟨ticket, space, rest⟩] next := by
                simp [Machine.replace, withBooks, pending]
              rw [advance?_continues honly hbooks]
              dsimp only
              rw [hreplace]
              exact ih hstill hleft hrest
          | blocked =>
              rw [advance?_blocked honly hbooks]
              rfl

theorem workOff?_graft
    (hsize : machine.SameSize donor) (hcarries : donor.Carries footprint)
    (haction : action.resource? = some footprint.resource)
    (hquiet : machine.pending = []) (hdonor : donor.pending = []) (amounts : List Nat) :
    (machine.graft donor footprint).workOff? space action amounts =
      (donor.workOff? space action amounts).map fun ended =>
        (machine.graft ended.1 footprint, ended.2) := by
  induction amounts generalizing donor action with
  | nil => rfl
  | cons amount amounts ih =>
      rw [workOff?, workOff?, perform_graft hsize hcarries haction]
      have hleft := hcarries.perform haction space amount
      have hsame := hsize.perform hcarries haction space amount
      cases hperform : donor.perform space amount action with
      | mk performed progress =>
          rw [hperform] at hleft hsame
          have hstill : performed.pending = [] :=
            (performed_of_perform hperform).pending.1.trans hdonor
          cases progress with
          | finished reply =>
              simp only [Option.map_some, letGoOf_eq_letGo haction,
                letGo_graft hsame hleft hquiet hstill]
          | continues rest =>
              exact ih hsame hleft ((resource?_of_continues hperform).trans haction) hstill
          | blocked => rfl

end Machine

/-! ## The course of a call -/

/-- The handle space after a handle was taken out of its table. -/
def HandleSpace.without (handle : Handle) (space : HandleSpace) : HandleSpace :=
  { space with table := (space.table.remove handle).1 }

/-- What a call on a resource goes through: whether it closes its handle, and the action with
which it waits.  A call that waits with none is answered at once. -/
structure Course where
  closes : Bool
  action? : Option Action
  deriving Repr, DecidableEq

def Call.course (mode : CallMode) (resource : Resource) : Call → Course
  | .close _ => ⟨true, if mode.suspends .close then Machine.closingAction resource else none⟩
  | call => ⟨false, call.actionOn? (some resource)⟩

namespace Course

/-- The handle spaces after a call. -/
def spaces (course : Course) (space : Nat) (handle : Handle) (spaces : List HandleSpace) :
    List HandleSpace :=
  if course.closes then spaces.modify space (HandleSpace.without handle) else spaces

/-- The number of tickets that a call takes. -/
def tickets (course : Course) : Nat :=
  if course.action?.isSome then 1 else 0

/-- The machine at the start of a call, apart from its books. -/
def prepare (course : Course) (machine : Machine) (resource : Resource) : Machine :=
  if course.closes then machine.release resource else machine

/-- What a call comes to, apart from the books. -/
def follow? (course : Course) (machine : Machine) (space : Nat) (resource : Resource)
    (amounts : List Nat) : Option (Machine × Reply) :=
  match course.action? with
  | some action => (course.prepare machine resource).workOff? space action amounts
  | none => some ((course.prepare machine resource).letGo resource, .done)

end Course

namespace Machine

variable {machine donor : Machine} {footprint : Footprint} {action : Action} {call : Call}
variable {space : Nat} {handle : Handle} {mode : CallMode}

/-- The course of a call on a resource, in the mode of its handle space. -/
def course (machine : Machine) (space : Nat) (call : Call) (resource : Resource) : Course :=
  call.course (machine.space space).configuration.mode resource

/-- The action of a call is one on the resource of the call. -/
theorem resource?_of_course
    (hcall : call.On handle)
    (haction : (call.course mode footprint.resource).action? = some action) :
    action.resource? = some footprint.resource := by
  cases hcall with
  | read =>
      cases footprint with
      | file number entry =>
          cases haction
          rfl
      | connection number link =>
          cases haction
          rfl
  | write data =>
      cases footprint with
      | file number entry =>
          cases haction
          rfl
      | connection number link =>
          cases haction
          rfl
  | close =>
      simp only [Call.course] at haction
      split at haction
      · cases footprint with
        | file number entry =>
            cases haction
            rfl
        | connection number link =>
            cases haction
            rfl
      · cases haction

theorem prepare_frame (course : Course) (machine : Machine) (resource : Resource) :
    (course.prepare machine resource).pending = machine.pending ∧
      (course.prepare machine resource).network = machine.network := by
  unfold Course.prepare
  split
  · cases resource with
    | file number => exact ⟨rfl, rfl⟩
    | listener number => exact ⟨rfl, rfl⟩
    | connection number => exact ⟨rfl, rfl⟩
  · exact ⟨rfl, rfl⟩

theorem Carries.prepare
    (hcarries : machine.Carries footprint) (course : Course) (resource : Resource) :
    (course.prepare machine resource).Carries footprint := by
  unfold Course.prepare
  split
  · exact hcarries.release resource
  · exact hcarries

theorem spaces_setTable_remove (machine : Machine) (space : Nat) (handle : Handle) :
    (machine.setTable space ((machine.space space).table.remove handle).1).spaces =
      machine.spaces.modify space (HandleSpace.without handle) := by
  apply List.ext_getElem?
  intro position
  unfold setTable
  dsimp only
  by_cases hposition : space = position
  · subst hposition
    rw [List.getElem?_modify_eq, List.getElem?_modify_eq]
    unfold Machine.space
    rw [List.getD_eq_getElem?_getD]
    cases machine.spaces[space]? with
    | none => rfl
    | some owner => rfl
  · rw [List.getElem?_modify_ne _ _ hposition, List.getElem?_modify_ne _ _ hposition]

theorem unbind_eq
    (hquiet : machine.pending = []) (space : Nat) (handle : Handle) (resource : Resource) :
    (machine.setTable space ((machine.space space).table.remove handle).1).release resource =
      (machine.release resource).withBooks
        (machine.spaces.modify space (HandleSpace.without handle)) [] machine.nextTicket := by
  rw [← spaces_setTable_remove, ← hquiet]
  cases resource with
  | file number => rfl
  | listener number => rfl
  | connection number => rfl

theorem plan_close
    {resource : Resource} (hquiet : machine.pending = [])
    (hlookup : machine.lookup space handle = some resource) :
    let unbound := (machine.release resource).withBooks
      (machine.spaces.modify space (HandleSpace.without handle)) [] machine.nextTicket
    machine.plan space (.close handle) =
      match (machine.course space (.close handle) resource).action? with
      | some action => (unbound, .act action)
      | none => (unbound.letGo resource, .answer .done) := by
  intro unbound
  have hremove : (machine.space space).table.remove handle =
      (((machine.space space).table.remove handle).1, some resource) :=
    Prod.ext rfl ((HandleTable.remove_slot _ _).trans hlookup)
  unfold plan course Call.course
  dsimp only
  rw [hremove]
  dsimp only
  rw [unbind_eq hquiet]
  cases (machine.space space).configuration.mode.suspends .close with
  | false => rfl
  | true =>
      cases closingAction resource with
      | none => rfl
      | some action => rfl

/-- How a call starts while nothing waits. -/
theorem start_eq
    (hquiet : machine.pending = []) (hcall : call.On handle)
    (hlookup : machine.lookup space handle = some footprint.resource) :
    let course := machine.course space call footprint.resource
    let prepared := course.prepare machine footprint.resource
    let spaces := course.spaces space handle machine.spaces
    machine.start space call =
      match course.action? with
      | some action =>
        (prepared.withBooks spaces [⟨machine.nextTicket, space, action⟩]
            (machine.nextTicket + 1),
          .waiting machine.nextTicket)
      | none =>
        ((prepared.letGo footprint.resource).withBooks spaces [] machine.nextTicket,
          .answered .done) := by
  intro course prepared spaces
  unfold lookup at hlookup
  have hread : ∀ mode : CallMode, mode.suspends .read = true := by
    intro mode
    cases mode <;> rfl
  have hwrite : ∀ mode : CallMode, mode.suspends .write = true := by
    intro mode
    cases mode <;> rfl
  cases hcall with
  | read =>
      cases footprint with
      | file number entry =>
          simp only [start, plan, hlookup, Footprint.resource, Call.operation, hread, if_true,
            wait, park, hquiet, List.nil_append]
          rfl
      | connection number link =>
          simp only [start, plan, hlookup, Footprint.resource, Call.operation, hread, if_true,
            wait, park, hquiet, List.nil_append]
          rfl
  | write data =>
      cases footprint with
      | file number entry =>
          simp only [start, plan, hlookup, Footprint.resource, Call.operation, hwrite, if_true,
            wait, park, hquiet, List.nil_append]
          rfl
      | connection number link =>
          simp only [start, plan, hlookup, Footprint.resource, Call.operation, hwrite, if_true,
            wait, park, hquiet, List.nil_append]
          rfl
  | close =>
      have hplan := plan_close hquiet hlookup
      have hreleased : (machine.release footprint.resource).pending = [] :=
        (prepare_frame course machine footprint.resource).1.trans hquiet
      unfold start
      rw [hplan]
      cases haction : course.action? with
      | none =>
          simp only [letGo_withBooks hreleased]
          rfl
      | some action =>
          have hboth : (machine.space space).configuration.mode.suspends .close = true ∧
              closingAction footprint.resource = some action := by
            simpa [course, Machine.course, Call.course] using haction
          have hsuspends :
              (machine.space space).configuration.mode.suspends (Call.close handle).operation =
                true := hboth.1
          simp only [hsuspends, if_true]
          rfl

/-! ## What a call comes to -/

/-- A call comes to what it does with what belongs to its resource, and to what it changes in
the books. -/
theorem complete?_eq
    (hquiet : machine.pending = []) (hcarries : machine.Carries footprint) (hcall : call.On handle)
    (hlookup : machine.lookup space handle = some footprint.resource) (amounts : List Nat) :
    machine.complete? space call amounts =
      ((machine.course space call footprint.resource).follow? machine space footprint.resource
        amounts).map fun ended =>
          (ended.1.withBooks
            ((machine.course space call footprint.resource).spaces space handle machine.spaces) []
            (machine.nextTicket + (machine.course space call footprint.resource).tickets),
          ended.2) := by
  unfold complete? Course.follow? Course.tickets
  rw [start_eq hquiet hcall hlookup]
  cases haction : (machine.course space call footprint.resource).action? with
  | none => rfl
  | some action =>
      have hprepared := prepare_frame (machine.course space call footprint.resource) machine
        footprint.resource
      exact conclude?_only (hprepared.1.trans hquiet) (hcarries.prepare _ _)
        (resource?_of_course hcall haction) amounts

theorem SameSize.prepare
    (hsize : machine.SameSize donor) (course : Course) (resource : Resource) :
    machine.SameSize (course.prepare donor resource) := by
  unfold Course.prepare
  split
  · cases resource with
    | file number => exact hsize
    | listener number => exact ⟨hsize.files, hsize.contents, hsize.connections, hsize.links,
        hsize.capacity⟩
    | connection number =>
        refine ⟨hsize.files, hsize.contents, ?_, hsize.links, hsize.capacity⟩
        simp only [release, raiseSignal, unhold, List.length_modify]
        exact hsize.connections
  · exact hsize

theorem prepare_graft
    (hsize : machine.SameSize donor) (course : Course) (footprint : Footprint) :
    course.prepare (machine.graft donor footprint) footprint.resource =
      machine.graft (course.prepare donor footprint.resource) footprint := by
  unfold Course.prepare
  split
  · exact release_graft hsize footprint
  · rfl

/-- What a call does with its resource depends on nothing but what belongs to the resource. -/
theorem follow?_graft
    (hsize : machine.SameSize donor) (hcarries : donor.Carries footprint)
    (hquiet : machine.pending = []) (hdonor : donor.pending = []) (hcall : call.On handle)
    (mode : CallMode) (amounts : List Nat) :
    (call.course mode footprint.resource).follow? (machine.graft donor footprint) space
        footprint.resource amounts =
      ((call.course mode footprint.resource).follow? donor space footprint.resource amounts).map
        fun ended => (machine.graft ended.1 footprint, ended.2) := by
  generalize hcourse : call.course mode footprint.resource = course
  have hprepared := (prepare_frame course donor footprint.resource).1.trans hdonor
  have hsame := hsize.prepare course footprint.resource
  have hthere := hcarries.prepare course footprint.resource
  unfold Course.follow?
  rw [prepare_graft hsize]
  cases haction : course.action? with
  | none => simp only [letGo_graft hsame hthere hquiet hprepared, Option.map_some]
  | some action =>
      rw [← hcourse] at haction
      exact workOff?_graft hsame hthere (resource?_of_course hcall haction) hquiet hprepared amounts

end Machine

end ResourceHandles
