import ResourceHandles.Machine.Perform

/-!
# Steps of the machine

A call is started; it is answered at once or leaves a waiting action.  Waiting
actions advance one at a time, in whatever order they are chosen, if they are in
turn and not blocked.  A waiting action can be abandoned, and a handle space can
be dropped with everything it holds.

A close takes the handle out of its table before anything else, so of several
closes of one handle only one finds it, and no later call does.
-/

namespace ResourceHandles

/-- What starting a call leads to. -/
inductive Started where
  | answered (reply : Reply)
  | waiting (ticket : Nat)
  deriving Repr, DecidableEq

/-- What a call amounts to once its handle or address is looked up. -/
inductive Plan where
  | answer (reply : Reply)
  | act (action : Action)
  deriving Repr, DecidableEq

namespace Machine

/-- What is left to do when a resource is closed in a call that suspends. -/
def closingAction : Resource → Option Action
  | .file number => some (.closeFile number)
  | .listener _ => none
  | .connection number => some (.endSending number)

/-- Takes a resource out of a space, and wakes those who use it. -/
def release (machine : Machine) (resource : Resource) : Machine :=
  (machine.raiseSignal resource).unhold resource

/-- Looks up what a call is about.  A handle that stands for nothing that fits
the call is answered as if there were nothing to do. -/
def plan (machine : Machine) (space : Nat) : Call → Machine × Plan
  | .open path flags => (machine, .act (.openFile path (.ofFlags flags)))
  | .unlink path => (machine, .act (.unlink path))
  | .close handle =>
    let owner := machine.space space
    match owner.table.remove handle with
    | (_, none) => (machine, .answer .done)
    | (table, some resource) =>
      let released := (machine.setTable space table).release resource
      match owner.configuration.mode.suspends .close, closingAction resource with
      | true, some action => (released, .act action)
      | _, _ => (released.letGo resource, .answer .done)
  | .read handle =>
    match (machine.space space).table.get? handle with
    | some (.file number) => (machine, .act (.readFile handle number))
    | some (.connection number) => (machine, .act (.receive handle number))
    | _ => (machine, .answer (.bytes []))
  | .write handle data =>
    match (machine.space space).table.get? handle with
    | some (.file number) => (machine, .act (.writeFile handle number data))
    | some (.connection number) => (machine, .act (.send handle number data))
    | _ => (machine, .answer .done)
  | .accept handle =>
    match (machine.space space).table.get? handle with
    | some (.listener number) => (machine, .act (.accept number))
    | _ => (machine, .answer (.handle .invalid))
  | .listen address =>
    match Endpoint.parse? address (machine.space space).configuration.wildcardHost with
    | some endpoint => (machine, .act (.listen endpoint))
    | none => (machine, .answer (.handle .invalid))
  | .connect address =>
    match Endpoint.parse? address (machine.space space).configuration.wildcardHost with
    | some endpoint => (machine, .act (.connect endpoint))
    | none => (machine, .answer (.handle .invalid))

def wait (machine : Machine) (space : Nat) (action : Action) : Machine × Started :=
  let (parked, ticket) := machine.park space action
  (parked, .waiting ticket)

/-- Starts a call.  A call that does not suspend is carried out at once. -/
def start (machine : Machine) (space : Nat) (call : Call) : Machine × Started :=
  match machine.plan space call with
  | (planned, .answer reply) => (planned, .answered reply)
  | (planned, .act action) =>
    if (machine.space space).configuration.mode.suspends call.operation then
      planned.wait space action
    else
      match planned.perform space 0 action with
      | (performed, .finished reply) => (performed.letGoOf action, .answered reply)
      | (performed, .continues rest) => performed.wait space rest
      | (performed, .blocked) => performed.wait space action

/-- Advances a waiting action.  There is no step if nothing waits under the
ticket, if an earlier action is in turn, or if the action is blocked.  The reply
is there once the action is finished. -/
def advance? (machine : Machine) (ticket amount : Nat) : Option (Machine × Option Reply) :=
  match machine.pending? ticket with
  | none => none
  | some pending =>
    if !machine.inTurn pending then none
    else
      match machine.perform pending.space amount pending.action with
      | (performed, .finished reply) => some (performed.forget pending, some reply)
      | (performed, .continues rest) => some (performed.replace ticket rest, none)
      | (_, .blocked) => none

def abandon (machine : Machine) (ticket : Nat) : Machine :=
  match machine.pending? ticket with
  | none => machine
  | some pending => machine.forget pending

def drop (machine : Machine) (resource : Resource) : Machine :=
  (machine.unhold resource).letGo resource

def resourcesOf (table : HandleTable Nat Nat Nat) : List Resource :=
  table.files.values.map .file ++ table.listeners.values.map .listener ++
    table.connections.values.map .connection

def dropSpace (machine : Machine) (space : Nat) : Machine :=
  (resourcesOf (machine.space space).table).foldl drop (machine.setTable space {})

end Machine

end ResourceHandles
