import ResourceHandles.Machine.Steps
import Mathlib.Tactic

/-!
# Runs of the machine

A run starts from a machine on which nothing has happened yet.  Calls are
started on its handle spaces, and the waiting actions advance or are given up, in
any order.  An event that is not possible where it stands is skipped, so every
list of events is a run.

Now and then the host runs out of memory for sockets, and has some again later.

A run keeps a log.  The record of a call says what its handle stood for when the
call was started, which the call itself does not tell.
-/

namespace ResourceHandles

/-! ## Events and records -/

/-- The handle that a call is about. -/
def Call.handle? : Call → Option Handle
  | .close handle => some handle
  | .read handle => some handle
  | .write handle _ => some handle
  | .accept handle => some handle
  | .open _ _ => none
  | .unlink _ => none
  | .listen _ => none
  | .connect _ => none

/-- What happens to a machine. -/
inductive Event where
  | start (space : Nat) (call : Call)
  | advance (ticket amount : Nat)
  | abandon (ticket : Nat)
  | exhaust (exhausted : Bool)
  deriving Repr, DecidableEq

/-- What is noted of an event. -/
inductive Record where
  | started (space : Nat) (call : Call) (found : Option Resource) (result : Started)
  | advanced (pending : Pending) (reply : Option Reply)
  | abandoned (pending : Pending)
  | exhausted (exhausted : Bool)
  deriving Repr, DecidableEq

namespace Machine

/-- A machine on which nothing has happened, with a handle space for each
configuration. -/
def boot (tree : FileTree) (routed : Bool) (capacity : Nat)
    (configurations : List Configuration) : Machine :=
  { tree := tree
    network := { routed := routed, capacity := capacity }
    spaces := configurations.map fun configuration => { configuration := configuration } }

/-- What the handle of a call stands for. -/
def found (machine : Machine) (space : Nat) (call : Call) : Option Resource :=
  call.handle?.bind (machine.space space).table.get?

/-- The machine of a host that has run out of memory for sockets, or has some. -/
def exhaust (machine : Machine) (exhausted : Bool) : Machine :=
  { machine with network := { machine.network with exhausted := exhausted } }

/-- One event with its record, if the event is possible. -/
def step? (machine : Machine) : Event → Option (Machine × Record)
  | .start space call =>
    if space < machine.spaces.length then
      let (next, result) := machine.start space call
      some (next, .started space call (machine.found space call) result)
    else none
  | .advance ticket amount =>
    match machine.pending? ticket, machine.advance? ticket amount with
    | some pending, some (next, reply) => some (next, .advanced pending reply)
    | _, _ => none
  | .abandon ticket =>
    match machine.pending? ticket with
    | some pending => some (machine.abandon ticket, .abandoned pending)
    | none => none
  | .exhaust exhausted => some (machine.exhaust exhausted, .exhausted exhausted)

end Machine

theorem filterMap_snoc
    {α : Type} (view : Record → Option α) (log : List Record) (record : Record) :
    (log ++ [record]).filterMap view = log.filterMap view ++ (view record).toList := by
  rw [List.filterMap_append]
  cases hrecord : view record <;> simp [hrecord]

/-! ## Histories -/

/-- A machine with the log of what has happened to it. -/
structure History where
  machine : Machine
  log : List Record := []
  deriving Repr, DecidableEq

namespace History

/-- The history after an event; an impossible event is skipped. -/
def after (history : History) (event : Event) : History :=
  match history.machine.step? event with
  | some (machine, record) => ⟨machine, history.log ++ [record]⟩
  | none => history

/-- The history after some events. -/
def play (history : History) (events : List Event) : History :=
  events.foldl after history

@[simp] theorem play_nil (history : History) : history.play [] = history := rfl

@[simp] theorem play_cons (history : History) (event : Event) (events : List Event) :
    history.play (event :: events) = (history.after event).play events := rfl

theorem play_append (history : History) (earlier later : List Event) :
    history.play (earlier ++ later) = (history.play earlier).play later := by
  unfold play
  rw [List.foldl_append]

theorem after_of_step?
    {history : History} {event : Event} {machine : Machine} {record : Record}
    (hstep : history.machine.step? event = some (machine, record)) :
    history.after event = ⟨machine, history.log ++ [record]⟩ := by
  unfold after
  rw [hstep]

theorem after_cases (history : History) (event : Event) :
    history.after event = history ∨
      ∃ machine record,
        history.machine.step? event = some (machine, record) ∧
          history.after event = ⟨machine, history.log ++ [record]⟩ := by
  unfold after
  cases hstep : history.machine.step? event with
  | none => exact Or.inl rfl
  | some result => exact Or.inr ⟨result.1, result.2, rfl, rfl⟩

/-- What every possible event preserves holds after every run. -/
theorem play_preserves
    {P : History → Prop}
    (hstep :
      ∀ history event machine record,
        P history → history.machine.step? event = some (machine, record) →
          P ⟨machine, history.log ++ [record]⟩)
    {history : History} (hstart : P history) (events : List Event) :
    P (history.play events) := by
  induction events generalizing history with
  | nil => exact hstart
  | cons event events ih =>
      rw [play_cons]
      apply ih
      rcases history.after_cases event with hskip | ⟨machine, record, hpossible, hafter⟩
      · rw [hskip]
        exact hstart
      · rw [hafter]
        exact hstep history event machine record hstart hpossible

theorem log_prefix_play (history : History) (events : List Event) :
    history.log <+: (history.play events).log := by
  apply play_preserves (P := fun later => history.log <+: later.log)
  · intro later event machine record hprefix _
    exact hprefix.trans (List.prefix_append _ _)
  · exact List.prefix_rfl

end History

end ResourceHandles
