import ResourceHandles.Store

/-!
# Close signals

A close signal is raised once and stays raised.  Any number of waiters watch
it.  A waiter looks at the signal when it is first polled, and from then on
only when the signal has been written since it last looked, so a waiter that
comes late still sees that the signal was raised before.
-/

namespace ResourceHandles

/-- A signal: whether it is raised, and how often it was written. -/
structure CloseSignal where
  raised : Bool := false
  version : Nat := 0
  deriving Repr, DecidableEq

def CloseSignal.raise (signal : CloseSignal) : CloseSignal :=
  ⟨true, signal.version + 1⟩

/-- What a waiter knows of its signal. -/
inductive Waiter where
  | fresh
  | parked (seen : Nat)
  deriving Repr, DecidableEq

/-- The answer to a poll. -/
inductive Poll where
  | pending
  | ready
  | gone
  deriving Repr, DecidableEq

def Poll.text : Poll → String
  | pending => "pending"
  | ready => "ready"
  | gone => "gone"

/-- What a waiter does when it looks at the signal: it ends, or it stays and
remembers what it saw. -/
def CloseSignal.look (signal : CloseSignal) : Option Waiter :=
  if signal.raised then none else some (.parked signal.version)

/-- Polls one waiter; `none` when it is done. -/
def CloseSignal.poll (signal : CloseSignal) : Waiter → Option Waiter
  | .fresh => signal.look
  | .parked seen => if seen = signal.version then some (.parked seen) else signal.look

/-- A signal with its waiters, by name. -/
structure SignalRoom where
  signal : CloseSignal := {}
  waiters : Store String Waiter := {}
  deriving Repr, DecidableEq

namespace SignalRoom

/-- What can be done with a signal and its waiters. -/
inductive Step where
  | raise
  | wait (name : String)
  | poll (name : String)
  | drop (name : String)
  deriving Repr, DecidableEq

/-- Does one step; only a poll has an answer. -/
def step (room : SignalRoom) : Step → SignalRoom × Option Poll
  | .raise => ({ room with signal := room.signal.raise }, none)
  | .wait name => ({ room with waiters := room.waiters.insert name .fresh }, none)
  | .drop name => ({ room with waiters := room.waiters.erase name }, none)
  | .poll name =>
    match room.waiters.find? name with
    | none => (room, some .gone)
    | some waiter =>
      match room.signal.poll waiter with
      | none => ({ room with waiters := room.waiters.erase name }, some .ready)
      | some later => ({ room with waiters := room.waiters.insert name later }, some .pending)

end SignalRoom

end ResourceHandles
