/-!
# Call modes

The same eight operations are offered in two modes.  Pre-resolved calls to
open, close, unlink and listen are finished when they return; the others
suspend until the platform has done its part.  Deferred calls all suspend.
-/

namespace ResourceHandles

/-- The operations on handles. -/
inductive Operation where
  | open
  | close
  | read
  | write
  | unlink
  | listen
  | accept
  | connect
  deriving Repr, DecidableEq

namespace Operation

def all : List Operation :=
  [.open, .close, .read, .write, .unlink, .listen, .accept, .connect]

def name : Operation → String
  | .open => "open"
  | .close => "close"
  | .read => "read"
  | .write => "write"
  | .unlink => "unlink"
  | .listen => "listen"
  | .accept => "accept"
  | .connect => "connect"

end Operation

/-- How operations are called. -/
inductive CallMode where
  | preResolved
  | deferred
  deriving Repr, DecidableEq, Inhabited

/-- A word that names no call mode. -/
structure UnknownMode where
  word : String
  deriving Repr, DecidableEq

def UnknownMode.message (fault : UnknownMode) : String :=
  "unknown call mode '" ++ fault.word ++ "' (expected pre-resolved or deferred)"

namespace CallMode

def suspends : CallMode → Operation → Bool
  | .deferred, _ => true
  | .preResolved, .read => true
  | .preResolved, .write => true
  | .preResolved, .accept => true
  | .preResolved, .connect => true
  | .preResolved, _ => false

/-- The length that a listener asks for its accept queue.  The two modes bind through
different libraries, which ask for different lengths. -/
def backlog : CallMode → Nat
  | .preResolved => 128
  | .deferred => 1024

def text : CallMode → String
  | .preResolved => "pre-resolved"
  | .deferred => "deferred"

def ofWord? (word : String) : Option CallMode :=
  if word = "pre-resolved" then some .preResolved
  else if word = "deferred" then some .deferred
  else none

def parse (word : String) : Except UnknownMode CallMode :=
  match ofWord? word with
  | some mode => .ok mode
  | none => .error ⟨word⟩

end CallMode

end ResourceHandles
