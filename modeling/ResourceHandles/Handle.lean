/-!
# Handles

A handle is an integer that stands for one open resource.  Handles that are
valid are not negative; `-1` answers for a listen, accept or connect that
produced nothing.  Handles fit signed 64-bit integers.
-/

namespace ResourceHandles

/-- The number of a resource. -/
structure Handle where
  raw : Int
  deriving Repr, DecidableEq

namespace Handle

def invalid : Handle := ⟨-1⟩

def isValid (handle : Handle) : Bool :=
  0 ≤ handle.raw

def text (handle : Handle) : String :=
  toString handle.raw

def order (handle other : Handle) : Ordering :=
  compare handle.raw other.raw

end Handle

/-- What a handle stands for. -/
inductive Kind where
  | file
  | listener
  | connection
  | unknown
  deriving Repr, DecidableEq

def Kind.text : Kind → String
  | file => "file"
  | listener => "listener"
  | connection => "connection"
  | unknown => "unknown"

end ResourceHandles
