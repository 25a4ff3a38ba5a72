import ResourceHandles.Handle
import ResourceHandles.Store

/-!
# The handle table

Files, listeners and connections are bound in three stores of their own, which
share one counter.  The counter only grows, so a handle is never handed out
twice, and a handle that is bound in one of the stores is bound in no other.
-/

namespace ResourceHandles

/-- An entry under the kind of its resource. -/
inductive Slot (F L C : Type) where
  | file (entry : F)
  | listener (entry : L)
  | connection (entry : C)
  deriving Repr, DecidableEq

def Slot.kind {F L C : Type} : Slot F L C → Kind
  | file _ => .file
  | listener _ => .listener
  | connection _ => .connection

/-- The first handle that is handed out; the three before it are left to the
standard streams. -/
def firstHandle : Int := 3

/-- The entries of all open handles. -/
structure HandleTable (F L C : Type) where
  next : Int := firstHandle
  files : Store Handle F := {}
  listeners : Store Handle L := {}
  connections : Store Handle C := {}
  deriving Repr, DecidableEq

namespace HandleTable

variable {F L C : Type}

def insert (table : HandleTable F L C) (slot : Slot F L C) : HandleTable F L C × Handle :=
  let handle : Handle := ⟨table.next⟩
  let counted := { table with next := table.next + 1 }
  match slot with
  | .file entry => ({ counted with files := table.files.insert handle entry }, handle)
  | .listener entry => ({ counted with listeners := table.listeners.insert handle entry }, handle)
  | .connection entry =>
    ({ counted with connections := table.connections.insert handle entry }, handle)

def classify (table : HandleTable F L C) (handle : Handle) : Kind :=
  if table.files.contains handle then .file
  else if table.listeners.contains handle then .listener
  else if table.connections.contains handle then .connection
  else .unknown

def get? (table : HandleTable F L C) (handle : Handle) : Option (Slot F L C) :=
  match table.files.find? handle with
  | some entry => some (.file entry)
  | none =>
    match table.listeners.find? handle with
    | some entry => some (.listener entry)
    | none => (table.connections.find? handle).map .connection

/-- Unbinds a handle and returns the slot that it was bound to. -/
def remove (table : HandleTable F L C) (handle : Handle) :
    HandleTable F L C × Option (Slot F L C) :=
  match table.files.find? handle with
  | some entry => ({ table with files := table.files.erase handle }, some (.file entry))
  | none =>
    match table.listeners.find? handle with
    | some entry =>
      ({ table with listeners := table.listeners.erase handle }, some (.listener entry))
    | none =>
      match table.connections.find? handle with
      | some entry =>
        ({ table with connections := table.connections.erase handle }, some (.connection entry))
      | none => (table, none)

def size (table : HandleTable F L C) : Nat :=
  table.files.size + table.listeners.size + table.connections.size

def isEmpty (table : HandleTable F L C) : Bool :=
  table.size == 0

end HandleTable

end ResourceHandles
