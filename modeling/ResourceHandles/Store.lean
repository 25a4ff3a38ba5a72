/-!
# Finite maps as lists of pairs

A `Store` binds keys to values.  Writing a binding drops an earlier one of the
same key, so a store built from the empty one holds at most one binding for
each key.  What a key is bound to, `find?`, is the view under which every
operation is described.
-/

namespace ResourceHandles

/-- A finite map, with the bindings in the order in which they were written. -/
structure Store (κ : Type) (ν : Type) where
  pairs : List (κ × ν) := []
  deriving Repr, DecidableEq

namespace Store

variable {κ ν : Type} [DecidableEq κ]

/-- The first value that a list of pairs gives a key. -/
def lookup (key : κ) : List (κ × ν) → Option ν
  | [] => none
  | (bound, value) :: rest => if bound = key then some value else lookup key rest

def find? (store : Store κ ν) (key : κ) : Option ν :=
  lookup key store.pairs

def contains (store : Store κ ν) (key : κ) : Bool :=
  (store.find? key).isSome

def erase (store : Store κ ν) (key : κ) : Store κ ν :=
  ⟨store.pairs.filter fun pair => pair.1 != key⟩

def insert (store : Store κ ν) (key : κ) (value : ν) : Store κ ν :=
  ⟨(store.erase key).pairs ++ [(key, value)]⟩

/-- The store with the value of a key changed in place, if the key is bound. -/
def modify (store : Store κ ν) (key : κ) (change : ν → ν) : Store κ ν :=
  ⟨store.pairs.map fun pair => if pair.1 = key then (pair.1, change pair.2) else pair⟩

def keys (store : Store κ ν) : List κ :=
  store.pairs.map Prod.fst

def values (store : Store κ ν) : List ν :=
  store.pairs.map Prod.snd

def size (store : Store κ ν) : Nat :=
  store.pairs.length

@[simp] theorem find?_empty (key : κ) : (⟨[]⟩ : Store κ ν).find? key = none := rfl

theorem lookup_append (key : κ) (pairs others : List (κ × ν)) :
    lookup key (pairs ++ others) = (lookup key pairs).or (lookup key others) := by
  induction pairs with
  | nil => simp [lookup]
  | cons pair rest ih =>
    obtain ⟨bound, value⟩ := pair
    by_cases hbound : bound = key <;> simp [lookup, hbound, ih]

theorem lookup_filter_self (key : κ) (pairs : List (κ × ν)) :
    lookup key (pairs.filter fun pair => pair.1 != key) = none := by
  induction pairs with
  | nil => rfl
  | cons pair rest ih =>
    obtain ⟨bound, value⟩ := pair
    by_cases hbound : bound = key <;> simp [lookup, hbound, ih]

theorem lookup_filter_of_ne {key other : κ} (hne : other ≠ key) (pairs : List (κ × ν)) :
    lookup other (pairs.filter fun pair => pair.1 != key) = lookup other pairs := by
  induction pairs with
  | nil => rfl
  | cons pair rest ih =>
    obtain ⟨bound, value⟩ := pair
    by_cases hbound : bound = key
    · have hother : key ≠ other := fun heq => hne heq.symm
      simp [lookup, hbound, hother, ih]
    · simp [lookup, hbound, ih]

/-- An erased key is not bound. -/
@[simp] theorem find?_erase_self (store : Store κ ν) (key : κ) :
    (store.erase key).find? key = none :=
  lookup_filter_self key store.pairs

/-- Erasing a key leaves the other bindings alone. -/
theorem find?_erase_of_ne (store : Store κ ν) {key other : κ} (hne : other ≠ key) :
    (store.erase key).find? other = store.find? other :=
  lookup_filter_of_ne hne store.pairs

/-- A written key is bound to what was written. -/
@[simp] theorem find?_insert_self (store : Store κ ν) (key : κ) (value : ν) :
    (store.insert key value).find? key = some value := by
  have herase : lookup key (store.erase key).pairs = none := lookup_filter_self key store.pairs
  simp [find?, insert, lookup_append, herase, lookup]

/-- Writing a key leaves the other bindings alone. -/
theorem find?_insert_of_ne (store : Store κ ν) {key other : κ} (value : ν) (hne : other ≠ key) :
    (store.insert key value).find? other = store.find? other := by
  have hkey : key ≠ other := fun heq => hne heq.symm
  rw [← find?_erase_of_ne store hne]
  simp [find?, insert, lookup_append, lookup, hkey]

end Store

end ResourceHandles
