import ResourceHandles.HandleTable
import Mathlib.Tactic

/-!
# Well-formed handle tables

The three stores of a table are searched in a fixed order, yet the order never
matters: no handle is a key of two of them.  This rests on freshness.  All keys
lie below the counter, and a slot is bound to the counter itself.

Every operation is described by what it does to the slot of each handle and to
the keys; later files use these descriptions and do not look at the stores.
-/

namespace ResourceHandles

/-! ## Keys of a store -/

namespace Store

variable {κ ν : Type} [DecidableEq κ]

theorem find?_isSome_iff (store : Store κ ν) (key : κ) :
    (store.find? key).isSome = true ↔ key ∈ store.keys := by
  unfold find? keys
  induction store.pairs with
  | nil => simp [lookup]
  | cons pair rest ih =>
      obtain ⟨bound, value⟩ := pair
      by_cases hbound : bound = key
      · simp [lookup, hbound]
      · simp [lookup, hbound, ih, Ne.symm hbound]

theorem find?_eq_none_iff (store : Store κ ν) (key : κ) :
    store.find? key = none ↔ key ∉ store.keys := by
  rw [← find?_isSome_iff]
  simp

theorem mem_keys_of_find? {store : Store κ ν} {key : κ} {value : ν}
    (hfind : store.find? key = some value) : key ∈ store.keys := by
  rw [← find?_isSome_iff, hfind]
  rfl

theorem keys_erase (store : Store κ ν) (key : κ) :
    (store.erase key).keys = store.keys.filter (· != key) := by
  unfold erase keys
  rw [List.filter_map]
  rfl

theorem filter_ne_eq_self
    {key : κ} {keys : List κ} (hkey : key ∉ keys) :
    keys.filter (· != key) = keys := by
  rw [List.filter_eq_self]
  intro other hother
  have hne : other ≠ key := fun heq => hkey (heq ▸ hother)
  simpa using hne

theorem keys_insert_of_notMem
    {store : Store κ ν} {key : κ} (value : ν) (hkey : key ∉ store.keys) :
    (store.insert key value).keys = store.keys ++ [key] := by
  have herase : (store.erase key).keys = store.keys := by
    rw [keys_erase, filter_ne_eq_self hkey]
  unfold insert
  unfold keys at herase ⊢
  rw [List.map_append, herase]
  rfl

omit [DecidableEq κ] in
theorem size_eq_length_keys (store : Store κ ν) :
    store.size = store.keys.length := by
  simp [size, keys]

end Store

/-! ## Keys of a table -/

namespace HandleTable

variable {F L C : Type}

/-- The bound handles, by kind. -/
def keys (table : HandleTable F L C) : List Handle :=
  table.files.keys ++ (table.listeners.keys ++ table.connections.keys)

/-- The kind of what a handle may be bound to. -/
def kindOf : Option (Slot F L C) → Kind
  | some slot => slot.kind
  | none => .unknown

/-- No handle is bound twice, and all bound handles were handed out. -/
structure WellFormed (table : HandleTable F L C) : Prop where
  first_le_next : firstHandle ≤ table.next
  nodup : table.keys.Nodup
  first_le : ∀ handle ∈ table.keys, firstHandle ≤ handle.raw
  lt_next : ∀ handle ∈ table.keys, handle.raw < table.next

theorem wellFormed_empty : ({} : HandleTable F L C).WellFormed := by
  constructor <;> simp [keys, Store.keys]

theorem size_eq_length_keys (table : HandleTable F L C) :
    table.size = table.keys.length := by
  simp only [size, keys, Store.size_eq_length_keys, List.length_append]
  omega

theorem get?_isSome_iff (table : HandleTable F L C) (handle : Handle) :
    (table.get? handle).isSome = true ↔ handle ∈ table.keys := by
  unfold get? keys
  rw [List.mem_append, List.mem_append, ← Store.find?_isSome_iff,
    ← Store.find?_isSome_iff, ← Store.find?_isSome_iff]
  cases table.files.find? handle <;>
    cases table.listeners.find? handle <;>
      cases table.connections.find? handle <;> simp

theorem get?_eq_none_iff (table : HandleTable F L C) (handle : Handle) :
    table.get? handle = none ↔ handle ∉ table.keys := by
  rw [← get?_isSome_iff]
  simp

theorem classify_eq (table : HandleTable F L C) (handle : Handle) :
    table.classify handle = kindOf (table.get? handle) := by
  unfold classify get? Store.contains
  cases table.files.find? handle with
  | some entry => rfl
  | none =>
      cases table.listeners.find? handle with
      | some entry => rfl
      | none =>
          cases table.connections.find? handle with
          | some entry => rfl
          | none => rfl

theorem WellFormed.disjoint
    {table : HandleTable F L C} (hgood : table.WellFormed) :
    table.files.keys.Disjoint table.listeners.keys ∧
      table.files.keys.Disjoint table.connections.keys ∧
      table.listeners.keys.Disjoint table.connections.keys := by
  have hnodup := hgood.nodup
  unfold keys at hnodup
  rw [List.nodup_append', List.nodup_append', List.disjoint_append_right]
    at hnodup
  exact ⟨hnodup.2.2.1, hnodup.2.2.2, hnodup.2.1.2.2⟩

/-! ## Binding -/

theorem WellFormed.next_notMem
    {table : HandleTable F L C} (hgood : table.WellFormed) :
    (⟨table.next⟩ : Handle) ∉ table.keys := by
  intro hmem
  exact lt_irrefl _ (hgood.lt_next _ hmem)

@[simp] theorem insert_handle (table : HandleTable F L C) (slot : Slot F L C) :
    (table.insert slot).2 = ⟨table.next⟩ := by
  cases slot <;> rfl

@[simp] theorem insert_next (table : HandleTable F L C) (slot : Slot F L C) :
    (table.insert slot).1.next = table.next + 1 := by
  cases slot <;> rfl

theorem WellFormed.get?_insert_self
    {table : HandleTable F L C} (hgood : table.WellFormed)
    (slot : Slot F L C) :
    (table.insert slot).1.get? ⟨table.next⟩ = some slot := by
  have hnone := (get?_eq_none_iff table ⟨table.next⟩).mpr hgood.next_notMem
  unfold get? at hnone
  cases hfile : table.files.find? ⟨table.next⟩ with
  | some entry => simp [hfile] at hnone
  | none =>
      cases hlistener : table.listeners.find? ⟨table.next⟩ with
      | some entry => simp [hfile, hlistener] at hnone
      | none =>
          cases slot <;> simp [insert, get?, hfile, hlistener]

theorem get?_insert_of_ne
    (table : HandleTable F L C) (slot : Slot F L C)
    {other : Handle} (hne : other ≠ ⟨table.next⟩) :
    (table.insert slot).1.get? other = table.get? other := by
  cases slot <;> simp [insert, get?, Store.find?_insert_of_ne _ _ hne]

theorem WellFormed.keys_insert
    {table : HandleTable F L C} (hgood : table.WellFormed)
    (slot : Slot F L C) :
    (table.insert slot).1.keys.Perm (⟨table.next⟩ :: table.keys) := by
  have hnext := hgood.next_notMem
  simp only [keys, List.mem_append, not_or] at hnext
  obtain ⟨hfile, hlistener, hconnection⟩ := hnext
  cases slot with
  | file entry =>
      simp only [insert, keys]
      rw [Store.keys_insert_of_notMem entry hfile, List.append_assoc]
      exact List.perm_middle
  | listener entry =>
      simp only [insert, keys]
      rw [Store.keys_insert_of_notMem entry hlistener, List.append_assoc]
      exact (List.perm_middle.append_left _).trans List.perm_middle
  | connection entry =>
      simp only [insert, keys]
      rw [Store.keys_insert_of_notMem entry hconnection, ← List.append_assoc,
        ← List.append_assoc, ← List.append_assoc]
      exact List.perm_append_singleton _ _

theorem WellFormed.insert
    {table : HandleTable F L C} (hgood : table.WellFormed)
    (slot : Slot F L C) :
    (table.insert slot).1.WellFormed := by
  have hperm := hgood.keys_insert slot
  constructor
  · rw [insert_next]
    have hfirst := hgood.first_le_next
    omega
  · rw [hperm.nodup_iff, List.nodup_cons]
    exact ⟨hgood.next_notMem, hgood.nodup⟩
  · intro handle hmem
    rw [hperm.mem_iff, List.mem_cons] at hmem
    rcases hmem with rfl | hmem
    · exact hgood.first_le_next
    · exact hgood.first_le handle hmem
  · intro handle hmem
    rw [insert_next]
    rw [hperm.mem_iff, List.mem_cons] at hmem
    rcases hmem with rfl | hmem
    · exact Int.lt_succ table.next
    · exact (hgood.lt_next handle hmem).trans (Int.lt_succ table.next)

theorem WellFormed.size_insert
    {table : HandleTable F L C} (hgood : table.WellFormed)
    (slot : Slot F L C) :
    (table.insert slot).1.size = table.size + 1 := by
  rw [size_eq_length_keys, (hgood.keys_insert slot).length_eq,
    size_eq_length_keys, List.length_cons]

/-! ## Unbinding -/

@[simp] theorem remove_slot (table : HandleTable F L C) (handle : Handle) :
    (table.remove handle).2 = table.get? handle := by
  unfold remove get?
  cases table.files.find? handle with
  | some entry => rfl
  | none =>
      cases table.listeners.find? handle with
      | some entry => rfl
      | none =>
          cases table.connections.find? handle with
          | some entry => rfl
          | none => rfl

@[simp] theorem remove_next (table : HandleTable F L C) (handle : Handle) :
    (table.remove handle).1.next = table.next := by
  unfold remove
  cases table.files.find? handle with
  | some entry => rfl
  | none =>
      cases table.listeners.find? handle with
      | some entry => rfl
      | none =>
          cases table.connections.find? handle with
          | some entry => rfl
          | none => rfl

theorem remove_eq_self
    {table : HandleTable F L C} {handle : Handle}
    (hnone : table.get? handle = none) :
    table.remove handle = (table, none) := by
  unfold get? at hnone
  unfold remove
  cases hfile : table.files.find? handle with
  | some entry => simp [hfile] at hnone
  | none =>
      cases hlistener : table.listeners.find? handle with
      | some entry => simp [hfile, hlistener] at hnone
      | none =>
          cases hconnection : table.connections.find? handle with
          | some entry => simp [hfile, hlistener, hconnection] at hnone
          | none => rfl

theorem WellFormed.keys_remove
    {table : HandleTable F L C} (hgood : table.WellFormed) (handle : Handle) :
    (table.remove handle).1.keys = table.keys.filter (· != handle) := by
  obtain ⟨hfileListener, hfileConnection, hlistenerConnection⟩ :=
    hgood.disjoint
  unfold keys
  rw [List.filter_append, List.filter_append]
  unfold remove
  cases hfile : table.files.find? handle with
  | some entry =>
      have hmem := Store.mem_keys_of_find? hfile
      simp only
      rw [Store.keys_erase,
        Store.filter_ne_eq_self (hfileListener hmem),
        Store.filter_ne_eq_self (hfileConnection hmem)]
  | none =>
      rw [Store.filter_ne_eq_self
        ((Store.find?_eq_none_iff _ _).mp hfile)]
      cases hlistener : table.listeners.find? handle with
      | some entry =>
          have hmem := Store.mem_keys_of_find? hlistener
          simp only
          rw [Store.keys_erase,
            Store.filter_ne_eq_self (hlistenerConnection hmem)]
      | none =>
          rw [Store.filter_ne_eq_self
            ((Store.find?_eq_none_iff _ _).mp hlistener)]
          cases hconnection : table.connections.find? handle with
          | some entry =>
              simp only
              rw [Store.keys_erase]
          | none =>
              simp only
              rw [Store.filter_ne_eq_self
                ((Store.find?_eq_none_iff _ _).mp hconnection)]

theorem WellFormed.get?_remove_self
    {table : HandleTable F L C} (hgood : table.WellFormed) (handle : Handle) :
    (table.remove handle).1.get? handle = none := by
  rw [get?_eq_none_iff, hgood.keys_remove]
  simp

theorem get?_remove_of_ne
    (table : HandleTable F L C) {handle other : Handle} (hne : other ≠ handle) :
    (table.remove handle).1.get? other = table.get? other := by
  unfold remove
  cases table.files.find? handle with
  | some entry => simp [get?, Store.find?_erase_of_ne _ hne]
  | none =>
      cases table.listeners.find? handle with
      | some entry => simp [get?, Store.find?_erase_of_ne _ hne]
      | none =>
          cases table.connections.find? handle with
          | some entry => simp [get?, Store.find?_erase_of_ne _ hne]
          | none => rfl

theorem WellFormed.remove
    {table : HandleTable F L C} (hgood : table.WellFormed) (handle : Handle) :
    (table.remove handle).1.WellFormed := by
  have hsublist :
      ∀ other ∈ (table.remove handle).1.keys, other ∈ table.keys := by
    intro other hmem
    rw [hgood.keys_remove] at hmem
    exact (List.mem_filter.mp hmem).1
  constructor
  · rw [remove_next]
    exact hgood.first_le_next
  · rw [hgood.keys_remove]
    exact hgood.nodup.filter _
  · intro other hmem
    exact hgood.first_le other (hsublist other hmem)
  · intro other hmem
    rw [remove_next]
    exact hgood.lt_next other (hsublist other hmem)

theorem WellFormed.size_remove
    {table : HandleTable F L C} (hgood : table.WellFormed)
    {handle : Handle} {slot : Slot F L C}
    (hslot : table.get? handle = some slot) :
    (table.remove handle).1.size + 1 = table.size := by
  have hmem : handle ∈ table.keys := by
    rw [← get?_isSome_iff, hslot]
    rfl
  rw [size_eq_length_keys, size_eq_length_keys, hgood.keys_remove,
    ← hgood.nodup.erase_eq_filter, List.length_erase_of_mem hmem]
  have hpositive := List.length_pos_of_mem hmem
  omega

end HandleTable

end ResourceHandles
