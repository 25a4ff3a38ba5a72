import ResourceHandles.Proofs.Table.Basic
import Mathlib.Data.Finmap
import Mathlib.Tactic

/-!
# A table is one finite map

Whatever is done with a table that starts out empty, its answers are those of a
single finite map from handles to slots and of a count of what was bound.  The
three stores and the order in which they are searched cannot be told from
outside.
-/

namespace ResourceHandles

variable {F L C : Type}

/-- What can be done with a table. -/
inductive TableCommand (F L C : Type) where
  | insert (slot : Slot F L C)
  | get (handle : Handle)
  | classify (handle : Handle)
  | remove (handle : Handle)
  | size
  | isEmpty

/-- What a table answers. -/
inductive TableAnswer (F L C : Type) where
  | handle (handle : Handle)
  | slot (slot : Option (Slot F L C))
  | kind (kind : Kind)
  | count (count : ℕ)
  | flag (flag : Bool)

/-- Carries out a command on a table. -/
def HandleTable.answer (table : HandleTable F L C) :
    TableCommand F L C → HandleTable F L C × TableAnswer F L C
  | .insert slot => ((table.insert slot).1, .handle (table.insert slot).2)
  | .get handle => (table, .slot (table.get? handle))
  | .classify handle => (table, .kind (table.classify handle))
  | .remove handle => ((table.remove handle).1, .slot (table.remove handle).2)
  | .size => (table, .count table.size)
  | .isEmpty => (table, .flag table.isEmpty)

/-- One finite map from handles to slots, and how often a slot was bound. -/
structure SlotMap (F L C : Type) where
  count : ℕ := 0
  slots : Finmap (fun _ : Handle => Slot F L C) := ∅

namespace SlotMap

/-- The handle of the next slot: the one that is bound as number `k` gets the
handle `2 + k`. -/
def nextHandle (map : SlotMap F L C) : Handle :=
  ⟨2 + (map.count + 1)⟩

/-- Carries out a command on a finite map. -/
def answer (map : SlotMap F L C) :
    TableCommand F L C → SlotMap F L C × TableAnswer F L C
  | .insert slot =>
    (⟨map.count + 1, map.slots.insert map.nextHandle slot⟩, .handle map.nextHandle)
  | .get handle => (map, .slot (map.slots.lookup handle))
  | .classify handle =>
    (map, .kind (HandleTable.kindOf (map.slots.lookup handle)))
  | .remove handle =>
    ({ map with slots := map.slots.erase handle }, .slot (map.slots.lookup handle))
  | .size => (map, .count map.slots.keys.card)
  | .isEmpty => (map, .flag (decide (map.slots.keys = ∅)))

end SlotMap

/-- Carries out commands one after the other and gathers the answers. -/
def answerAll {σ α β : Type} (answer : σ → α → σ × β) : σ → List α → σ × List β
  | state, [] => (state, [])
  | state, command :: rest =>
    let later := answerAll answer (answer state command).1 rest
    (later.1, (answer state command).2 :: later.2)

/-- A table and a finite map that hold the same. -/
structure HandleTable.Represents
    (table : HandleTable F L C) (map : SlotMap F L C) : Prop where
  wellFormed : table.WellFormed
  next_eq : table.next = 2 + (map.count + 1)
  get?_eq : ∀ handle, table.get? handle = map.slots.lookup handle
  size_eq : table.size = map.slots.keys.card

theorem HandleTable.represents_empty :
    ({} : HandleTable F L C).Represents {} := by
  constructor
  · exact HandleTable.wellFormed_empty
  · rfl
  · intro handle
    rfl
  · rfl

namespace HandleTable.Represents

variable {table : HandleTable F L C} {map : SlotMap F L C}

theorem nextHandle_eq (hsame : table.Represents map) :
    map.nextHandle = ⟨table.next⟩ := by
  unfold SlotMap.nextHandle
  rw [hsame.next_eq]

theorem nextHandle_notMem (hsame : table.Represents map) :
    map.nextHandle ∉ map.slots := by
  rw [← Finmap.lookup_eq_none, ← hsame.get?_eq, hsame.nextHandle_eq,
    get?_eq_none_iff]
  exact hsame.wellFormed.next_notMem

theorem insert (hsame : table.Represents map) (slot : Slot F L C) :
    (table.insert slot).1.Represents
      ⟨map.count + 1, map.slots.insert map.nextHandle slot⟩ := by
  constructor
  · exact hsame.wellFormed.insert slot
  · rw [insert_next, hsame.next_eq]
    push_cast
    ring
  · intro handle
    by_cases heq : handle = ⟨table.next⟩
    · subst heq
      rw [hsame.wellFormed.get?_insert_self, ← hsame.nextHandle_eq,
        Finmap.lookup_insert]
    · rw [get?_insert_of_ne table slot heq, Finmap.lookup_insert_of_ne]
      · exact hsame.get?_eq handle
      · rw [hsame.nextHandle_eq]
        exact heq
  · have hkeys :
        (map.slots.insert map.nextHandle slot).keys =
          Insert.insert map.nextHandle map.slots.keys := by
      ext handle
      rw [Finmap.mem_keys, Finmap.mem_insert, Finset.mem_insert,
        Finmap.mem_keys]
    have hfresh : map.nextHandle ∉ map.slots.keys := by
      rw [Finmap.mem_keys]
      exact hsame.nextHandle_notMem
    rw [hsame.wellFormed.size_insert, hkeys,
      Finset.card_insert_of_notMem hfresh, hsame.size_eq]

theorem remove (hsame : table.Represents map) (handle : Handle) :
    (table.remove handle).1.Represents
      { map with slots := map.slots.erase handle } := by
  constructor
  · exact hsame.wellFormed.remove handle
  · rw [remove_next]
    exact hsame.next_eq
  · intro other
    by_cases heq : other = handle
    · subst heq
      rw [hsame.wellFormed.get?_remove_self, Finmap.lookup_erase]
    · rw [get?_remove_of_ne table heq, Finmap.lookup_erase_ne heq]
      exact hsame.get?_eq other
  · rw [Finmap.keys_erase]
    cases hslot : table.get? handle with
    | none =>
        have hfree : handle ∉ map.slots.keys := by
          rw [Finmap.mem_keys, ← Finmap.lookup_eq_none, ← hsame.get?_eq]
          exact hslot
        rw [remove_eq_self hslot, Finset.erase_eq_of_notMem hfree]
        exact hsame.size_eq
    | some slot =>
        have hbound : handle ∈ map.slots.keys := by
          rw [Finmap.mem_keys, ← Finmap.lookup_isSome, ← hsame.get?_eq, hslot]
          rfl
        have hsize := hsame.wellFormed.size_remove hslot
        rw [Finset.card_erase_of_mem hbound, ← hsame.size_eq]
        omega

/-- One command gets the same answer from both and keeps them the same. -/
theorem answer (hsame : table.Represents map)
    (command : TableCommand F L C) :
    (table.answer command).2 = (map.answer command).2 ∧
      (table.answer command).1.Represents (map.answer command).1 := by
  cases command with
  | insert slot =>
      refine ⟨?_, hsame.insert slot⟩
      simp only [HandleTable.answer, SlotMap.answer]
      rw [insert_handle, hsame.nextHandle_eq]
  | get handle =>
      refine ⟨?_, hsame⟩
      simp only [HandleTable.answer, SlotMap.answer]
      rw [hsame.get?_eq]
  | classify handle =>
      refine ⟨?_, hsame⟩
      simp only [HandleTable.answer, SlotMap.answer]
      rw [classify_eq, hsame.get?_eq]
  | remove handle =>
      refine ⟨?_, hsame.remove handle⟩
      simp only [HandleTable.answer, SlotMap.answer]
      rw [remove_slot, hsame.get?_eq]
  | size =>
      refine ⟨?_, hsame⟩
      simp only [HandleTable.answer, SlotMap.answer]
      rw [hsame.size_eq]
  | isEmpty =>
      refine ⟨?_, hsame⟩
      simp only [HandleTable.answer, SlotMap.answer]
      have hempty :
          (table.size == 0) = decide (map.slots.keys = ∅) := by
        rw [hsame.size_eq, Bool.eq_iff_iff]
        simp
      rw [isEmpty, hempty]

theorem answerAll (hsame : table.Represents map)
    (commands : List (TableCommand F L C)) :
    (answerAll HandleTable.answer table commands).2 =
        (answerAll SlotMap.answer map commands).2 ∧
      (answerAll HandleTable.answer table commands).1.Represents
        (answerAll SlotMap.answer map commands).1 := by
  induction commands generalizing table map with
  | nil => exact ⟨rfl, hsame⟩
  | cons command rest ih =>
      obtain ⟨hanswer, hnext⟩ := hsame.answer command
      obtain ⟨hanswers, hlast⟩ := ih hnext
      exact ⟨congrArg₂ List.cons hanswer hanswers, hlast⟩

end HandleTable.Represents

/-- After any commands, a table that started out empty has given the answers of
one finite map and holds what that map holds.  The next handle is fresh in the
map, no handle is a key of two stores, and all keys lie between the first handle
and the counter. -/
theorem HandleTable.refines_slotMap (commands : List (TableCommand F L C)) :
    let table := ResourceHandles.answerAll HandleTable.answer {} commands
    let map := ResourceHandles.answerAll SlotMap.answer {} commands
    table.2 = map.2 ∧
      (∀ handle, table.1.get? handle = map.1.slots.lookup handle) ∧
      table.1.next = 3 + map.1.count ∧
      map.1.nextHandle ∉ map.1.slots ∧
      table.1.files.keys.Disjoint table.1.listeners.keys ∧
      table.1.files.keys.Disjoint table.1.connections.keys ∧
      table.1.listeners.keys.Disjoint table.1.connections.keys ∧
      ∀ handle ∈ table.1.files.keys ++ table.1.listeners.keys ++
          table.1.connections.keys,
        3 ≤ handle.raw ∧ handle.raw < table.1.next := by
  intro table map
  obtain ⟨hanswers, hsame⟩ :=
    (HandleTable.represents_empty (F := F) (L := L) (C := C)).answerAll commands
  obtain ⟨hfileListener, hfileConnection, hlistenerConnection⟩ :=
    hsame.wellFormed.disjoint
  refine ⟨hanswers, hsame.get?_eq, ?_, hsame.nextHandle_notMem, hfileListener,
    hfileConnection, hlistenerConnection, ?_⟩
  · calc
      table.1.next = 2 + (map.1.count + 1) := hsame.next_eq
      _ = 3 + map.1.count := by ring
  · intro handle hmem
    rw [List.append_assoc] at hmem
    exact ⟨hsame.wellFormed.first_le handle hmem,
      hsame.wellFormed.lt_next handle hmem⟩

end ResourceHandles
