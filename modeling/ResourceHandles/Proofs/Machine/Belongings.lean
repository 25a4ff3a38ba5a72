import ResourceHandles.Machine.Steps
import ResourceHandles.Proofs.Table.Basic

/-!
# What a table binds

The resources of a table are those that its handles are bound to.  A new binding adds one of
them, and a handle that is taken out takes its resource with it.
-/

namespace ResourceHandles

namespace Store

variable {κ ν : Type} [DecidableEq κ] {store : Store κ ν} {key : κ} {value other : ν}

theorem mem_of_find? (hfind : store.find? key = some value) : (key, value) ∈ store.pairs := by
  unfold find? at hfind
  generalize store.pairs = pairs at hfind ⊢
  induction pairs with
  | nil => cases hfind
  | cons pair rest ih =>
      obtain ⟨bound, found⟩ := pair
      rw [lookup] at hfind
      split at hfind
      · next hbound =>
          cases hfind
          rw [hbound]
          exact List.mem_cons_self
      · exact List.mem_cons_of_mem _ (ih hfind)

theorem find?_of_mem (hnodup : store.keys.Nodup) (hmem : (key, value) ∈ store.pairs) :
    store.find? key = some value := by
  unfold keys at hnodup
  unfold find?
  generalize store.pairs = pairs at hnodup hmem ⊢
  induction pairs with
  | nil => cases hmem
  | cons pair rest ih =>
      obtain ⟨bound, other⟩ := pair
      rw [List.map_cons, List.nodup_cons] at hnodup
      rw [lookup]
      rcases List.mem_cons.mp hmem with hfirst | hrest
      · cases hfirst
        rw [if_pos rfl]
      · have hne : bound ≠ key := by
          rintro rfl
          exact hnodup.1 (List.mem_map.mpr ⟨_, hrest, rfl⟩)
        rw [if_neg hne]
        exact ih hnodup.2 hrest

theorem erase_of_notMem (hkey : key ∉ store.keys) : store.erase key = store := by
  have hpairs : store.pairs.filter (fun pair => pair.1 != key) = store.pairs := by
    rw [List.filter_eq_self]
    intro pair hpair
    have hne : pair.1 ≠ key := by
      rintro rfl
      exact hkey (List.mem_map_of_mem hpair)
    simpa using hne
  unfold erase
  rw [hpairs]

theorem erase_insert (hkey : key ∉ store.keys) (value : ν) :
    (store.insert key value).erase key = store := by
  have hpairs : store.pairs.filter (fun pair => pair.1 != key) = store.pairs :=
    congrArg pairs (erase_of_notMem hkey)
  unfold insert
  rw [erase_of_notMem hkey]
  unfold erase
  rw [List.filter_append, hpairs]
  simp

theorem mem_values_of_find? (hfind : store.find? key = some value) : value ∈ store.values :=
  List.mem_map_of_mem (f := Prod.snd) (mem_of_find? hfind)

theorem values_erase_subset (store : Store κ ν) (key : κ) :
    (store.erase key).values ⊆ store.values :=
  List.map_subset Prod.snd (List.filter_sublist.subset)

theorem mem_values_insert (hmem : other ∈ (store.insert key value).values) :
    other = value ∨ other ∈ store.values := by
  unfold insert values at hmem
  rw [List.map_append, List.mem_append] at hmem
  rcases hmem with hold | hnew
  · exact Or.inr (store.values_erase_subset key hold)
  · exact Or.inl (List.mem_singleton.mp hnew)

/-- Erasing a key takes its value out and no other one. -/
theorem values_erase_perm
    (hnodup : store.keys.Nodup) (hfind : store.find? key = some value) :
    store.values.Perm (value :: (store.erase key).values) := by
  unfold find? at hfind
  unfold keys at hnodup
  unfold erase values
  dsimp only
  generalize store.pairs = pairs at hfind hnodup ⊢
  induction pairs with
  | nil => cases hfind
  | cons pair rest ih =>
      obtain ⟨bound, found⟩ := pair
      rw [List.map_cons, List.nodup_cons] at hnodup
      rw [lookup] at hfind
      split at hfind
      · next hbound =>
          cases hfind
          subst hbound
          have hkept : rest.filter (fun pair => pair.1 != bound) = rest :=
            congrArg pairs (@erase_of_notMem _ _ _ ⟨rest⟩ _ hnodup.1)
          rw [List.filter_cons_of_neg (by simp), hkept]
          exact List.Perm.refl _
      · next hbound =>
          rw [List.filter_cons_of_pos (by simpa using hbound)]
          exact ((ih hfind hnodup.2).cons found).trans (List.Perm.swap _ _ _)

end Store

namespace Machine

variable {table : HandleTable Nat Nat Nat} {handle : Handle} {resource added : Resource}

theorem mem_resourcesOf :
    resource ∈ resourcesOf table ↔
      match resource with
      | .file number => number ∈ table.files.values
      | .listener number => number ∈ table.listeners.values
      | .connection number => number ∈ table.connections.values := by
  unfold resourcesOf
  cases resource <;> simp

theorem mem_resourcesOf_of_get? (hget : table.get? handle = some resource) :
    resource ∈ resourcesOf table := by
  rw [mem_resourcesOf]
  unfold HandleTable.get? at hget
  split at hget
  · next number hfile =>
      cases hget
      exact Store.mem_values_of_find? hfile
  · split at hget
    · next number hlistener =>
        cases hget
        exact Store.mem_values_of_find? hlistener
    · obtain ⟨number, hconnection, rfl⟩ := Option.map_eq_some_iff.mp hget
      exact Store.mem_values_of_find? hconnection

theorem mem_resourcesOf_insert (hmem : resource ∈ resourcesOf (table.insert added).1) :
    resource = added ∨ resource ∈ resourcesOf table := by
  rw [mem_resourcesOf] at hmem ⊢
  cases added <;> cases resource <;>
    first
    | exact Or.inr hmem
    | exact (Store.mem_values_insert hmem).imp (congrArg _) id

theorem resourcesOf_remove_subset (table : HandleTable Nat Nat Nat) (handle : Handle) :
    resourcesOf (table.remove handle).1 ⊆ resourcesOf table := by
  have hvalues :
      (table.remove handle).1.files.values ⊆ table.files.values ∧
        (table.remove handle).1.listeners.values ⊆ table.listeners.values ∧
          (table.remove handle).1.connections.values ⊆ table.connections.values := by
    unfold HandleTable.remove
    split
    · exact ⟨Store.values_erase_subset _ _, List.Subset.refl _, List.Subset.refl _⟩
    · split
      · exact ⟨List.Subset.refl _, Store.values_erase_subset _ _, List.Subset.refl _⟩
      · split
        · exact ⟨List.Subset.refl _, List.Subset.refl _, Store.values_erase_subset _ _⟩
        · exact ⟨List.Subset.refl _, List.Subset.refl _, List.Subset.refl _⟩
  intro resource hmem
  rw [mem_resourcesOf] at hmem ⊢
  cases resource with
  | file number => exact hvalues.1 hmem
  | listener number => exact hvalues.2.1 hmem
  | connection number => exact hvalues.2.2 hmem

section WellFormed

variable (hgood : table.WellFormed)

include hgood

theorem nodup_keys :
    table.files.keys.Nodup ∧ table.listeners.keys.Nodup ∧ table.connections.keys.Nodup := by
  have hall := hgood.nodup
  unfold HandleTable.keys at hall
  obtain ⟨hfiles, hsockets, -⟩ := List.nodup_append.mp hall
  obtain ⟨hlisteners, hconnections, -⟩ := List.nodup_append.mp hsockets
  exact ⟨hfiles, hlisteners, hconnections⟩

/-- Everything that a table binds is bound to a handle. -/
theorem mem_resourcesOf_iff :
    resource ∈ resourcesOf table ↔ ∃ handle, table.get? handle = some resource := by
  refine ⟨?_, fun ⟨handle, hget⟩ => mem_resourcesOf_of_get? hget⟩
  intro hmem
  obtain ⟨hfiles, hlisteners, hconnections⟩ := nodup_keys hgood
  obtain ⟨hfilesApart, hconnectionsApart, hlistenersApart⟩ := hgood.disjoint
  rw [mem_resourcesOf] at hmem
  cases resource with
  | file number =>
      obtain ⟨⟨handle, value⟩, hpair, rfl⟩ := List.mem_map.mp hmem
      refine ⟨handle, ?_⟩
      unfold HandleTable.get?
      rw [Store.find?_of_mem hfiles hpair]
  | listener number =>
      obtain ⟨⟨handle, value⟩, hpair, rfl⟩ := List.mem_map.mp hmem
      have hkey : handle ∈ table.listeners.keys := List.mem_map_of_mem hpair
      refine ⟨handle, ?_⟩
      unfold HandleTable.get?
      rw [(Store.find?_eq_none_iff _ _).mpr fun hfile => hfilesApart hfile hkey,
        Store.find?_of_mem hlisteners hpair]
  | connection number =>
      obtain ⟨⟨handle, value⟩, hpair, rfl⟩ := List.mem_map.mp hmem
      have hkey : handle ∈ table.connections.keys := List.mem_map_of_mem hpair
      refine ⟨handle, ?_⟩
      unfold HandleTable.get?
      rw [(Store.find?_eq_none_iff _ _).mpr fun hfile => hconnectionsApart hfile hkey,
        (Store.find?_eq_none_iff _ _).mpr fun hlistener => hlistenersApart hlistener hkey,
        Store.find?_of_mem hconnections hpair]
      rfl

/-- A handle that is taken out takes its resource with it. -/
theorem resourcesOf_remove_perm (hget : table.get? handle = some resource) :
    (resourcesOf table).Perm (resource :: resourcesOf (table.remove handle).1) := by
  obtain ⟨hfiles, hlisteners, hconnections⟩ := nodup_keys hgood
  unfold HandleTable.get? at hget
  unfold HandleTable.remove
  split at hget
  · next number hfile =>
      cases hget
      have hperm := (Store.values_erase_perm hfiles hfile).map (Slot.file (L := Nat) (C := Nat))
      simp only [resourcesOf]
      exact (hperm.append_right _).append_right _
  · next hfile =>
      split at hget
      · next number hlistener =>
          cases hget
          have hperm :=
            (Store.values_erase_perm hlisteners hlistener).map (Slot.listener (F := Nat) (C := Nat))
          simp only [resourcesOf]
          exact ((hperm.append_left _).trans List.perm_middle).append_right _
      · next hlistener =>
          obtain ⟨number, hconnection, rfl⟩ := Option.map_eq_some_iff.mp hget
          have hperm :=
            (Store.values_erase_perm hconnections hconnection).map
              (Slot.connection (F := Nat) (L := Nat))
          simp only [resourcesOf, hconnection]
          exact (hperm.append_left _).trans List.perm_middle

/-- A table under which nothing is found binds nothing. -/
theorem resourcesOf_eq_nil (hnone : ∀ handle, table.get? handle = none) :
    resourcesOf table = [] := by
  rw [List.eq_nil_iff_forall_not_mem]
  intro resource hmem
  obtain ⟨handle, hget⟩ := (mem_resourcesOf_iff hgood).mp hmem
  rw [hnone] at hget
  cases hget

end WellFormed

theorem length_resourcesOf (table : HandleTable Nat Nat Nat) :
    (resourcesOf table).length = table.size := by
  simp [resourcesOf, HandleTable.size, Store.size, Store.values, Nat.add_assoc]

end Machine

end ResourceHandles
