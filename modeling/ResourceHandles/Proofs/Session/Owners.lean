import ResourceHandles.Proofs.Machine.Shut
import ResourceHandles.Proofs.Session.Orderly

/-!
# The owners of sockets

A listener is bound to one handle at most, over all handle spaces, as a connection is: a new
one is bound under a number that was not used before to a handle that was not used before.
Whatever is done in a session, what a runtime has open is therefore open in no other.
-/

namespace ResourceHandles

namespace Machine

variable {machine next : Machine} {resource : Resource}

/-! ## Listeners -/

/-- What holds of handles and listeners at all times. -/
structure ListenersSound (machine : Machine) : Prop where
  inRange : machine.ListenersBound
  unique :
    ∀ space handle other otherHandle number,
      machine.lookup space handle = some (.listener number) →
        machine.lookup other otherHandle = some (.listener number) →
          space = other ∧ handle = otherHandle

namespace ListenersSound

theorem boot
    (tree : FileTree) (routed : Bool) (capacity : Nat) (configurations : List Configuration) :
    (boot tree routed capacity configurations).ListenersSound := by
  have hbound := listenersBound_boot tree routed capacity configurations
  refine ⟨hbound, fun space handle other otherHandle number hlookup => ?_⟩
  have hnone := hbound space handle number hlookup
  cases hnone

/-- Spaces may change if nothing is bound that was not bound before. -/
theorem shrink
    (hsound : machine.ListenersSound)
    (hlisteners : next.listeners.length = machine.listeners.length)
    (hlookup :
      ∀ space handle number, next.lookup space handle = some (.listener number) →
        machine.lookup space handle = some (.listener number)) :
    next.ListenersSound := by
  constructor
  · intro space handle number hbound
    rw [hlisteners]
    exact hsound.inRange space handle number (hlookup space handle number hbound)
  · intro space handle other otherHandle number hbound hother
    exact hsound.unique space handle other otherHandle number (hlookup _ _ _ hbound)
      (hlookup _ _ _ hother)

theorem change
    (hsound : machine.ListenersSound)
    (htables : ∀ space, (machine.space space).table.WellFormed) (hchange : machine.Change next) :
    next.ListenersSound := by
  refine ⟨hsound.inRange.change htables hchange, ?_⟩
  obtain ⟨owner, hbinds⟩ := hchange.lookup_listener htables
  intro space handle other otherHandle number hbound hother
  have hnew : ∀ {space handle}, machine.lookup space handle = some (.listener number) →
      number ≠ machine.listeners.length :=
    fun hold => (hsound.inRange _ _ _ hold).ne
  rcases hbinds space handle number hbound with hold | ⟨rfl, rfl, hnumber, -⟩
  · rcases hbinds other otherHandle number hother with hotherOld | ⟨-, -, hnumber, -⟩
    · exact hsound.unique space handle other otherHandle number hold hotherOld
    · exact absurd hnumber (hnew hold)
  · rcases hbinds other otherHandle number hother with hotherOld | ⟨rfl, rfl, -, -⟩
    · exact absurd hnumber (hnew hotherOld)
    · exact ⟨rfl, rfl⟩

theorem congr
    (hsound : machine.ListenersSound) (hlisteners : next.listeners = machine.listeners)
    (hspaces : next.spaces = machine.spaces) : next.ListenersSound := by
  apply hsound.shrink (congrArg List.length hlisteners)
  intro space handle number hbound
  rwa [lookup_congr hspaces] at hbound

end ListenersSound

/-! ## Dropping -/

theorem spaces_dropAll (machine : Machine) (resources : List Resource) :
    (resources.foldl drop machine).spaces = machine.spaces := by
  induction resources generalizing machine with
  | nil => rfl
  | cons resource resources ih => rw [List.foldl_cons, ih, spaces_drop]

theorem nextTicket_dropAll (machine : Machine) (resources : List Resource) :
    (resources.foldl drop machine).nextTicket = machine.nextTicket := by
  induction resources generalizing machine with
  | nil => rfl
  | cons resource resources ih =>
      rw [List.foldl_cons, ih, drop, (letGo_pending _ _).2]
      cases resource <;> rfl

theorem length_listeners_dropAll (machine : Machine) (resources : List Resource) :
    (resources.foldl drop machine).listeners.length = machine.listeners.length := by
  induction resources generalizing machine with
  | nil => rfl
  | cons resource resources ih =>
      rw [List.foldl_cons, ih, drop, listeners_letGo]
      cases resource with
      | file number => rfl
      | listener number => exact List.length_modify _ _ _
      | connection number => rfl

/-- What is bound after a space was dropped was bound before, in another space. -/
theorem lookup_of_dropSpace
    {space other : Nat} {handle : Handle}
    (hbound : (machine.dropSpace space).lookup other handle = some resource) :
    machine.lookup other handle = some resource ∧ other ≠ space := by
  unfold dropSpace at hbound
  rw [lookup_congr (spaces_dropAll _ _)] at hbound
  exact lookup_of_emptied hbound

/-! ## All sockets -/

/-- An orderly machine in which listeners have one owner, too. -/
structure Owned (machine : Machine) : Prop where
  orderly : machine.Orderly
  listeners : machine.ListenersSound

/-- Whatever has a socket is open in one space only, under one handle. -/
theorem Owned.unique
    (howned : machine.Owned) {space other : Nat} {handle otherHandle : Handle}
    (hsocket : ∀ number, resource ≠ .file number)
    (hbound : machine.lookup space handle = some resource)
    (hother : machine.lookup other otherHandle = some resource) :
    space = other ∧ handle = otherHandle := by
  cases resource with
  | file number => exact absurd rfl (hsocket number)
  | listener number =>
      exact howned.listeners.unique space handle other otherHandle number hbound hother
  | connection number =>
      exact howned.orderly.bindings.unique space handle other otherHandle number hbound hother

theorem owned_boot
    (tree : FileTree) (routed : Bool) (capacity : Nat) (configurations : List Configuration) :
    (boot tree routed capacity configurations).Owned :=
  ⟨orderly_boot tree routed capacity configurations, .boot tree routed capacity configurations⟩

theorem lasting_owned : Lasting Owned where
  change _ _ hchange howned :=
    ⟨hchange.orderly howned.orderly,
      howned.listeners.change howned.orderly.bindings.tables hchange⟩
  addSpace machine configuration howned := by
    refine ⟨howned.orderly.addSpace configuration, ?_⟩
    refine @ListenersSound.shrink machine (machine.addSpace configuration).1 howned.listeners rfl ?_
    intro space handle number hbound
    unfold lookup at hbound ⊢
    rw [space_addSpace] at hbound
    split at hbound
    · cases hbound
    · exact hbound
  dropSpace machine space howned := by
    refine ⟨howned.orderly.dropSpace space, ?_⟩
    refine @ListenersSound.shrink machine (machine.dropSpace space) howned.listeners
      (length_listeners_dropAll (machine.setTable space {}) _) ?_
    intro other handle number hbound
    exact (lookup_of_dropSpace hbound).1
  writeOpen machine handle number data howned := by
    refine ⟨lasting_orderly.writeOpen machine handle number data howned.orderly, ?_⟩
    unfold Machine.writeFile
    split
    · exact howned.listeners
    · split
      · exact howned.listeners
      · exact howned.listeners.congr rfl rfl
  writeFile _ _ _ _ _ howned :=
    ⟨howned.orderly.congr rfl rfl rfl rfl rfl, howned.listeners.congr rfl rfl⟩
  makeDirectories _ _ howned :=
    ⟨howned.orderly.congr rfl rfl rfl rfl rfl, howned.listeners.congr rfl rfl⟩
  save _ _ _ howned :=
    ⟨howned.orderly.congr rfl rfl rfl rfl rfl, howned.listeners.congr rfl rfl⟩

end Machine

end ResourceHandles
