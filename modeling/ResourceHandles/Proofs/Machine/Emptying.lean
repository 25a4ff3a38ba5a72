import ResourceHandles.Proofs.Machine.Belongings
import ResourceHandles.Proofs.Machine.Bare
import ResourceHandles.Proofs.Network.AnyOrder

/-!
# Emptying a space

While nothing waits, whatever is dropped or closed closes its socket at once.  So a space that
is dropped and a space whose handles are all closed, in whatever order, leave the same
network, and the same files, listeners and connections but for those that were open in the
space.
-/

namespace ResourceHandles

namespace Machine

variable {base machine next : Machine} {resource : Resource} {resources others : List Resource}
  {space : Nat} {handle : Handle}

/-! ## Closing sockets -/

/-- What is closed of the network when a resource is let go. -/
def closing? (machine : Machine) : Resource → Option Closing
  | .file _ => none
  | .listener number => (machine.listeners[number]?).map fun listener => .socket listener.socket
  | .connection number =>
    (machine.connections[number]?).map fun connection => .endOf connection.endId

/-- The network after everything was closed that belongs to some resources. -/
def shutDown (machine : Machine) (resources : List Resource) : Network :=
  (resources.filterMap machine.closing?).foldl Network.close machine.network

theorem shutDown_cons (machine : Machine) (resource : Resource) (resources : List Resource) :
    machine.shutDown (resource :: resources) =
      (resources.filterMap machine.closing?).foldl Network.close
        (machine.shutDown [resource]) := by
  unfold shutDown
  rw [List.filterMap_cons, List.filterMap_cons]
  cases machine.closing? resource with
  | none => rfl
  | some closing => rfl

theorem closing?_congr
    (hlisteners : next.listeners.map Listener.socket = machine.listeners.map Listener.socket)
    (hconnections :
      next.connections.map Connection.endId = machine.connections.map Connection.endId) :
    next.closing? = machine.closing? := by
  funext resource
  cases resource with
  | file number => rfl
  | listener number =>
      have hsocket := congrArg (fun sockets => sockets[number]?.map Closing.socket) hlisteners
      simp only [List.getElem?_map, Option.map_map] at hsocket
      exact hsocket
  | connection number =>
      have hend := congrArg (fun ends => ends[number]?.map Closing.endOf) hconnections
      simp only [List.getElem?_map, Option.map_map] at hend
      exact hend

theorem closing?_unhold (machine : Machine) (resource : Resource) :
    (machine.unhold resource).closing? = machine.closing? := by
  cases resource with
  | file number => rfl
  | listener number =>
      refine closing?_congr ?_ rfl
      apply map_modify
      exact fun _ => rfl
  | connection number =>
      refine closing?_congr rfl ?_
      apply map_modify
      exact fun _ => rfl

/-- A resource that is dropped while nothing waits closes its socket. -/
theorem drop_eq (hquiet : machine.pending = []) (resource : Resource) :
    machine.drop resource =
      { machine.unhold resource with network := machine.shutDown [resource] } := by
  cases resource with
  | file number =>
      unfold drop letGo
      rw [isUsed_of_quiet (by exact hquiet)]
      rfl
  | listener number =>
      unfold drop letGo
      rw [isUsed_of_quiet (by exact hquiet)]
      simp only [unhold, List.getElem?_modify, shutDown, closing?, List.filterMap_cons]
      cases machine.listeners[number]? with
      | none => rfl
      | some listener => simp [Network.close]
  | connection number =>
      unfold drop letGo
      rw [isUsed_of_quiet (by exact hquiet)]
      simp only [unhold, List.getElem?_modify, shutDown, closing?, List.filterMap_cons]
      cases machine.connections[number]? with
      | none => rfl
      | some connection => simp [Network.close]

theorem closing?_drop (hquiet : machine.pending = []) (resource : Resource) :
    (machine.drop resource).closing? = machine.closing? := by
  rw [drop_eq hquiet]
  exact machine.closing?_unhold resource

theorem pending_drop (hquiet : machine.pending = []) (resource : Resource) :
    (machine.drop resource).pending = [] :=
  (bare_drop hquiet resource).2

theorem shutDown_drop (hquiet : machine.pending = []) (resource : Resource) :
    (machine.drop resource).shutDown resources = machine.shutDown (resource :: resources) := by
  rw [shutDown_cons]
  unfold shutDown
  rw [closing?_drop hquiet, drop_eq hquiet]
  rfl

/-- Dropping resources shuts all of them down. -/
theorem network_dropAll (hquiet : machine.pending = []) :
    (resources.foldl drop machine).network = machine.shutDown resources := by
  induction resources generalizing machine with
  | nil => rfl
  | cons resource resources ih =>
      rw [List.foldl_cons, ih (pending_drop hquiet resource), shutDown_drop hquiet]

/-- The resources may be shut down in any order. -/
theorem shutDown_perm
    (hlinks : LinksSound machine.network machine.connections) (hperm : resources.Perm others) :
    machine.shutDown resources = machine.shutDown others := by
  apply Network.closeAll_perm (hperm.filterMap machine.closing?)
  intro closing hmem
  obtain ⟨resource, -, hclosing⟩ := List.mem_filterMap.mp hmem
  cases resource with
  | file number => cases hclosing
  | listener number =>
      obtain ⟨listener, -, rfl⟩ := Option.map_eq_some_iff.mp hclosing
      trivial
  | connection number =>
      obtain ⟨connection, hconnection, rfl⟩ := Option.map_eq_some_iff.mp hclosing
      intro socket link hlink
      have hwaits : link ∈ machine.network.waitingLinks := by
        unfold Network.backlog at hlink
        cases hsocket : machine.network.sockets[socket]? with
        | none =>
            rw [hsocket] at hlink
            cases hlink
        | some listening =>
            rw [hsocket] at hlink
            exact List.mem_flatMap_of_mem (List.mem_of_getElem? hsocket) hlink
      exact hlinks.waitingFree link hwaits connection (List.mem_of_getElem? hconnection)

/-! ## What is left -/

/-- A machine that is the same as another but for its network, its spaces, and some resources
that were given up. -/
structure Left (base machine : Machine) (gone : List Resource) : Prop where
  tree : machine.tree = base.tree
  files : machine.files = base.files
  pending : machine.pending = []
  listeners : machine.listeners.length = base.listeners.length
  listener :
    ∀ number, .listener number ∉ gone → machine.listeners[number]? = base.listeners[number]?
  connections : machine.connections.length = base.connections.length
  connection :
    ∀ number, .connection number ∉ gone →
      machine.connections[number]? = base.connections[number]?
  closing : machine.closing? = base.closing?

namespace Left

variable {gone : List Resource}

theorem refl (hquiet : base.pending = []) (gone : List Resource) : base.Left base gone :=
  ⟨rfl, rfl, hquiet, rfl, fun _ _ => rfl, rfl, fun _ _ => rfl, rfl⟩

theorem changeListener
    {number : Nat} {change : Listener → Listener} (hleft : base.Left machine gone)
    (hgone : .listener number ∈ gone)
    (hsocket : ∀ listener, (change listener).socket = listener.socket) :
    base.Left { machine with listeners := machine.listeners.modify number change } gone := by
  refine { hleft with listeners := ?_, listener := ?_, closing := ?_ }
  · exact (List.length_modify _ _ _).trans hleft.listeners
  · intro other hother
    have hne : number ≠ other := by
      rintro rfl
      exact hother hgone
    dsimp only
    rw [List.getElem?_modify_ne _ _ hne, hleft.listener other hother]
  · rw [← hleft.closing]
    exact closing?_congr (map_modify hsocket _ _) rfl

theorem changeConnection
    {number : Nat} {change : Connection → Connection} (hleft : base.Left machine gone)
    (hgone : .connection number ∈ gone)
    (hend : ∀ connection, (change connection).endId = connection.endId) :
    base.Left { machine with connections := machine.connections.modify number change } gone := by
  refine { hleft with connections := ?_, connection := ?_, closing := ?_ }
  · exact (List.length_modify _ _ _).trans hleft.connections
  · intro other hother
    have hne : number ≠ other := by
      rintro rfl
      exact hother hgone
    dsimp only
    rw [List.getElem?_modify_ne _ _ hne, hleft.connection other hother]
  · rw [← hleft.closing]
    exact closing?_congr rfl (map_modify hend _ _)

theorem unhold (hleft : base.Left machine gone) (hgone : resource ∈ gone) :
    base.Left (machine.unhold resource) gone := by
  cases resource with
  | file number => exact hleft
  | listener number => exact hleft.changeListener hgone fun _ => rfl
  | connection number => exact hleft.changeConnection hgone fun _ => rfl

theorem raiseSignal (hleft : base.Left machine gone) (hgone : resource ∈ gone) :
    base.Left (machine.raiseSignal resource) gone := by
  cases resource with
  | file number => exact hleft
  | listener number => exact hleft.changeListener hgone fun _ => rfl
  | connection number => exact hleft.changeConnection hgone fun _ => rfl

theorem drop (hleft : base.Left machine gone) (hgone : resource ∈ gone) :
    base.Left (machine.drop resource) gone := by
  rw [drop_eq hleft.pending]
  exact { hleft.unhold hgone with }

theorem dropAll (hleft : base.Left machine gone) (hgone : resources ⊆ gone) :
    base.Left (resources.foldl Machine.drop machine) gone := by
  induction resources generalizing machine with
  | nil => exact hleft
  | cons resource resources ih =>
      obtain ⟨hfirst, hrest⟩ := List.cons_subset.mp hgone
      exact ih (hleft.drop hfirst) hrest

end Left

/-- A machine on the way from another in which nothing but handles of a space was closed. -/
structure Emptying (base machine : Machine) (space : Nat) : Prop where
  left : base.Left machine (resourcesOf (base.space space).table)
  spaces : machine.spaces.length = base.spaces.length
  configuration :
    (machine.space space).configuration = (base.space space).configuration
  others : ∀ other, other ≠ space → machine.space other = base.space other
  bound : resourcesOf (machine.space space).table ⊆ resourcesOf (base.space space).table
  network :
    machine.shutDown (resourcesOf (machine.space space).table) =
      base.shutDown (resourcesOf (base.space space).table)

namespace Emptying

theorem refl (hquiet : base.pending = []) (space : Nat) : base.Emptying base space :=
  ⟨.refl hquiet _, rfl, rfl, fun _ _ => rfl, List.Subset.refl _, rfl⟩

/-- Closing a handle of the space brings a machine further on that way. -/
theorem close
    (hemptying : base.Emptying machine space) (horderly : machine.Orderly)
    (hbound : machine.lookup space handle = some resource) :
    base.Emptying ((machine.unbind space handle resource).letGo resource) space := by
  have hspace : space < machine.spaces.length := lt_length_of_lookup hbound
  have hgood := horderly.bindings.tables space
  have hmem : resource ∈ resourcesOf (base.space space).table :=
    hemptying.bound (mem_resourcesOf_of_get? hbound)
  have hperm := resourcesOf_remove_perm hgood hbound
  let shorter : HandleTable Nat Nat Nat := ((machine.space space).table.remove handle).1
  let raised : Machine := (machine.setTable space shorter).raiseSignal resource
  have hclosed : (machine.unbind space handle resource).letGo resource = raised.drop resource := rfl
  have hset : base.Left (machine.setTable space shorter) (resourcesOf (base.space space).table) :=
    { hemptying.left with }
  have hraised := hset.raiseSignal hmem
  have hdropped := hraised.drop hmem
  have hspaces : (raised.drop resource).spaces = (machine.setTable space shorter).spaces := by
    rw [spaces_drop]
    cases resource <;> rfl
  have hown : (raised.drop resource).space space =
      { machine.space space with table := shorter } := by
    rw [space_congr hspaces, machine.space_setTable_self shorter hspace]
  have hshutDown : ∀ resources, (raised.drop resource).shutDown resources =
      machine.shutDown (resource :: resources) := by
    intro resources
    rw [shutDown_drop hraised.pending]
    unfold shutDown
    rw [hraised.closing, ← hemptying.left.closing]
    cases resource <;> rfl
  rw [hclosed]
  refine ⟨hdropped, ?_, ?_, ?_, ?_, ?_⟩
  · rw [hspaces, length_spaces_setTable, hemptying.spaces]
  · rw [hown]
    exact hemptying.configuration
  · intro other hother
    rw [space_congr hspaces, machine.space_setTable_of_ne shorter hother,
      hemptying.others other hother]
  · rw [hown]
    exact List.Subset.trans (resourcesOf_remove_subset _ _) hemptying.bound
  · rw [hown, hshutDown, ← hemptying.network]
    exact (shutDown_perm horderly.links hperm).symm

/-- The tickets are of no account. -/
theorem congr
    (hemptying : base.Emptying machine space) (hbare : next.bare = machine.bare)
    (hquiet : next.pending = []) : base.Emptying next space := by
  obtain ⟨htree, hnetwork, hfiles, hlisteners, hconnections, hspaces⟩ := fields_of_bare hbare
  have hspace : ∀ other, next.space other = machine.space other := space_congr hspaces
  have hclosing : next.closing? = machine.closing? :=
    closing?_congr (by rw [hlisteners]) (by rw [hconnections])
  have hleft := hemptying.left
  refine ⟨⟨htree.trans hleft.tree, hfiles.trans hleft.files, hquiet, ?_, ?_, ?_, ?_,
    hclosing.trans hleft.closing⟩, ?_, ?_, ?_, ?_, ?_⟩
  · rw [hlisteners]
    exact hleft.listeners
  · rw [hlisteners]
    exact hleft.listener
  · rw [hconnections]
    exact hleft.connections
  · rw [hconnections]
    exact hleft.connection
  · rw [hspaces]
    exact hemptying.spaces
  · rw [hspace]
    exact hemptying.configuration
  · intro other hother
    rw [hspace, hemptying.others other hother]
  · rw [hspace]
    exact hemptying.bound
  · rw [hspace, ← hemptying.network]
    unfold shutDown
    rw [hclosing, hnetwork]

/-- Once all handles of the space are closed, everything that they were bound to is shut
down. -/
theorem emptied
    (hemptying : base.Emptying machine space) (hgood : (machine.space space).table.WellFormed)
    (hnone : ∀ handle, machine.lookup space handle = none) :
    machine.network = base.shutDown (resourcesOf (base.space space).table) ∧
      (machine.space space).table.size = 0 := by
  have hnil := resourcesOf_eq_nil hgood hnone
  have hnetwork := hemptying.network
  rw [hnil] at hnetwork
  refine ⟨hnetwork, ?_⟩
  rw [← length_resourcesOf, hnil]
  rfl

end Emptying

end Machine

end ResourceHandles
