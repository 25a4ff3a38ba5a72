import ResourceHandles.Proofs.Machine.Links
import ResourceHandles.Proofs.Machine.Tables

/-!
# Handles and connections

A connection is bound to one handle at most, over all handle spaces, and it is held
as long as it is bound.  The reason is freshness on both sides: a new connection is
bound under a number that was not used before to a handle that was not used before,
and a connection whose handle is taken is not bound again.
-/

namespace ResourceHandles

namespace Machine

/-- What a handle of a space stands for. -/
def lookup (machine : Machine) (space : Nat) (handle : Handle) : Option Resource :=
  (machine.space space).table.get? handle

theorem lt_length_of_lookup
    {machine : Machine} {space : Nat} {handle : Handle} {resource : Resource}
    (hlookup : machine.lookup space handle = some resource) :
    space < machine.spaces.length := by
  by_contra hmissing
  unfold lookup Machine.space at hlookup
  rw [List.getD_eq_getElem?_getD, List.getElem?_eq_none (Nat.not_lt.mp hmissing)] at hlookup
  cases hlookup

/-! ## Operations that leave the connections alone -/

@[simp] theorem connections_letGo (machine : Machine) (resource : Resource) :
    (machine.letGo resource).connections = machine.connections := by
  rw [letGo_eq]

@[simp] theorem connections_forget (machine : Machine) (pending : Pending) :
    (machine.forget pending).connections = machine.connections := by
  rw [forget_eq]

@[simp] theorem connections_replace (machine : Machine) (ticket : Nat) (action : Action) :
    (machine.replace ticket action).connections = machine.connections := rfl

@[simp] theorem connections_park (machine : Machine) (space : Nat) (action : Action) :
    (machine.park space action).1.connections = machine.connections := rfl

theorem connections_unbind_connection
    (machine : Machine) (space : Nat) (handle : Handle) (number : Nat) :
    (machine.unbind space handle (.connection number)).connections =
      machine.connections.modify number Connection.released :=
  List.modify_modify_eq _ _ number machine.connections

/-! ## How bindings change -/

/-- How a transition may change the spaces and the connections. -/
inductive Rebinds (machine : Machine) : List HandleSpace → List Connection → Prop where
  | same : Rebinds machine machine.spaces machine.connections
  | binds {space : Nat} {spaces : List HandleSpace} {connections : List Connection}
      {progress : Progress}
      (hbinds : machine.Binds space spaces connections progress) :
      Rebinds machine spaces connections
  | unbinds {space : Nat} {handle : Handle} {resource : Resource}
      (hspace : space < machine.spaces.length)
      (hbound : machine.lookup space handle = some resource) :
      Rebinds machine (machine.unbind space handle resource).spaces
        (machine.unbind space handle resource).connections

theorem Change.rebinds
    {machine next : Machine} (hchange : machine.Change next) :
    machine.Rebinds next.spaces next.connections := by
  cases hchange with
  | same => exact Rebinds.same
  | parked hleads => exact Rebinds.same
  | performed hfree hperform => exact Rebinds.binds (performed_of_perform hperform).binds
  | closed hbound =>
      rw [spaces_letGo, connections_letGo]
      exact Rebinds.unbinds (lt_length_of_lookup hbound) hbound
  | closing hbound haction =>
      rw [spaces_park, connections_park]
      exact Rebinds.unbinds (lt_length_of_lookup hbound) hbound
  | finished hpending hperform =>
      rw [spaces_forget, connections_forget]
      exact Rebinds.binds (performed_of_perform hperform).binds
  | continued hpending hperform =>
      rw [spaces_replace, connections_replace]
      exact Rebinds.binds (performed_of_perform hperform).binds
  | abandoned hpending =>
      rw [spaces_forget, connections_forget]
      exact Rebinds.same
  | exhausted _ => exact Rebinds.same

theorem Transition.rebinds
    {machine next : Machine} {record : Record}
    (htransition : machine.Transition record next) :
    machine.Rebinds next.spaces next.connections :=
  htransition.change.rebinds

theorem table_setTable
    (machine : Machine) (space other : Nat) (table : HandleTable Nat Nat Nat) :
    ((machine.setTable space table).space other).table = (machine.space other).table ∨
      (other = space ∧ ((machine.setTable space table).space other).table = table) := by
  by_cases hother : other = space
  · subst hother
    by_cases hspace : other < machine.spaces.length
    · right
      rw [machine.space_setTable_self table hspace]
      exact ⟨rfl, rfl⟩
    · left
      simp [setTable, Machine.space, List.getD_eq_getElem?_getD, hspace]
  · left
    rw [machine.space_setTable_of_ne table hother]

theorem lookup_of_bindHandle
    {machine next : Machine} {owner : Nat} {added : Resource}
    (hspaces : next.spaces = (machine.bindHandle owner added).1.spaces)
    {space : Nat} {handle : Handle} {resource : Resource}
    (hgood : (machine.space space).table.WellFormed)
    (hlookup : next.lookup space handle = some resource) :
    machine.lookup space handle = some resource ∨
      (space = owner ∧ handle = ⟨(machine.space owner).table.next⟩ ∧ resource = added) := by
  unfold lookup at hlookup ⊢
  have hspace :
      next.space space =
        (machine.setTable owner ((machine.space owner).table.insert added).1).space space :=
    space_congr hspaces space
  rw [hspace] at hlookup
  rcases machine.table_setTable owner space ((machine.space owner).table.insert added).1
    with hsame | ⟨howner, hinserted⟩
  · rw [hsame] at hlookup
    exact Or.inl hlookup
  · subst howner
    rw [hinserted] at hlookup
    by_cases hnew : handle = ⟨(machine.space space).table.next⟩
    · subst hnew
      rw [hgood.get?_insert_self added, Option.some.injEq] at hlookup
      exact Or.inr ⟨rfl, rfl, hlookup.symm⟩
    · rw [HandleTable.get?_insert_of_ne _ _ hnew] at hlookup
      exact Or.inl hlookup

theorem lookup_unbind_of_ne
    (machine : Machine) {space : Nat} {handle other : Handle} (resource : Resource)
    (hspace : space < machine.spaces.length) (hne : other ≠ handle) :
    (machine.unbind space handle resource).lookup space other =
      machine.lookup space other := by
  unfold lookup
  rw [space_unbind_self _ _ _ hspace]
  exact HandleTable.get?_remove_of_ne _ hne

theorem lookup_of_unbind
    {machine next : Machine} {owner : Nat} {closed : Handle} {released : Resource}
    (howner : owner < machine.spaces.length)
    (hspaces : next.spaces = (machine.unbind owner closed released).spaces)
    {space : Nat} {handle : Handle} {resource : Resource}
    (hgood : (machine.space space).table.WellFormed)
    (hlookup : next.lookup space handle = some resource) :
    machine.lookup space handle = some resource ∧ ¬(space = owner ∧ handle = closed) := by
  rw [spaces_unbind] at hspaces
  unfold lookup at hlookup ⊢
  rw [space_congr hspaces] at hlookup
  by_cases hspace : space = owner
  · subst hspace
    rw [machine.space_setTable_self _ howner] at hlookup
    by_cases hclosed : handle = closed
    · subst hclosed
      rw [hgood.get?_remove_self] at hlookup
      cases hlookup
    · rw [HandleTable.get?_remove_of_ne _ hclosed] at hlookup
      exact ⟨hlookup, fun hboth => hclosed hboth.2⟩
  · rw [machine.space_setTable_of_ne _ hspace] at hlookup
    exact ⟨hlookup, fun hboth => hspace hboth.1⟩

theorem Rebinds.configuration
    {machine next : Machine} {connections : List Connection}
    (hrebinds : machine.Rebinds next.spaces connections) (space : Nat) :
    (next.space space).configuration = (machine.space space).configuration := by
  generalize hspaces : next.spaces = spaces at hrebinds
  cases hrebinds with
  | same => rw [space_congr hspaces]
  | binds hbinds =>
      cases hbinds with
      | nothing hreply => rw [space_congr hspaces]
      | other hother =>
          rw [space_congr hspaces]
          exact machine.configuration_setTable _ _ _
      | connection endId =>
          rw [space_congr hspaces]
          exact machine.configuration_setTable _ _ _
  | unbinds hspace hbound =>
      rw [spaces_unbind] at hspaces
      rw [space_congr hspaces]
      exact machine.configuration_setTable _ _ _

/-! ## The invariant -/

/-- What holds of handles and connections at all times. -/
structure BindingsSound (machine : Machine) : Prop where
  tables : ∀ space, (machine.space space).table.WellFormed
  held :
    ∀ space handle number,
      machine.lookup space handle = some (.connection number) →
        ∃ connection,
          machine.connections[number]? = some connection ∧ connection.held = true ∧
            connection.bufferSize = (machine.space space).configuration.bufferSize
  unique :
    ∀ space handle other otherHandle number,
      machine.lookup space handle = some (.connection number) →
        machine.lookup other otherHandle = some (.connection number) →
          space = other ∧ handle = otherHandle

theorem BindingsSound.lt_length
    {machine : Machine} (hsound : machine.BindingsSound)
    {space : Nat} {handle : Handle} {number : Nat}
    (hbound : machine.lookup space handle = some (.connection number)) :
    number < machine.connections.length := by
  obtain ⟨connection, hconnection, -⟩ := hsound.held space handle number hbound
  exact (List.getElem?_eq_some_iff.mp hconnection).1

theorem bindingsSound_boot
    (tree : FileTree) (routed : Bool) (capacity : Nat) (configurations : List Configuration) :
    (boot tree routed capacity configurations).BindingsSound := by
  have htable :
      ∀ space, ((boot tree routed capacity configurations).space space).table = {} := by
    intro space
    unfold boot Machine.space
    simp only [List.getD_eq_getElem?_getD, List.getElem?_map]
    cases configurations[space]? with
    | none => rfl
    | some configuration => rfl
  constructor
  · intro space
    rw [htable]
    exact HandleTable.wellFormed_empty
  · intro space handle number hbound
    unfold lookup at hbound
    rw [htable] at hbound
    cases hbound
  · intro space handle other otherHandle number hbound hother
    unfold lookup at hbound
    rw [htable] at hbound
    cases hbound

theorem Rebinds.table
    {machine next : Machine} {connections : List Connection}
    (hrebinds : machine.Rebinds next.spaces connections) (space : Nat) :
    (next.space space).table = (machine.space space).table ∨
      (∃ resource,
        (next.space space).table = ((machine.space space).table.insert resource).1) ∨
      ∃ handle, (next.space space).table = ((machine.space space).table.remove handle).1 := by
  have hset :
      ∀ owner table, next.spaces = (machine.setTable owner table).spaces →
        (next.space space).table = (machine.space space).table ∨
          (space = owner ∧ (next.space space).table = table) := by
    intro owner table hspaces
    rw [space_congr hspaces]
    exact machine.table_setTable owner space table
  generalize hspaces : next.spaces = spaces at hrebinds
  cases hrebinds with
  | same =>
      left
      rw [space_congr hspaces]
  | @binds owner spaces connections progress hbinds =>
      cases hbinds with
      | nothing hreply =>
          left
          rw [space_congr hspaces]
      | @other resource hother =>
          rcases hset owner _ hspaces with hsame | ⟨rfl, hinserted⟩
          · exact Or.inl hsame
          · exact Or.inr (Or.inl ⟨resource, hinserted⟩)
      | connection endId =>
          rcases hset owner _ hspaces with hsame | ⟨rfl, hinserted⟩
          · exact Or.inl hsame
          · exact Or.inr (Or.inl ⟨.connection machine.connections.length, hinserted⟩)
  | @unbinds owner handle resource howner hbound =>
      rw [spaces_unbind] at hspaces
      rcases hset owner _ hspaces with hsame | ⟨rfl, hremoved⟩
      · exact Or.inl hsame
      · exact Or.inr (Or.inr ⟨handle, hremoved⟩)

theorem Rebinds.wellFormed
    {machine next : Machine} {connections : List Connection}
    (hrebinds : machine.Rebinds next.spaces connections)
    (htables : ∀ space, (machine.space space).table.WellFormed) (space : Nat) :
    (next.space space).table.WellFormed := by
  rcases hrebinds.table space with hsame | ⟨resource, hinserted⟩ | ⟨handle, hremoved⟩
  · rw [hsame]
    exact htables space
  · rw [hinserted]
    exact (htables space).insert resource
  · rw [hremoved]
    exact (htables space).remove handle

theorem Rebinds.next_le
    {machine next : Machine} {connections : List Connection}
    (hrebinds : machine.Rebinds next.spaces connections) (space : Nat) :
    (machine.space space).table.next ≤ (next.space space).table.next := by
  rcases hrebinds.table space with hsame | ⟨resource, hinserted⟩ | ⟨handle, hremoved⟩
  · rw [hsame]
  · rw [hinserted, HandleTable.insert_next]
    omega
  · rw [hremoved, HandleTable.remove_next]

/-- A binding is as old as the one before, or the one new binding, which is new on
both sides. -/
theorem Rebinds.lookup
    {machine next : Machine}
    (hrebinds : machine.Rebinds next.spaces next.connections)
    (htables : ∀ space, (machine.space space).table.WellFormed) :
    ∃ owner, ∀ space handle number,
      next.lookup space handle = some (.connection number) →
        machine.lookup space handle = some (.connection number) ∨
          (space = owner ∧ handle = ⟨(machine.space owner).table.next⟩ ∧
            number = machine.connections.length ∧
            ∃ endId,
              next.connections =
                machine.connections ++
                  [{ endId := endId
                     bufferSize := (machine.space owner).configuration.bufferSize }]) := by
  generalize hspaces : next.spaces = spaces at hrebinds
  generalize hconnections : next.connections = connections at hrebinds ⊢
  have hsame :
      next.spaces = machine.spaces → ∀ space handle,
        next.lookup space handle = machine.lookup space handle := by
    intro hequal space handle
    unfold Machine.lookup
    rw [space_congr hequal]
  cases hrebinds with
  | same =>
      refine ⟨0, fun space handle number hlookup => Or.inl ?_⟩
      rwa [← hsame hspaces]
  | @binds owner spaces connections progress hbinds =>
      refine ⟨owner, fun space handle number hlookup => ?_⟩
      cases hbinds with
      | nothing hreply =>
          left
          rwa [← hsame hspaces]
      | @other resource hother =>
          rcases lookup_of_bindHandle hspaces (htables space) hlookup
            with hold | ⟨-, -, hresource⟩
          · exact Or.inl hold
          · exact absurd hresource.symm (hother number)
      | connection endId =>
          rcases lookup_of_bindHandle hspaces (htables space) hlookup
            with hold | ⟨howner, hhandle, hresource⟩
          · exact Or.inl hold
          · cases hresource
            exact Or.inr ⟨howner, hhandle, rfl, endId, rfl⟩
  | unbinds howner hbound =>
      refine ⟨0, fun space handle number hlookup => Or.inl ?_⟩
      exact (lookup_of_unbind howner hspaces (htables space) hlookup).1

/-- A bound connection stays bound, or it is closed. -/
theorem Rebinds.bound_or_raised
    {machine next : Machine}
    (hrebinds : machine.Rebinds next.spaces next.connections)
    (hsound : machine.BindingsSound) {space : Nat} {handle : Handle} {number : Nat}
    (hbound : machine.lookup space handle = some (.connection number)) :
    next.lookup space handle = some (.connection number) ∨
      ∃ connection,
        next.connections[number]? = some connection ∧ connection.signal.raised = true := by
  generalize hspaces : next.spaces = spaces at hrebinds
  generalize hconnections : next.connections = connections at hrebinds
  have hinsert :
      ∀ owner resource, next.spaces = (machine.bindHandle owner resource).1.spaces →
        next.lookup space handle = some (.connection number) := by
    intro owner resource hequal
    have hset :
        next.space space =
          (machine.setTable owner ((machine.space owner).table.insert resource).1).space
            space :=
      space_congr hequal space
    unfold Machine.lookup at hbound ⊢
    rw [hset]
    rcases machine.table_setTable owner space ((machine.space owner).table.insert resource).1
      with hsame | ⟨rfl, hwritten⟩
    · rw [hsame]
      exact hbound
    · have hold : handle ≠ ⟨(machine.space space).table.next⟩ := by
        intro hnew
        have hfresh :=
          (HandleTable.get?_eq_none_iff _ _).mpr (hsound.tables space).next_notMem
        rw [hnew, hfresh] at hbound
        cases hbound
      rw [hwritten, HandleTable.get?_insert_of_ne _ _ hold]
      exact hbound
  cases hrebinds with
  | same =>
      left
      unfold Machine.lookup at hbound ⊢
      rw [space_congr hspaces]
      exact hbound
  | binds hbinds =>
      cases hbinds with
      | nothing hreply =>
          left
          unfold Machine.lookup at hbound ⊢
          rw [space_congr hspaces]
          exact hbound
      | other hother => exact Or.inl (hinsert _ _ hspaces)
      | connection endId => exact Or.inl (hinsert _ (.connection _) hspaces)
  | @unbinds owner closed resource howner hreleased =>
      rw [spaces_unbind] at hspaces
      by_cases hclosed : space = owner ∧ handle = closed
      · right
        obtain ⟨rfl, rfl⟩ := hclosed
        rw [hbound, Option.some.injEq] at hreleased
        subst hreleased
        obtain ⟨connection, hconnection, -⟩ := hsound.held space handle number hbound
        refine ⟨connection.released, ?_, rfl⟩
        rw [connections_unbind_connection, List.getElem?_modify, hconnection]
        simp
      · left
        unfold Machine.lookup at hbound ⊢
        rw [space_congr hspaces]
        rcases machine.table_setTable owner space
          ((machine.space owner).table.remove closed).1 with hsame | ⟨rfl, hwritten⟩
        · rw [hsame]
          exact hbound
        · have hne : handle ≠ closed := fun hsame => hclosed ⟨rfl, hsame⟩
          rw [hwritten, HandleTable.get?_remove_of_ne _ hne]
          exact hbound

theorem Rebinds.connection
    {machine next : Machine}
    (hrebinds : machine.Rebinds next.spaces next.connections)
    (hsound : machine.BindingsSound)
    {space : Nat} {handle : Handle} {number : Nat} {connection : Connection}
    (hlookup : next.lookup space handle = some (.connection number))
    (hconnection : machine.connections[number]? = some connection) :
    next.connections[number]? = some connection := by
  have hlt := (List.getElem?_eq_some_iff.mp hconnection).1
  generalize hspaces : next.spaces = spaces at hrebinds
  generalize hconnections : next.connections = connections at hrebinds ⊢
  cases hrebinds with
  | same => exact hconnection
  | binds hbinds =>
      cases hbinds with
      | nothing hreply => exact hconnection
      | other hother => exact hconnection
      | connection endId =>
          rw [List.getElem?_append_left hlt]
          exact hconnection
  | @unbinds owner closed resource howner hbound =>
      obtain ⟨hold, hopen⟩ := lookup_of_unbind howner hspaces (hsound.tables space) hlookup
      cases resource with
      | file file => exact hconnection
      | listener listener => exact hconnection
      | connection released =>
          rw [connections_unbind_connection, List.getElem?_modify]
          have hne : released ≠ number := by
            intro hsame
            subst hsame
            exact hopen (hsound.unique _ _ _ _ _ hold hbound)
          simp [hne, hconnection]

theorem BindingsSound.rebinds
    {machine next : Machine} (hsound : machine.BindingsSound)
    (hrebinds : machine.Rebinds next.spaces next.connections) :
    next.BindingsSound := by
  obtain ⟨owner, hlookup⟩ := hrebinds.lookup hsound.tables
  constructor
  · exact hrebinds.wellFormed hsound.tables
  · intro space handle number hbound
    rw [hrebinds.configuration]
    rcases hlookup space handle number hbound with hold | ⟨rfl, -, hnumber, endId, hadded⟩
    · obtain ⟨connection, hconnection, hheld⟩ := hsound.held space handle number hold
      exact ⟨connection, hrebinds.connection hsound hbound hconnection, hheld⟩
    · rw [hadded, hnumber, List.getElem?_concat_length]
      exact ⟨_, rfl, rfl, rfl⟩
  · intro space handle other otherHandle number hbound hother
    rcases hlookup space handle number hbound with hold | ⟨hspace, hhandle, hnumber, -⟩
    · rcases hlookup other otherHandle number hother with hotherOld | ⟨-, -, hnumber, -⟩
      · exact hsound.unique space handle other otherHandle number hold hotherOld
      · exact absurd hnumber (hsound.lt_length hold).ne
    · rcases hlookup other otherHandle number hother with hotherOld | ⟨hotherSpace, hotherHandle, -⟩
      · exact absurd hnumber (hsound.lt_length hotherOld).ne
      · rw [hspace, hotherSpace, hhandle, hotherHandle]
        exact ⟨rfl, rfl⟩

end Machine

end ResourceHandles
