import ResourceHandles.Proofs.Machine.Belongings
import ResourceHandles.Proofs.Machine.Sound
import ResourceHandles.Proofs.Session.Keeping

/-!
# Sessions keep their machine in order

What a call or a waiting action changes leaves links, bindings and waiting actions sound.
So does giving up a runtime: whatever was bound in its space is bound nowhere else, and is
closed unless an action still uses it.
-/

namespace ResourceHandles

namespace Machine

variable {machine next : Machine} {resource : Resource}

/-! ## The invariant -/

theorem WaitingSound.congr
    {transit : Option Resource} (hwaiting : machine.WaitingSound transit)
    (hnetwork : next.network = machine.network)
    (hconnections : next.connections = machine.connections)
    (hpending : next.pending = machine.pending)
    (hticket : next.nextTicket = machine.nextTicket) : next.WaitingSound transit := by
  have hused : next.isUsed = machine.isUsed := by
    funext resource
    unfold isUsed
    rw [hpending]
  constructor
  · rw [hpending]
    exact hwaiting.tickets
  · rw [hpending, hticket]
    exact hwaiting.ticketsOld
  · rw [hpending, hconnections]
    exact hwaiting.inRange
  · rw [hpending, hconnections]
    exact hwaiting.ending
  · rw [hconnections, hused, hnetwork]
    exact hwaiting.closed

/-- Spaces may change if nothing is bound that was not bound before. -/
theorem BindingsSound.shrink
    (hsound : machine.BindingsSound) (hconnections : next.connections = machine.connections)
    (htables : ∀ space, (next.space space).table.WellFormed)
    (hlookup :
      ∀ space handle number, next.lookup space handle = some (.connection number) →
        machine.lookup space handle = some (.connection number) ∧
          (next.space space).configuration = (machine.space space).configuration) :
    next.BindingsSound := by
  constructor
  · exact htables
  · intro space handle number hbound
    obtain ⟨hold, hconfiguration⟩ := hlookup space handle number hbound
    rw [hconnections, hconfiguration]
    exact hsound.held space handle number hold
  · intro space handle other otherHandle number hbound hother
    exact hsound.unique space handle other otherHandle number (hlookup _ _ _ hbound).1
      (hlookup _ _ _ hother).1

theorem Orderly.congr
    (horderly : machine.Orderly) (hnetwork : next.network = machine.network)
    (hconnections : next.connections = machine.connections)
    (hspaces : next.spaces = machine.spaces) (hpending : next.pending = machine.pending)
    (hticket : next.nextTicket = machine.nextTicket) : next.Orderly := by
  have hspace : ∀ space, next.space space = machine.space space := space_congr hspaces
  refine ⟨?_, ?_, horderly.waiting.congr hnetwork hconnections hpending hticket⟩
  · rw [hnetwork, hconnections]
    exact horderly.links
  · apply horderly.bindings.shrink hconnections
    · intro space
      rw [hspace]
      exact horderly.bindings.tables space
    · intro space handle number hbound
      unfold lookup at hbound ⊢
      rw [hspace] at hbound ⊢
      exact ⟨hbound, rfl⟩

theorem Orderly.addSpace (horderly : machine.Orderly) (configuration : Configuration) :
    (machine.addSpace configuration).1.Orderly := by
  refine ⟨horderly.links, ?_, horderly.waiting.congr rfl rfl rfl rfl⟩
  refine @BindingsSound.shrink machine (machine.addSpace configuration).1 horderly.bindings rfl
    ?_ ?_
  · intro space
    rw [space_addSpace]
    split
    · exact HandleTable.wellFormed_empty
    · exact horderly.bindings.tables space
  · intro space handle number hbound
    unfold lookup at hbound ⊢
    rw [space_addSpace] at hbound ⊢
    split at hbound
    · cases hbound
    · next hold =>
        rw [if_neg hold]
        exact ⟨hbound, rfl⟩

/-! ## Dropping -/

/-- Nothing is bound to a resource. -/
def Unbound (machine : Machine) (resource : Resource) : Prop :=
  ∀ number, resource = .connection number →
    ∀ space handle, machine.lookup space handle ≠ some (.connection number)

theorem Orderly.drop
    (horderly : machine.Orderly) (hunbound : machine.Unbound resource) :
    (machine.drop resource).Orderly := by
  have hlinks : LinksSound (machine.unhold resource).network
      (machine.unhold resource).connections := by
    cases resource with
    | file number => exact horderly.links
    | listener number => exact horderly.links
    | connection number =>
        exact horderly.links.release number (fun _ => rfl) fun _ => rfl
  have hwaiting : (machine.unhold resource).WaitingSound (some resource) := by
    cases resource with
    | file number =>
        exact horderly.waiting.release rfl rfl rfl rfl fun _ _ => Or.inl
    | listener number =>
        exact horderly.waiting.release rfl rfl rfl rfl fun _ _ => Or.inl
    | connection released =>
        refine horderly.waiting.release rfl rfl rfl (List.length_modify _ _ _) ?_
        intro number connection hconnection
        rcases released_of_modify (fun _ => rfl) hconnection with hold | ⟨rfl, hunheld⟩
        · exact Or.inl hold
        · exact Or.inr ⟨rfl, hunheld⟩
  have hspace : ∀ space, (machine.drop resource).space space = machine.space space :=
    space_congr (machine.spaces_drop resource)
  have hlookup : (machine.drop resource).lookup = machine.lookup := by
    funext space handle
    unfold lookup
    rw [hspace]
  refine ⟨linksSound_letGo hlinks resource, ⟨?_, ?_, ?_⟩, hwaiting.letGo⟩
  · intro space
    rw [hspace]
    exact horderly.bindings.tables space
  · intro space handle number hbound
    rw [hlookup] at hbound
    obtain ⟨connection, hconnection, hheld⟩ := horderly.bindings.held space handle number hbound
    rw [hspace, Machine.drop, connections_letGo]
    refine ⟨connection, ?_, hheld⟩
    cases resource with
    | file other => exact hconnection
    | listener other => exact hconnection
    | connection other =>
        have hne : other ≠ number := by
          rintro rfl
          exact hunbound other rfl space handle hbound
        rw [Machine.unhold, List.getElem?_modify]
        simp [hne, hconnection]
  · rw [hlookup]
    exact horderly.bindings.unique

theorem Orderly.dropAll
    {resources : List Resource} (horderly : machine.Orderly)
    (hunbound : ∀ resource ∈ resources, machine.Unbound resource) :
    (resources.foldl Machine.drop machine).Orderly := by
  induction resources generalizing machine with
  | nil => exact horderly
  | cons resource resources ih =>
      apply ih (horderly.drop (hunbound resource List.mem_cons_self))
      intro other hother number hnumber space handle
      unfold lookup
      rw [space_congr (machine.spaces_drop resource)]
      exact hunbound other (List.mem_cons_of_mem _ hother) number hnumber space handle

/-- Once a space is emptied, everything that is bound was bound before, in another space. -/
theorem lookup_of_emptied
    {space other : Nat} {handle : Handle}
    (hbound : (machine.setTable space {}).lookup other handle = some resource) :
    machine.lookup other handle = some resource ∧ other ≠ space := by
  by_cases hother : other = space
  · subst hother
    have hspace : other < machine.spaces.length := by
      have hlength := lt_length_of_lookup hbound
      rwa [length_spaces_setTable] at hlength
    unfold lookup at hbound
    rw [machine.space_setTable_self {} hspace] at hbound
    cases hbound
  · unfold lookup at hbound ⊢
    rw [machine.space_setTable_of_ne {} hother] at hbound
    exact ⟨hbound, hother⟩

theorem Orderly.dropSpace (horderly : machine.Orderly) (space : Nat) :
    (machine.dropSpace space).Orderly := by
  have hcleared : (machine.setTable space {}).Orderly := by
    refine ⟨horderly.links, ?_, horderly.waiting.congr rfl rfl rfl rfl⟩
    refine @BindingsSound.shrink machine (machine.setTable space {}) horderly.bindings rfl ?_ ?_
    · intro other
      rcases machine.table_setTable space other {} with hsame | ⟨-, hempty⟩
      · rw [hsame]
        exact horderly.bindings.tables other
      · rw [hempty]
        exact HandleTable.wellFormed_empty
    · intro other handle number hbound
      exact ⟨(lookup_of_emptied hbound).1, machine.configuration_setTable _ _ _⟩
  apply hcleared.dropAll
  rintro _ hmem number rfl other handle hbound
  -- The connection was bound in the space that is dropped, and so in no other one.
  obtain ⟨owned, howned⟩ := (mem_resourcesOf_iff (horderly.bindings.tables space)).mp hmem
  obtain ⟨hold, hne⟩ := lookup_of_emptied hbound
  exact hne (horderly.bindings.unique other handle space owned number hold howned).1

theorem lasting_orderly : Lasting Orderly where
  change machine next hchange horderly := hchange.orderly horderly
  addSpace machine configuration horderly := horderly.addSpace configuration
  dropSpace machine space horderly := horderly.dropSpace space
  writeOpen machine handle number data horderly := by
    unfold Machine.writeFile
    split
    · exact horderly
    · split
      · exact horderly
      · exact horderly.congr rfl rfl rfl rfl rfl
  writeFile machine path data tree hwrite horderly := horderly.congr rfl rfl rfl rfl rfl
  makeDirectories machine path horderly := horderly.congr rfl rfl rfl rfl rfl
  save machine path configuration horderly := horderly.congr rfl rfl rfl rfl rfl

end Machine

end ResourceHandles
