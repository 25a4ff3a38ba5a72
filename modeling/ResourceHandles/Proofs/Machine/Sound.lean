import ResourceHandles.Proofs.Machine.Waiting

/-!
# Sound machines

A machine is sound if its links, its bindings and its waiting actions are.  A
machine on which nothing has happened is sound, and every transition keeps it so.
-/

namespace ResourceHandles

namespace Machine

/-- What holds of a machine whatever is done with it. -/
structure Orderly (machine : Machine) : Prop where
  links : LinksSound machine.network machine.connections
  bindings : machine.BindingsSound
  waiting : machine.WaitingSound none

/-- What holds of a machine at every point of a run.  A connection whose handle was taken is
signalled, as long as no space is dropped with all its handles. -/
structure Sound (machine : Machine) : Prop extends Orderly machine where
  unheldRaised :
    ∀ connection ∈ machine.connections, connection.held = !connection.signal.raised

theorem orderly_boot
    (tree : FileTree) (routed : Bool) (capacity : Nat) (configurations : List Configuration) :
    (boot tree routed capacity configurations).Orderly := by
  constructor
  · exact LinksSound.boot routed capacity
  · exact bindingsSound_boot tree routed capacity configurations
  · exact waitingSound_boot tree routed capacity configurations

theorem sound_boot
    (tree : FileTree) (routed : Bool) (capacity : Nat) (configurations : List Configuration) :
    (boot tree routed capacity configurations).Sound :=
  ⟨orderly_boot tree routed capacity configurations,
    fun _ hmem => absurd hmem List.not_mem_nil⟩

theorem resource?_of_leadsTo
    {call : Call} {found : Option Resource} {action : Action}
    (hleads : call.LeadsTo found action) :
    action.resource? = none ∨ action.resource? = found := by
  rcases hleads with ⟨-, hfree⟩ | hfits
  · exact Or.inl hfree
  · right
    unfold Call.actionOn? at hfits
    split at hfits
    all_goals first | (cases hfits; rfl) | cases hfits

theorem not_endSending_of_leadsTo
    {call : Call} {found : Option Resource} {action : Action}
    (hleads : call.LeadsTo found action) (number : Nat) :
    action ≠ .endSending number := by
  intro haction
  subst haction
  rcases hleads with ⟨-, hfree⟩ | hfits
  · cases hfree
  · unfold Call.actionOn? at hfits
    split at hfits
    all_goals cases hfits

theorem lookup_of_found
    {machine : Machine} {space : Nat} {call : Call} {resource : Resource}
    (hfound : machine.found space call = some resource) :
    ∃ handle, call.handle? = some handle ∧ machine.lookup space handle = some resource := by
  unfold found at hfound
  cases hhandle : call.handle? with
  | none => simp [hhandle] at hfound
  | some handle =>
      rw [hhandle] at hfound
      exact ⟨handle, rfl, hfound⟩

theorem Performed.continues
    {machine next : Machine} {space amount : Nat} {action rest : Action}
    (hperformed : machine.Performed space amount action next (.continues rest)) :
    ∃ handle number data count,
      action = .send handle number data ∧ rest = .send handle number (data.drop count) := by
  generalize hprogress : Progress.continues rest = progress at hperformed
  cases hperformed with
  | @sent handle number data connection network count hconnection hraised hsend =>
      split at hprogress
      · cases hprogress
      · cases hprogress
        exact ⟨handle, number, data, count, rfl, rfl⟩
  | _ => cases hprogress

theorem Change.linksSound
    {machine next : Machine} (horderly : machine.Orderly) (hchange : machine.Change next) :
    LinksSound next.network next.connections := by
  have hlinks := horderly.links
  have hwaiting := horderly.waiting
  cases hchange with
  | same => exact hlinks
  | parked hleads => exact hlinks
  | performed hfree hperform =>
      apply (performed_of_perform hperform).linksSound hlinks
      intro number connection haction
      rw [haction] at hfree
      cases hfree
  | closed hbound => exact linksSound_letGo (linksSound_unbind hlinks _ _ _) _
  | closing hbound haction => exact linksSound_unbind hlinks _ _ _
  | @finished pending amount performed reply hpending hperform =>
      have hperformed :=
        (performed_of_perform hperform).linksSound hlinks
          (hwaiting.ending pending (mem_of_pending? hpending))
      exact linksSound_forget hperformed pending
  | @continued pending amount performed rest hpending hperform =>
      exact (performed_of_perform hperform).linksSound hlinks
        (hwaiting.ending pending (mem_of_pending? hpending))
  | abandoned hpending => exact linksSound_forget hlinks _
  | exhausted _ => exact { hlinks with }

theorem Change.waitingSound
    {machine next : Machine} (horderly : machine.Orderly) (hchange : machine.Change next) :
    next.WaitingSound none := by
  have hlinks := horderly.links
  have hwaiting := horderly.waiting
  cases hchange with
  | same => exact hwaiting
  | @parked space call action hleads =>
      apply hwaiting.park space (Or.inl rfl)
      · intro number hresource
        rcases resource?_of_leadsTo hleads with hfree | hsame
        · rw [hfree] at hresource
          cases hresource
        · rw [hsame] at hresource
          obtain ⟨handle, -, hlookup⟩ := lookup_of_found hresource
          exact horderly.bindings.lt_length hlookup
      · intro number connection haction
        exact absurd haction (not_endSending_of_leadsTo hleads number)
  | performed hfree hperform => exact hwaiting.performed hlinks (performed_of_perform hperform)
  | closed hbound => exact (hwaiting.unbind _ _ _).letGo
  | @closing space handle resource action hbound haction =>
      cases resource with
      | file number =>
          cases haction
          apply (hwaiting.unbind space handle (.file number)).park space (Or.inr rfl)
          · intro other hother
            cases hother
          · intro other connection hother
            cases hother
      | listener number => cases haction
      | connection number =>
          cases haction
          apply (hwaiting.unbind space handle (.connection number)).park space (Or.inr rfl)
          · intro other hother
            cases hother
            rw [(machine.connections_unbind space handle _).1]
            exact horderly.bindings.lt_length hbound
          · intro other connection hother hconnection
            cases hother
            rw [connections_unbind_connection, List.getElem?_modify] at hconnection
            simp only [if_true] at hconnection
            obtain ⟨old, -, hreleased⟩ := Option.map_eq_some_iff.mp hconnection
            rw [← hreleased]
            rfl
  | @finished pending amount performed reply hpending hperform =>
      have hperformed := performed_of_perform hperform
      have hmem : pending ∈ performed.pending := by
        rw [hperformed.pending.1]
        exact mem_of_pending? hpending
      exact (hwaiting.performed hlinks hperformed).forget hmem
  | @continued pending amount performed rest hpending hperform =>
      have hperformed := performed_of_perform hperform
      have hmem : pending ∈ performed.pending := by
        rw [hperformed.pending.1]
        exact mem_of_pending? hpending
      obtain ⟨handle, number, data, count, haction, hrest⟩ := hperformed.continues
      apply (hwaiting.performed hlinks hperformed).replace hmem
      · rw [haction, hrest]
        rfl
      · intro other hother
        rw [hrest] at hother
        cases hother
  | abandoned hpending => exact hwaiting.forget (mem_of_pending? hpending)
  | exhausted _ => exact { hwaiting with }

theorem Change.orderly
    {machine next : Machine} (horderly : machine.Orderly) (hchange : machine.Change next) :
    next.Orderly :=
  ⟨hchange.linksSound horderly, horderly.bindings.rebinds hchange.rebinds,
    hchange.waitingSound horderly⟩

/-- A handle is taken together with the signal. -/
theorem Rebinds.unheldRaised
    {machine : Machine} {spaces : List HandleSpace} {connections : List Connection}
    (hrebinds : machine.Rebinds spaces connections)
    (hbefore :
      ∀ connection ∈ machine.connections, connection.held = !connection.signal.raised) :
    ∀ connection ∈ connections, connection.held = !connection.signal.raised := by
  cases hrebinds with
  | same => exact hbefore
  | binds hbinds =>
      cases hbinds with
      | nothing hreply => exact hbefore
      | other hother => exact hbefore
      | connection endId =>
          intro connection hmem
          rcases List.mem_append.mp hmem with hold | hnew
          · exact hbefore connection hold
          · cases List.mem_singleton.mp hnew
            rfl
  | @unbinds space handle resource hspace hbound =>
      cases resource with
      | file number => exact hbefore
      | listener number => exact hbefore
      | connection number =>
          intro connection hmem
          rw [connections_unbind_connection] at hmem
          rcases mem_of_mem_modify hmem with hsame | ⟨old, -, hreleased⟩
          · exact hbefore connection hsame
          · rw [hreleased]
            rfl

theorem Transition.sound
    {machine next : Machine} {record : Record} (hsound : machine.Sound)
    (htransition : machine.Transition record next) :
    next.Sound :=
  ⟨htransition.change.orderly hsound.toOrderly,
    htransition.rebinds.unheldRaised hsound.unheldRaised⟩

end Machine

namespace Machine

/-! ## Where waiting actions come from -/

/-- Where an action that waits comes from: it waited before, a call or a close left
it, or it is what is left of a write. -/
inductive Origin (machine : Machine) (pending : Pending) : Prop where
  | waited (hmem : pending ∈ machine.pending)
  | parked {call : Call}
      (hleads : call.LeadsTo (machine.found pending.space call) pending.action)
  | closing {resource : Resource} (haction : closingAction resource = some pending.action)
  | continued {earlier : Pending} {handle : Handle} {number count : Nat} {data : Bytes}
      (hmem : earlier ∈ machine.pending) (hsend : earlier.action = .send handle number data)
      (hrest : pending = { earlier with action := .send handle number (data.drop count) })

theorem closingAction_cases
    {resource : Resource} {action : Action} (haction : closingAction resource = some action) :
    (∃ file, action = .closeFile file) ∨ ∃ number, action = .endSending number := by
  cases resource with
  | file number =>
      cases haction
      exact Or.inl ⟨number, rfl⟩
  | listener number => cases haction
  | connection number =>
      cases haction
      exact Or.inr ⟨number, rfl⟩

theorem Transition.origin
    {machine next : Machine} {record : Record} {pending : Pending} (hsound : machine.Sound)
    (htransition : machine.Transition record next) (hmem : pending ∈ next.pending) :
    machine.Origin pending := by
  cases htransition with
  | refused howner hfound hclose hreply => exact Origin.waited hmem
  | @parked space call action howner hleads =>
      rcases List.mem_append.mp hmem with hold | hnew
      · exact Origin.waited hold
      · rw [List.mem_singleton] at hnew
        subst hnew
        exact Origin.parked hleads
  | performed howner hcall hfree hperform =>
      rw [(performed_of_perform hperform).pending.1] at hmem
      exact Origin.waited hmem
  | closed howner hbound =>
      rw [(letGo_pending _ _).1, (unbind_frame _ _ _ _).2.1] at hmem
      exact Origin.waited hmem
  | @closing space handle resource action howner hbound haction =>
      rcases List.mem_append.mp hmem with hold | hnew
      · rw [(unbind_frame _ _ _ _).2.1] at hold
        exact Origin.waited hold
      · rw [List.mem_singleton] at hnew
        subst hnew
        exact Origin.closing haction
  | finished hpending hturn hperform =>
      rw [forget_pending, (performed_of_perform hperform).pending.1] at hmem
      exact Origin.waited (List.mem_of_mem_filter hmem)
  | @continued earlier amount performed rest hpending hturn hperform =>
      have hperformed := performed_of_perform hperform
      obtain ⟨handle, number, data, count, haction, hrest⟩ := hperformed.continues
      unfold Machine.replace at hmem
      rw [hperformed.pending.1] at hmem
      obtain ⟨other, hother, hreplaced⟩ := List.mem_map.mp hmem
      split at hreplaced
      · next hticket =>
          have hsame := hsound.waiting.eq_of_ticket hother (mem_of_pending? hpending) hticket
          subst hsame
          rw [hrest] at hreplaced
          exact Origin.continued hother haction hreplaced.symm
      · subst hreplaced
        exact Origin.waited hother
  | abandoned hpending =>
      rw [forget_pending] at hmem
      exact Origin.waited (List.mem_of_mem_filter hmem)
  | exhausted _ => exact Origin.waited hmem

end Machine

end ResourceHandles
