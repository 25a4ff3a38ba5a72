import ResourceHandles.Proofs.Machine.Tickets

/-!
# Shut resources

A listener or a connection is shut once its close signal is raised.  It stays shut,
and an action on it ends as soon as it is carried out, in the same way whatever has
arrived or arrives.  Closing a handle shuts what the handle is bound to.
-/

namespace ResourceHandles

/-- A listener whose handle was taken. -/
def Listener.released (listener : Listener) : Listener :=
  { listener with signal := listener.signal.raise, held := false }

namespace Machine

variable {machine next : Machine} {log : List Record} {record : Record}

/-- The close signal of a resource is raised. -/
def Shut (machine : Machine) : Resource → Prop
  | .file _ => False
  | .listener number =>
    ∃ listener, machine.listeners[number]? = some listener ∧ listener.signal.raised = true
  | .connection number =>
    ∃ connection,
      machine.connections[number]? = some connection ∧ connection.signal.raised = true

/-! ## Listeners along a run -/

theorem listeners_letGo (machine : Machine) (resource : Resource) :
    (machine.letGo resource).listeners = machine.listeners := by
  rw [letGo_eq]

theorem listeners_forget (machine : Machine) (pending : Pending) :
    (machine.forget pending).listeners = machine.listeners := by
  rw [forget_eq]

theorem listeners_unbind_listener
    (machine : Machine) (space : Nat) (handle : Handle) (number : Nat) :
    (machine.unbind space handle (.listener number)).listeners =
      machine.listeners.modify number Listener.released :=
  List.modify_modify_eq _ _ number machine.listeners

theorem listeners_unbind
    (machine : Machine) (space : Nat) (handle : Handle) (resource : Resource) :
    (machine.unbind space handle resource).listeners.length = machine.listeners.length ∧
      ∀ (number : Nat) (listener : Listener),
        machine.listeners[number]? = some listener →
          ∃ later : Listener,
            (machine.unbind space handle resource).listeners[number]? = some later ∧
              (listener.signal.raised = true → later.signal.raised = true) := by
  cases resource with
  | file file => exact ⟨rfl, fun number listener hlistener => ⟨listener, hlistener, id⟩⟩
  | connection other => exact ⟨rfl, fun number listener hlistener => ⟨listener, hlistener, id⟩⟩
  | listener released =>
      rw [listeners_unbind_listener]
      refine ⟨List.length_modify _ _ _, ?_⟩
      intro number listener hlistener
      rw [List.getElem?_modify, hlistener]
      by_cases hnumber : released = number
      · exact ⟨listener.released, by simp [hnumber], fun _ => rfl⟩
      · exact ⟨listener, by simp [hnumber], id⟩

theorem Performed.listeners
    {space amount : Nat} {action : Action} {progress : Progress}
    (hperformed : machine.Performed space amount action next progress) :
    ∃ added, next.listeners = machine.listeners ++ added := by
  cases hperformed with
  | listening hbind => exact ⟨_, rfl⟩
  | ended =>
      unfold endSending
      split
      · exact ⟨[], (List.append_nil _).symm⟩
      · exact ⟨[], (List.append_nil _).symm⟩
  | _ => exact ⟨[], (List.append_nil _).symm⟩

/-- No transition drops a listener, and none lowers its signal. -/
theorem Transition.listeners
    (htransition : machine.Transition record next)
    {number : Nat} {listener : Listener}
    (hlistener : machine.listeners[number]? = some listener) :
    ∃ later : Listener,
      next.listeners[number]? = some later ∧
        (listener.signal.raised = true → later.signal.raised = true) := by
  have hlt := (List.getElem?_eq_some_iff.mp hlistener).1
  have hperformed :
      ∀ {performed : Machine} {space amount : Nat} {action : Action} {progress : Progress},
        machine.perform space amount action = (performed, progress) →
          performed.listeners[number]? = some listener := by
    intro performed space amount action progress hperform
    obtain ⟨added, hadded⟩ := (performed_of_perform hperform).listeners
    rw [hadded, List.getElem?_append_left hlt]
    exact hlistener
  cases htransition with
  | refused howner hfound hclose hreply => exact ⟨listener, hlistener, id⟩
  | parked howner hleads => exact ⟨listener, hlistener, id⟩
  | performed howner hcall hfree hperform => exact ⟨listener, hperformed hperform, id⟩
  | closed howner hbound =>
      rw [listeners_letGo]
      exact (machine.listeners_unbind _ _ _).2 number listener hlistener
  | closing howner hbound haction =>
      exact (machine.listeners_unbind _ _ _).2 number listener hlistener
  | finished hpending hturn hperform =>
      rw [listeners_forget]
      exact ⟨listener, hperformed hperform, id⟩
  | @continued pending amount performed rest hpending hturn hperform =>
      have hkept : performed.listeners[number]? = some listener := hperformed hperform
      exact ⟨listener, hkept, id⟩
  | abandoned hpending =>
      rw [listeners_forget]
      exact ⟨listener, hlistener, id⟩
  | exhausted _ => exact ⟨listener, hlistener, id⟩

theorem Change.length_listeners (hchange : machine.Change next) :
    machine.listeners.length ≤ next.listeners.length := by
  have hperformed :
      ∀ {performed : Machine} {space amount : Nat} {action : Action} {progress : Progress},
        machine.perform space amount action = (performed, progress) →
          machine.listeners.length ≤ performed.listeners.length := by
    intro performed space amount action progress hperform
    obtain ⟨added, hadded⟩ := (performed_of_perform hperform).listeners
    rw [hadded, List.length_append]
    exact Nat.le_add_right _ _
  cases hchange with
  | same => exact le_rfl
  | parked hleads => exact le_rfl
  | performed hfree hperform => exact hperformed hperform
  | closed hbound =>
      rw [listeners_letGo, (machine.listeners_unbind _ _ _).1]
  | closing hbound haction => exact (machine.listeners_unbind _ _ _).1.ge
  | finished hpending hperform =>
      rw [listeners_forget]
      exact hperformed hperform
  | @continued pending amount performed rest hpending hperform =>
      have hkept : machine.listeners.length ≤ performed.listeners.length := hperformed hperform
      exact hkept
  | abandoned hpending => rw [listeners_forget]
  | exhausted _ => exact le_rfl

/-- Every bound listener is there. -/
def ListenersBound (machine : Machine) : Prop :=
  ∀ space handle number,
    machine.lookup space handle = some (.listener number) →
      number < machine.listeners.length

theorem lookup_congr
    (hspaces : next.spaces = machine.spaces) (space : Nat) (handle : Handle) :
    next.lookup space handle = machine.lookup space handle := by
  unfold lookup
  rw [space_congr hspaces]

theorem listenersBound_boot
    (tree : FileTree) (routed : Bool) (capacity : Nat) (configurations : List Configuration) :
    (boot tree routed capacity configurations).ListenersBound := by
  intro space handle number hbound
  have hlt := raw_lt_next_of_lookup (bindingsSound_boot tree routed capacity configurations) hbound
  have hempty : ((boot tree routed capacity configurations).space space).table = {} := by
    unfold boot Machine.space
    simp only [List.getD_eq_getElem?_getD, List.getElem?_map]
    cases configurations[space]? with
    | none => rfl
    | some configuration => rfl
  unfold lookup at hbound
  rw [hempty] at hbound
  cases hbound

/-- A machine with new resources, of which one is bound, binds no listener but that. -/
theorem lookup_listener_of_grown
    (grown : Machine) (hspaces : grown.spaces = machine.spaces) {owner : Nat}
    {added : Resource} {space : Nat} {handle : Handle} {number : Nat}
    (hgood : (machine.space space).table.WellFormed)
    (hlookup : (grown.bindHandle owner added).1.lookup space handle = some (.listener number)) :
    machine.lookup space handle = some (.listener number) ∨
      (space = owner ∧ handle = ⟨(machine.space owner).table.next⟩ ∧ added = .listener number) := by
  have hbound := (bindHandle_congr hspaces owner added).1
  rcases lookup_of_bindHandle hbound hgood hlookup with hold | ⟨howner, hhandle, hnew⟩
  · exact Or.inl hold
  · exact Or.inr ⟨howner, hhandle, hnew.symm⟩

theorem lookup_listener_of_connection
    (grown : Machine) (hspaces : grown.spaces = machine.spaces) {owner : Nat} {endId : EndId}
    {space : Nat} {handle : Handle} {number : Nat}
    (hgood : (machine.space space).table.WellFormed)
    (hlookup :
      (grown.addConnection owner endId).1.lookup space handle = some (.listener number)) :
    machine.lookup space handle = some (.listener number) := by
  let connection : Connection :=
    { endId := endId, bufferSize := (grown.space owner).configuration.bufferSize }
  rcases lookup_listener_of_grown
    { grown with connections := grown.connections ++ [connection] } hspaces hgood hlookup
    with hold | ⟨-, -, hnew⟩
  · exact hold
  · cases hnew

/-- A listener is bound as it was before, or is new and bound to a new handle. -/
theorem Performed.lookup_listener
    {owner amount : Nat} {action : Action} {progress : Progress}
    (hperformed : machine.Performed owner amount action next progress)
    {space : Nat} {handle : Handle} {number : Nat}
    (hgood : (machine.space space).table.WellFormed)
    (hlookup : next.lookup space handle = some (.listener number)) :
    machine.lookup space handle = some (.listener number) ∨
      (space = owner ∧ handle = ⟨(machine.space owner).table.next⟩ ∧
        number = machine.listeners.length ∧ number < next.listeners.length) := by
  cases hperformed with
  | @opened path access tree file =>
      rcases lookup_listener_of_grown
        { machine with tree := tree, files := machine.files ++ [file] }
        rfl hgood hlookup with hold | ⟨-, -, hnew⟩
      · exact Or.inl hold
      · cases hnew
  | @listening endpoint network socket hbind =>
      let listener : Listener := { socket := socket }
      rcases lookup_listener_of_grown
        { machine with network := network, listeners := machine.listeners ++ [listener] }
        rfl hgood hlookup with hold | ⟨howner, hhandle, hnew⟩
      · exact Or.inl hold
      · cases hnew
        refine Or.inr ⟨howner, hhandle, rfl, ?_⟩
        show machine.listeners.length < (machine.listeners ++ [listener]).length
        simp
  | @connected endpoint network endId hreach =>
      exact Or.inl
        (lookup_listener_of_connection { machine with network := network } rfl hgood hlookup)
  | @accepted _ listener network endId htake =>
      exact Or.inl
        (lookup_listener_of_connection { machine with network := network } rfl hgood hlookup)
  | ended =>
      unfold endSending at hlookup
      split at hlookup
      · exact Or.inl hlookup
      · exact Or.inl hlookup
  | _ => exact Or.inl hlookup

/-- At most one listener is bound anew, in one space. -/
theorem Change.lookup_listener
    (hchange : machine.Change next) (htables : ∀ space, (machine.space space).table.WellFormed) :
    ∃ owner, ∀ space handle number,
      next.lookup space handle = some (.listener number) →
        machine.lookup space handle = some (.listener number) ∨
          (space = owner ∧ handle = ⟨(machine.space owner).table.next⟩ ∧
            number = machine.listeners.length ∧ number < next.listeners.length) := by
  cases hchange with
  | same => exact ⟨0, fun space handle number => Or.inl⟩
  | parked hleads => exact ⟨0, fun space handle number => Or.inl⟩
  | performed hfree hperform =>
      exact ⟨_, fun space handle number hlookup =>
        (performed_of_perform hperform).lookup_listener (htables space) hlookup⟩
  | closed hbound =>
      exact ⟨0, fun space handle number hlookup => Or.inl
        (lookup_of_unbind (lt_length_of_lookup hbound) (spaces_letGo _ _) (htables space)
          hlookup).1⟩
  | closing hbound haction =>
      exact ⟨0, fun space handle number hlookup => Or.inl
        (lookup_of_unbind (lt_length_of_lookup hbound) (spaces_park _ _ _) (htables space)
          hlookup).1⟩
  | @finished pending amount performed reply hpending hperform =>
      refine ⟨pending.space, fun space handle number hlookup => ?_⟩
      rw [lookup_congr (spaces_forget performed pending)] at hlookup
      rw [listeners_forget]
      exact (performed_of_perform hperform).lookup_listener (htables space) hlookup
  | @continued pending amount performed rest hpending hperform =>
      exact ⟨pending.space, fun space handle number hlookup =>
        (performed_of_perform hperform).lookup_listener (htables space) hlookup⟩
  | abandoned hpending =>
      refine ⟨0, fun space handle number hlookup => Or.inl ?_⟩
      rwa [lookup_congr (spaces_forget machine _)] at hlookup
  | exhausted _ => exact ⟨0, fun space handle number => Or.inl⟩

theorem ListenersBound.change
    (hlisteners : machine.ListenersBound)
    (htables : ∀ space, (machine.space space).table.WellFormed) (hchange : machine.Change next) :
    next.ListenersBound := by
  intro space handle number hlookup
  obtain ⟨owner, hbinds⟩ := hchange.lookup_listener htables
  rcases hbinds space handle number hlookup with hold | ⟨-, -, -, hnew⟩
  · exact (hlisteners space handle number hold).trans_le hchange.length_listeners
  · exact hnew

theorem ListenersBound.transition
    (hlisteners : machine.ListenersBound) (hsound : machine.Sound)
    (htransition : machine.Transition record next) :
    next.ListenersBound :=
  hlisteners.change hsound.bindings.tables htransition.change

/-! ## Shut for ever -/

theorem Transition.shut
    (htransition : machine.Transition record next) {resource : Resource}
    (hshut : machine.Shut resource) :
    next.Shut resource := by
  cases resource with
  | file number => exact hshut
  | listener number =>
      obtain ⟨listener, hlistener, hraised⟩ := hshut
      obtain ⟨later, hlater, hkept⟩ := htransition.listeners hlistener
      exact ⟨later, hlater, hkept hraised⟩
  | connection number =>
      obtain ⟨connection, hconnection, hraised⟩ := hshut
      obtain ⟨later, hlater, hages⟩ := htransition.connections hconnection
      refine ⟨later, hlater, ?_⟩
      by_contra hlowered
      rw [hages.raised (by simpa using hlowered)] at hraised
      cases hraised

theorem shut_unbind
    (hsound : machine.Sound) (hlisteners : machine.ListenersBound)
    {space : Nat} {handle : Handle} {resource : Resource}
    (hbound : machine.lookup space handle = some resource)
    (hsocket : ∀ number, resource ≠ .file number) :
    (machine.unbind space handle resource).Shut resource := by
  cases resource with
  | file number => exact absurd rfl (hsocket number)
  | listener number =>
      have hlt := hlisteners space handle number hbound
      refine ⟨machine.listeners[number].released, ?_, rfl⟩
      rw [listeners_unbind_listener, List.getElem?_modify, List.getElem?_eq_getElem hlt]
      simp
  | connection number =>
      obtain ⟨connection, hconnection, -⟩ := hsound.bindings.held space handle number hbound
      refine ⟨connection.released, ?_, rfl⟩
      rw [connections_unbind_connection, List.getElem?_modify, hconnection]
      simp

theorem shut_letGo
    {resource : Resource} (released : Resource) (hshut : machine.Shut resource) :
    (machine.letGo released).Shut resource := by
  unfold Shut at hshut ⊢
  rw [listeners_letGo, connections_letGo]
  exact hshut

theorem shut_park
    {resource : Resource} (space : Nat) (action : Action) (hshut : machine.Shut resource) :
    (machine.park space action).1.Shut resource := by
  cases resource with
  | file number => exact hshut
  | listener number => exact hshut
  | connection number => exact hshut

/-- Closing a handle shuts its resource; the close is answered at once, or waits. -/
theorem Transition.shut_of_close
    (hsound : machine.Sound) (hlisteners : machine.ListenersBound)
    {space : Nat} {handle : Handle} {found : Option Resource} {result : Started}
    {resource : Resource}
    (htransition :
      machine.Transition (.started space (.close handle) found result) next)
    (hbound : machine.lookup space handle = some resource)
    (hsocket : ∀ number, resource ≠ .file number) :
    next.Shut resource ∧
      (result = .answered .done ∨
        ∃ pending ∈ next.pending,
          result = .waiting pending.ticket ∧ pending.action.Serves (.close handle) resource) := by
  have hshut := shut_unbind hsound hlisteners hbound hsocket
  cases htransition with
  | refused howner hfound hclose hreply =>
      have hnone := hclose handle rfl
      rw [found_of_handle? rfl, hbound] at hnone
      cases hnone
  | parked howner hleads =>
      rcases hleads with ⟨hnone, -⟩ | hfits
      · cases hnone
      · cases hfits
  | performed howner hcall hfree hperform => cases hcall
  | @closed _ _ other howner hother =>
      have hsame : machine.lookup space handle = some other := hother
      rw [hbound, Option.some.injEq] at hsame
      subst hsame
      exact ⟨shut_letGo resource hshut, Or.inl rfl⟩
  | @closing _ _ other action howner hother haction =>
      have hsame : machine.lookup space handle = some other := hother
      rw [hbound, Option.some.injEq] at hsame
      subst hsame
      have hticket := (machine.unbind_frame space handle resource).2.2
      refine ⟨shut_park space action hshut,
        Or.inr ⟨⟨machine.nextTicket, space, action⟩, ?_, rfl, ?_⟩⟩
      · rw [← hticket]
        exact List.mem_append_right _ (List.mem_singleton_self _)
      · exact serves_of_closingAction handle haction

/-! ## Actions on a shut resource -/

/-- An action on a shut resource ends at once, and binds no handle. -/
theorem perform_of_shut
    {resource : Resource} (hshut : machine.Shut resource) {action : Action}
    (haction : action.resource? = some resource) (space amount : Nat) :
    ∃ performed : Machine,
      machine.perform space amount action = (performed, .finished action.closedReply) ∧
        performed.spaces = machine.spaces := by
  cases action with
  | accept number =>
      cases haction
      obtain ⟨listener, hlistener, hraised⟩ := hshut
      refine ⟨machine, ?_, rfl⟩
      simp only [perform, accept, hlistener, hraised, if_true]
      rfl
  | receive handle number =>
      cases haction
      obtain ⟨connection, hconnection, hraised⟩ := hshut
      refine ⟨machine, ?_, rfl⟩
      simp only [perform, receive, hconnection, hraised, if_true]
      rfl
  | send handle number data =>
      cases haction
      obtain ⟨connection, hconnection, hraised⟩ := hshut
      refine ⟨machine, ?_, rfl⟩
      simp only [perform, send, hconnection, hraised, if_true]
      rfl
  | endSending number =>
      refine ⟨machine.endSending number, rfl, ?_⟩
      unfold endSending
      split
      · rfl
      · rfl
  | closeFile number =>
      cases haction
      exact hshut.elim
  | readFile handle number =>
      cases haction
      exact hshut.elim
  | writeFile handle number data =>
      cases haction
      exact hshut.elim
  | _ => cases haction

/-- An action on a shut resource that is in turn is over after one step. -/
theorem step?_of_shut
    (hsound : machine.Sound) {resource : Resource} (hshut : machine.Shut resource)
    {pending : Pending} (hmem : pending ∈ machine.pending)
    (haction : pending.action.resource? = some resource)
    (hturn : machine.inTurn pending = true) (amount : Nat) :
    ∃ performed : Machine,
      machine.step? (.advance pending.ticket amount) =
          some (performed.forget pending,
            .advanced pending (some pending.action.closedReply)) ∧
        performed.pending = machine.pending := by
  obtain ⟨performed, hperform, -⟩ :=
    perform_of_shut hshut haction pending.space amount
  have hpending := pending?_of_mem hsound.waiting hmem
  refine ⟨performed, ?_, (performed_of_perform hperform).pending.1⟩
  simp only [step?, advance?, hpending, hturn, hperform, Bool.not_true, Bool.false_eq_true,
    if_false]

end Machine

end ResourceHandles
