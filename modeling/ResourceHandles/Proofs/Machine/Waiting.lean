import ResourceHandles.Proofs.Machine.Bindings

/-!
# Waiting actions

Tickets are not used twice, a waiting action finds its connection, and sending is
ended only where no handle is bound any more.  A connection that is neither held
nor used is closed: while it is handed from a handle to an action, or from an action
to nobody, it is in transit, and for the time of the transit it may be neither.
-/

namespace ResourceHandles

namespace Machine

/-- What holds of waiting actions, with a resource that may be in transit. -/
structure WaitingSound (machine : Machine) (transit : Option Resource) : Prop where
  tickets : (machine.pending.map Pending.ticket).Nodup
  ticketsOld : ∀ pending ∈ machine.pending, pending.ticket < machine.nextTicket
  inRange :
    ∀ pending ∈ machine.pending, ∀ number,
      pending.action.resource? = some (.connection number) →
        number < machine.connections.length
  ending :
    ∀ pending ∈ machine.pending, ∀ number connection,
      pending.action = .endSending number →
        machine.connections[number]? = some connection → connection.held = false
  closed :
    ∀ number connection,
      transit ≠ some (.connection number) →
        machine.connections[number]? = some connection → connection.held = false →
          machine.isUsed (.connection number) = true ∨
            (machine.network.getEnd connection.endId).isOpen = false

theorem waitingSound_boot
    (tree : FileTree) (routed : Bool) (capacity : Nat) (configurations : List Configuration) :
    (boot tree routed capacity configurations).WaitingSound none := by
  constructor
  · simp [boot]
  · simp [boot]
  · simp [boot]
  · simp [boot]
  · simp [boot]

theorem isUsed_iff (machine : Machine) (resource : Resource) :
    machine.isUsed resource = true ↔
      ∃ pending ∈ machine.pending, pending.action.resource? = some resource := by
  simp [isUsed]

theorem mem_of_pending?
    {machine : Machine} {ticket : Nat} {pending : Pending}
    (hpending : machine.pending? ticket = some pending) :
    pending ∈ machine.pending :=
  List.mem_of_find?_eq_some hpending

/-- All tickets have been used up. -/
def TicketsOld (machine : Machine) : Prop :=
  ∀ pending ∈ machine.pending, pending.ticket < machine.nextTicket

/-- What is put at the end under a new ticket is found under it. -/
theorem TicketsOld.pending?_of_append
    {machine next : Machine} {pending : Pending} (hold : machine.TicketsOld)
    (hticket : pending.ticket = machine.nextTicket)
    (hpending : next.pending = machine.pending ++ [pending]) :
    next.pending? pending.ticket = some pending := by
  have hnone :
      (machine.pending.find? fun other => other.ticket == pending.ticket) = none := by
    rw [List.find?_eq_none]
    intro other hother
    have hlt := hold other hother
    simp only [beq_iff_eq]
    omega
  unfold pending?
  rw [hpending, List.find?_append, hnone]
  simp

theorem WaitingSound.eq_of_ticket
    {machine : Machine} {transit : Option Resource} (hsound : machine.WaitingSound transit)
    {pending other : Pending}
    (hpending : pending ∈ machine.pending) (hother : other ∈ machine.pending)
    (hticket : pending.ticket = other.ticket) :
    pending = other :=
  List.inj_on_of_nodup_map hsound.tickets hpending hother hticket

/-! ## Carrying out an action -/

/-- Whether an action receives or sends. -/
def MovesBytes (action : Action) : Prop :=
  (∃ handle number, action = .receive handle number) ∨
    ∃ handle number data, action = .send handle number data

theorem Performed.stirs
    {machine next : Machine} {space amount : Nat} {action : Action} {progress : Progress}
    (hperformed : machine.Performed space amount action next progress) :
    machine.network.Stirs (MovesBytes action) next.network := by
  cases hperformed with
  | idle hlane hreply => exact Network.Stirs.still rfl
  | opened => exact Network.Stirs.still rfl
  | listening hbind =>
      unfold bindAt at hbind
      split at hbind
      · cases hbind
      · exact Network.Stirs.still (Network.bind_eq_ok hbind).1
  | connected hreach =>
      unfold reach at hreach
      split at hreach
      · cases hreach
      · exact Network.Stirs.linked (Network.connect_eq_ok hreach).2.1
  | accepted htake => exact Network.Stirs.still (Network.takeWaiting?_eq_some htake).1
  | received hconnection hraised hreceive =>
      exact Network.Stirs.moved (Or.inl ⟨_, _, rfl⟩) (Network.moves_of_receive hreceive)
  | unreceived hconnection hreceive =>
      exact Network.Stirs.moved (Or.inl ⟨_, _, rfl⟩) (Network.moves_of_receive hreceive)
  | receiverGone hgone => exact Network.Stirs.still rfl
  | sent hconnection hraised hsend =>
      exact Network.Stirs.moved (Or.inr ⟨_, _, _, rfl⟩) (Network.moves_of_send hsend)
  | unsent hconnection hsend =>
      exact Network.Stirs.moved (Or.inr ⟨_, _, _, rfl⟩) (Network.moves_of_send hsend)
  | senderGone hgone => exact Network.Stirs.still rfl
  | ended =>
      unfold endSending
      split
      · exact Network.Stirs.still rfl
      · exact Network.Stirs.ending _
  | blocked => exact Network.Stirs.still rfl

theorem Performed.linksSound
    {machine next : Machine} {space amount : Nat} {action : Action} {progress : Progress}
    (hperformed : machine.Performed space amount action next progress)
    (hlinks : LinksSound machine.network machine.connections)
    (hending :
      ∀ number connection,
        action = .endSending number → machine.connections[number]? = some connection →
          connection.held = false) :
    LinksSound next.network next.connections := by
  cases hperformed with
  | idle hlane hreply => exact hlinks
  | opened => exact hlinks
  | listening hbind =>
      unfold bindAt at hbind
      split at hbind
      · cases hbind
      · obtain ⟨hsame, hwaiting⟩ := Network.bind_eq_ok hbind
        exact hlinks.bind hsame hwaiting
  | @connected endpoint network endId hreach =>
      unfold reach at hreach
      split at hreach
      · cases hreach
      · obtain ⟨hcaller, hadded, front, back, hbefore, hafter⟩ := Network.connect_eq_ok hreach
        subst hcaller
        exact hlinks.connect hadded hbefore hafter _
  | @accepted number listener network endId htake =>
      obtain ⟨hsame, link, front, back, hanswerer, hbefore, hafter⟩ :=
        Network.takeWaiting?_eq_some htake
      subst hanswerer
      exact hlinks.accept hsame hbefore hafter _
  | received hconnection hraised hreceive =>
      exact hlinks.moves (Network.moves_of_receive hreceive)
  | unreceived hconnection hreceive =>
      exact hlinks.moves (Network.moves_of_receive hreceive)
  | receiverGone hgone => exact hlinks
  | sent hconnection hraised hsend => exact hlinks.moves (Network.moves_of_send hsend)
  | unsent hconnection hsend => exact hlinks.moves (Network.moves_of_send hsend)
  | senderGone hgone => exact hlinks
  | @ended number =>
      unfold endSending
      split
      · exact hlinks
      · next connection hconnection =>
          exact hlinks.endSending (List.mem_of_getElem? hconnection)
            (hending number connection rfl hconnection)
  | blocked => exact hlinks

theorem Binds.connections
    {machine : Machine} {space : Nat} {spaces : List HandleSpace}
    {connections : List Connection} {progress : Progress}
    (hbinds : machine.Binds space spaces connections progress) :
    ∃ added, connections = machine.connections ++ added ∧
      ∀ connection ∈ added, connection.held = true := by
  cases hbinds with
  | nothing hreply => exact ⟨[], by simp, by simp⟩
  | other hother => exact ⟨[], by simp, by simp⟩
  | connection endId => exact ⟨_, rfl, by simp⟩

theorem WaitingSound.performed
    {machine next : Machine} {transit : Option Resource} {space amount : Nat} {action : Action}
    {progress : Progress}
    (hsound : machine.WaitingSound transit)
    (hlinks : LinksSound machine.network machine.connections)
    (hperformed : machine.Performed space amount action next progress) :
    next.WaitingSound transit := by
  obtain ⟨hpending, hticket⟩ := hperformed.pending
  obtain ⟨added, hadded, hheld⟩ := hperformed.binds.connections
  have hold :
      ∀ {number : Nat} {connection : Connection},
        next.connections[number]? = some connection →
          connection.held = false → machine.connections[number]? = some connection := by
    intro number connection hconnection hunheld
    rw [hadded] at hconnection
    by_cases hnumber : number < machine.connections.length
    · rwa [List.getElem?_append_left hnumber] at hconnection
    · rw [List.getElem?_append_right (Nat.not_lt.mp hnumber)] at hconnection
      rw [hheld connection (List.mem_of_getElem? hconnection)] at hunheld
      cases hunheld
  constructor
  · rw [hpending]
    exact hsound.tickets
  · rw [hpending, hticket]
    exact hsound.ticketsOld
  · rw [hpending, hadded]
    intro pending hmem number hresource
    have hlt := hsound.inRange pending hmem number hresource
    rw [List.length_append]
    omega
  · rw [hpending]
    intro pending hmem number connection haction hconnection
    have hlt : number < machine.connections.length := by
      apply hsound.inRange pending hmem number
      rw [haction]
      rfl
    rw [hadded, List.getElem?_append_left hlt] at hconnection
    exact hsound.ending pending hmem number connection haction hconnection
  · intro number connection htransit hconnection hunheld
    have hbefore := hold hconnection hunheld
    have hlink := hlinks.inLinks connection (List.mem_of_getElem? hbefore)
    rw [hperformed.stirs.isOpen hlink]
    have hused : next.isUsed (.connection number) = machine.isUsed (.connection number) := by
      unfold isUsed
      rw [hpending]
    rw [hused]
    exact hsound.closed number connection htransit hbefore hunheld

/-! ## Parking, replacing and forgetting -/

theorem WaitingSound.park
    {machine : Machine} {transit : Option Resource} (hsound : machine.WaitingSound transit)
    (space : Nat) {action : Action}
    (htransit : transit = none ∨ transit = action.resource?)
    (hrange :
      ∀ number, action.resource? = some (.connection number) →
        number < machine.connections.length)
    (hending :
      ∀ number connection,
        action = .endSending number → machine.connections[number]? = some connection →
          connection.held = false) :
    (machine.park space action).1.WaitingSound none := by
  have hpending :
      (machine.park space action).1.pending =
        machine.pending ++ [⟨machine.nextTicket, space, action⟩] := rfl
  constructor
  · rw [hpending, List.map_append, List.map_singleton, List.nodup_append_comm,
      List.singleton_append, List.nodup_cons]
    refine ⟨?_, hsound.tickets⟩
    intro hmem
    obtain ⟨pending, hold, hticket⟩ := List.mem_map.mp hmem
    have hlt := hsound.ticketsOld pending hold
    rw [hticket] at hlt
    exact lt_irrefl _ hlt
  · intro pending hmem
    have hnext : (machine.park space action).1.nextTicket = machine.nextTicket + 1 := rfl
    rw [hnext]
    rw [hpending, List.mem_append, List.mem_singleton] at hmem
    rcases hmem with hold | rfl
    · have hlt := hsound.ticketsOld pending hold
      omega
    · exact Nat.lt_succ_self _
  · intro pending hmem
    rw [hpending, List.mem_append, List.mem_singleton] at hmem
    rcases hmem with hold | rfl
    · exact hsound.inRange pending hold
    · exact hrange
  · intro pending hmem
    rw [hpending, List.mem_append, List.mem_singleton] at hmem
    rcases hmem with hold | rfl
    · exact hsound.ending pending hold
    · exact hending
  · intro number connection _ hconnection hunheld
    by_cases hself : action.resource? = some (.connection number)
    · left
      rw [isUsed_iff]
      refine ⟨⟨machine.nextTicket, space, action⟩, ?_, hself⟩
      rw [hpending]
      simp
    · have hnot : transit ≠ some (.connection number) := by
        rcases htransit with hnone | hsame
        · rw [hnone]
          simp
        · rw [hsame]
          exact hself
      rcases hsound.closed number connection hnot hconnection hunheld with hused | hclosed
      · left
        rw [isUsed_iff] at hused ⊢
        obtain ⟨pending, hmem, hresource⟩ := hused
        refine ⟨pending, ?_, hresource⟩
        rw [hpending]
        exact List.mem_append_left _ hmem
      · exact Or.inr hclosed

theorem WaitingSound.replace
    {machine : Machine} (hsound : machine.WaitingSound none)
    {pending : Pending} (hmem : pending ∈ machine.pending) {rest : Action}
    (hresource : rest.resource? = pending.action.resource?)
    (hending : ∀ number, rest ≠ .endSending number) :
    (machine.replace pending.ticket rest).WaitingSound none := by
  have hsplit :
      ∀ {other : Pending}, other ∈ (machine.replace pending.ticket rest).pending →
        other ∈ machine.pending ∨ other = { pending with action := rest } := by
    intro other hother
    obtain ⟨old, hold, hreplaced⟩ := List.mem_map.mp hother
    by_cases hticket : old.ticket = pending.ticket
    · rw [if_pos hticket] at hreplaced
      rw [hsound.eq_of_ticket hold hmem hticket] at hreplaced
      exact Or.inr hreplaced.symm
    · rw [if_neg hticket] at hreplaced
      exact Or.inl (hreplaced ▸ hold)
  have hback :
      ∀ {other : Pending}, other ∈ machine.pending →
        ∃ now ∈ (machine.replace pending.ticket rest).pending,
          now.action.resource? = other.action.resource? := by
    intro other hother
    refine ⟨_, List.mem_map_of_mem hother, ?_⟩
    by_cases hticket : other.ticket = pending.ticket
    · rw [if_pos hticket, hsound.eq_of_ticket hother hmem hticket]
      exact hresource
    · rw [if_neg hticket]
  constructor
  · have htickets :
        (machine.replace pending.ticket rest).pending.map Pending.ticket =
          machine.pending.map Pending.ticket := by
      unfold Machine.replace
      rw [List.map_map]
      apply List.map_congr_left
      intro other _
      simp only [Function.comp_apply]
      split
      · rfl
      · rfl
    rw [htickets]
    exact hsound.tickets
  · intro other hother
    rcases hsplit hother with hold | rfl
    · exact hsound.ticketsOld other hold
    · exact hsound.ticketsOld pending hmem
  · intro other hother number hconnection
    rcases hsplit hother with hold | rfl
    · exact hsound.inRange other hold number hconnection
    · rw [hresource] at hconnection
      exact hsound.inRange pending hmem number hconnection
  · intro other hother number connection haction
    rcases hsplit hother with hold | rfl
    · exact hsound.ending other hold number connection haction
    · exact absurd haction (hending number)
  · intro number connection htransit hconnection hunheld
    rcases hsound.closed number connection htransit hconnection hunheld with hused | hclosed
    · left
      rw [isUsed_iff] at hused ⊢
      obtain ⟨other, hother, hotherResource⟩ := hused
      obtain ⟨now, hnow, hsame⟩ := hback hother
      exact ⟨now, hnow, hsame.trans hotherResource⟩
    · exact Or.inr hclosed

theorem letGo_cases (machine : Machine) (resource : Resource) :
    machine.letGo resource = machine ∨
      (∃ (number : Nat) (listener : Listener),
        resource = .listener number ∧
          machine.letGo resource =
            { machine with network := machine.network.closeSocket listener.socket }) ∨
      ∃ (number : Nat) (connection : Connection),
        resource = .connection number ∧ machine.connections[number]? = some connection ∧
          connection.held = false ∧
            machine.letGo resource =
              { machine with network := machine.network.closeEnd connection.endId } := by
  unfold letGo
  split
  · exact Or.inl rfl
  · cases resource with
    | file number => exact Or.inl rfl
    | listener number =>
        simp only
        split
        · exact Or.inl rfl
        · next listener hlistener =>
            split
            · exact Or.inl rfl
            · exact Or.inr (Or.inl ⟨number, listener, rfl, rfl⟩)
    | connection number =>
        simp only
        split
        · exact Or.inl rfl
        · next connection hconnection =>
            split
            · exact Or.inl rfl
            · next hheld =>
                right
                right
                exact ⟨number, connection, rfl, hconnection, by simpa using hheld, rfl⟩

theorem letGo_pending (machine : Machine) (resource : Resource) :
    (machine.letGo resource).pending = machine.pending ∧
      (machine.letGo resource).nextTicket = machine.nextTicket := by
  rw [letGo_eq]
  exact ⟨rfl, rfl⟩

theorem letGo_winds (machine : Machine) (resource : Resource) :
    machine.network.Winds (machine.letGo resource).network := by
  rcases machine.letGo_cases resource with
    hsame | ⟨number, listener, -, hclosed⟩ | ⟨number, connection, -, -, -, hclosed⟩
  · rw [hsame]
    exact Network.Winds.refl _
  · rw [hclosed]
    exact machine.network.closeSocket_winds _
  · rw [hclosed]
    exact machine.network.closeEnd_winds _

theorem linksSound_letGo
    {machine : Machine} (hlinks : LinksSound machine.network machine.connections)
    (resource : Resource) :
    LinksSound (machine.letGo resource).network (machine.letGo resource).connections := by
  rw [connections_letGo]
  rcases machine.letGo_cases resource with
    hsame | ⟨number, listener, -, hclosed⟩ | ⟨number, connection, -, hconnection, hheld, hclosed⟩
  · rw [hsame]
    exact hlinks
  · rw [hclosed]
    exact hlinks.closeSocket listener.socket
  · rw [hclosed]
    exact hlinks.closeEnd (List.mem_of_getElem? hconnection) hheld

/-- A connection that nobody holds or uses is closed when it is let go. -/
theorem isOpen_letGo
    {machine : Machine} {number : Nat} {connection : Connection}
    (hconnection : machine.connections[number]? = some connection)
    (hheld : connection.held = false)
    (hused : machine.isUsed (.connection number) = false) :
    ((machine.letGo (.connection number)).network.getEnd connection.endId).isOpen = false := by
  have hletGo :
      machine.letGo (.connection number) =
        { machine with network := machine.network.closeEnd connection.endId } := by
    unfold letGo
    simp [hused, hconnection, hheld]
  rw [hletGo]
  exact machine.network.isOpen_closeEnd_self connection.endId

theorem WaitingSound.letGo
    {machine : Machine} {resource : Resource}
    (hsound : machine.WaitingSound (some resource)) :
    (machine.letGo resource).WaitingSound none := by
  obtain ⟨hpending, hticket⟩ := machine.letGo_pending resource
  have hused :
      ∀ number, (machine.letGo resource).isUsed (.connection number) =
        machine.isUsed (.connection number) := by
    intro number
    unfold isUsed
    rw [hpending]
  constructor
  · rw [hpending]
    exact hsound.tickets
  · rw [hpending, hticket]
    exact hsound.ticketsOld
  · rw [hpending, connections_letGo]
    exact hsound.inRange
  · rw [hpending, connections_letGo]
    exact hsound.ending
  · intro number connection _ hconnection hunheld
    rw [connections_letGo] at hconnection
    rw [hused]
    by_cases hself : resource = .connection number
    · subst hself
      cases hstill : machine.isUsed (.connection number) with
      | true => exact Or.inl rfl
      | false => exact Or.inr (isOpen_letGo hconnection hunheld hstill)
    · have htransit : some resource ≠ some (.connection number) := by simpa using hself
      rcases hsound.closed number connection htransit hconnection hunheld with hstill | hclosed
      · exact Or.inl hstill
      · right
        by_contra hopen
        have hbefore :=
          (machine.letGo_winds resource).isOpen connection.endId (by simpa using hopen)
        rw [hclosed] at hbefore
        cases hbefore

/-- Without one waiting action, what that action used is in transit. -/
theorem WaitingSound.remove
    {machine : Machine} (hsound : machine.WaitingSound none)
    {pending : Pending} (hmem : pending ∈ machine.pending) :
    ({ machine with
        pending := machine.pending.filter fun other => other.ticket != pending.ticket } :
      Machine).WaitingSound pending.action.resource? := by
  have hold :
      ∀ {other : Pending},
        (other ∈ machine.pending.filter fun other => other.ticket != pending.ticket) →
          other ∈ machine.pending := by
    intro other hother
    exact (List.mem_filter.mp hother).1
  constructor
  · exact hsound.tickets.sublist (List.filter_sublist.map Pending.ticket)
  · intro other hother
    exact hsound.ticketsOld other (hold hother)
  · intro other hother
    exact hsound.inRange other (hold hother)
  · intro other hother
    exact hsound.ending other (hold hother)
  · intro number connection htransit hconnection hunheld
    rcases hsound.closed number connection (by simp) hconnection hunheld with hused | hclosed
    · left
      rw [isUsed_iff] at hused ⊢
      obtain ⟨other, hother, hresource⟩ := hused
      refine ⟨other, ?_, hresource⟩
      rw [List.mem_filter]
      refine ⟨hother, ?_⟩
      have hne : other.ticket ≠ pending.ticket := by
        intro hticket
        rw [hsound.eq_of_ticket hother hmem hticket] at hresource
        exact htransit hresource
      simpa using hne
    · exact Or.inr hclosed

theorem WaitingSound.letGoOf
    {machine : Machine} {action : Action}
    (hsound : machine.WaitingSound action.resource?) :
    (machine.letGoOf action).WaitingSound none := by
  unfold Machine.letGoOf
  cases hresource : action.resource? with
  | none =>
      rw [hresource] at hsound
      exact hsound
  | some resource =>
      rw [hresource] at hsound
      exact hsound.letGo

theorem WaitingSound.forget
    {machine : Machine} (hsound : machine.WaitingSound none)
    {pending : Pending} (hmem : pending ∈ machine.pending) :
    (machine.forget pending).WaitingSound none := by
  unfold Machine.forget
  exact (hsound.remove hmem).letGoOf

theorem letGoOf_winds (machine : Machine) (action : Action) :
    machine.network.Winds (machine.letGoOf action).network := by
  unfold Machine.letGoOf
  cases action.resource? with
  | none => exact Network.Winds.refl _
  | some resource => exact machine.letGo_winds resource

theorem forget_winds (machine : Machine) (pending : Pending) :
    machine.network.Winds (machine.forget pending).network :=
  letGoOf_winds
    { machine with
      pending := machine.pending.filter fun other => other.ticket != pending.ticket }
    pending.action

theorem forget_nextTicket (machine : Machine) (pending : Pending) :
    (machine.forget pending).nextTicket = machine.nextTicket := by
  rw [forget_eq]

theorem forget_pending (machine : Machine) (pending : Pending) :
    (machine.forget pending).pending =
      machine.pending.filter fun other => other.ticket != pending.ticket := by
  rw [forget_eq]

theorem linksSound_letGoOf
    {machine : Machine} (hlinks : LinksSound machine.network machine.connections)
    (action : Action) :
    LinksSound (machine.letGoOf action).network (machine.letGoOf action).connections := by
  unfold letGoOf
  cases action.resource? with
  | none => exact hlinks
  | some resource => exact linksSound_letGo hlinks resource

theorem linksSound_forget
    {machine : Machine} (hlinks : LinksSound machine.network machine.connections)
    (pending : Pending) :
    LinksSound (machine.forget pending).network (machine.forget pending).connections := by
  unfold forget
  apply linksSound_letGoOf
  exact hlinks

/-! ## Taking a handle -/

theorem unbind_frame
    (machine : Machine) (space : Nat) (handle : Handle) (resource : Resource) :
    (machine.unbind space handle resource).network = machine.network ∧
      (machine.unbind space handle resource).pending = machine.pending ∧
        (machine.unbind space handle resource).nextTicket = machine.nextTicket := by
  cases resource with
  | file number => exact ⟨rfl, rfl, rfl⟩
  | listener number => exact ⟨rfl, rfl, rfl⟩
  | connection number => exact ⟨rfl, rfl, rfl⟩

theorem released_of_modify
    {connections : List Connection} {number released : Nat} {connection : Connection}
    {change : Connection → Connection}
    (hheld : ∀ connection, (change connection).held = false)
    (hconnection : (connections.modify released change)[number]? = some connection) :
    connections[number]? = some connection ∨ (released = number ∧ connection.held = false) := by
  rw [List.getElem?_modify] at hconnection
  by_cases hnumber : released = number
  · subst hnumber
    right
    cases hold : connections[released]? with
    | none => simp [hold] at hconnection
    | some old =>
        simp only [hold, if_true, Option.map_eq_map, Option.map_some,
          Option.some.injEq] at hconnection
        rw [← hconnection]
        exact ⟨rfl, hheld old⟩
  · left
    simpa [hnumber] using hconnection

theorem connections_unbind
    (machine : Machine) (space : Nat) (handle : Handle) (resource : Resource) :
    (machine.unbind space handle resource).connections.length = machine.connections.length ∧
      ∀ number connection,
        (machine.unbind space handle resource).connections[number]? = some connection →
          machine.connections[number]? = some connection ∨
            (resource = .connection number ∧ connection.held = false) := by
  cases resource with
  | file number => exact ⟨rfl, fun _ _ hconnection => Or.inl hconnection⟩
  | listener number => exact ⟨rfl, fun _ _ hconnection => Or.inl hconnection⟩
  | connection released =>
      rw [connections_unbind_connection]
      refine ⟨List.length_modify _ _ _, ?_⟩
      intro number connection hconnection
      rcases released_of_modify (fun _ => rfl) hconnection with hold | ⟨rfl, hunheld⟩
      · exact Or.inl hold
      · exact Or.inr ⟨rfl, hunheld⟩

theorem linksSound_unbind
    {machine : Machine} (hlinks : LinksSound machine.network machine.connections)
    (space : Nat) (handle : Handle) (resource : Resource) :
    LinksSound (machine.unbind space handle resource).network
      (machine.unbind space handle resource).connections := by
  rw [(machine.unbind_frame space handle resource).1]
  cases resource with
  | file number => exact hlinks
  | listener number => exact hlinks
  | connection number =>
      rw [connections_unbind_connection]
      exact hlinks.release number (fun _ => rfl) fun _ => rfl

/-- A resource that nobody holds any more is in transit. -/
theorem WaitingSound.release
    {machine next : Machine} {resource : Resource} (hsound : machine.WaitingSound none)
    (hnetwork : next.network = machine.network) (hpending : next.pending = machine.pending)
    (hticket : next.nextTicket = machine.nextTicket)
    (hlength : next.connections.length = machine.connections.length)
    (hconnections :
      ∀ number connection, next.connections[number]? = some connection →
        machine.connections[number]? = some connection ∨
          (resource = .connection number ∧ connection.held = false)) :
    next.WaitingSound (some resource) := by
  constructor
  · rw [hpending]
    exact hsound.tickets
  · rw [hpending, hticket]
    exact hsound.ticketsOld
  · rw [hpending, hlength]
    exact hsound.inRange
  · rw [hpending]
    intro pending hmem number connection haction hconnection
    rcases hconnections number connection hconnection with hold | ⟨-, hunheld⟩
    · exact hsound.ending pending hmem number connection haction hold
    · exact hunheld
  · intro number connection htransit hconnection hunheld
    rcases hconnections number connection hconnection with hold | ⟨hself, -⟩
    · have hused : next.isUsed (.connection number) = machine.isUsed (.connection number) := by
        unfold isUsed
        rw [hpending]
      rw [hused, hnetwork]
      exact hsound.closed number connection (by simp) hold hunheld
    · rw [hself] at htransit
      exact absurd rfl htransit

theorem WaitingSound.unbind
    {machine : Machine} (hsound : machine.WaitingSound none)
    (space : Nat) (handle : Handle) (resource : Resource) :
    (machine.unbind space handle resource).WaitingSound (some resource) := by
  obtain ⟨hnetwork, hpending, hticket⟩ := machine.unbind_frame space handle resource
  obtain ⟨hlength, hconnections⟩ := machine.connections_unbind space handle resource
  exact hsound.release hnetwork hpending hticket hlength hconnections

end Machine

end ResourceHandles
