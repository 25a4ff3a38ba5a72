import ResourceHandles.Proofs.Session.Serving

/-!
# Before the first request and after the last one

A server is started by listening at an address that is free.  This binds one handle, and
nothing else changes; so the client and the server can start their row of requests.  When
that is over and the listener is closed, every handle stands for what it stood for before,
and the address is free again.
-/

namespace ResourceHandles

/-- Tables in which the same handles are bound are of the same size. -/
theorem HandleTable.WellFormed.size_eq
    {F L C : Type} {table other : HandleTable F L C} (htable : table.WellFormed)
    (hother : other.WellFormed) (hsame : ∀ handle, table.get? handle = other.get? handle) :
    table.size = other.size := by
  rw [HandleTable.size_eq_length_keys, HandleTable.size_eq_length_keys]
  apply List.Perm.length_eq
  rw [List.perm_ext_iff_of_nodup htable.nodup hother.nodup]
  intro handle
  rw [← HandleTable.get?_isSome_iff, ← HandleTable.get?_isSome_iff, hsame]

namespace Session

variable {session : Session} {space : Nat} {address : String} {bodies : List Bytes}

/-- Requests with the given bodies can be made to a server at an address: the address names a
place on this host at which nobody listens, no body is empty or larger than a buffer, and
what is sent at once is not too much to be under way as a whole. -/
structure CanServe (session : Session) (space : Nat) (address : String) (bodies : List Bytes) :
    Prop where
  idle : session.Idle
  inRange : space < session.machine.spaces.length
  routed : session.machine.network.routed = true
  supplied : session.machine.network.exhausted = false
  free :
    ∃ endpoint host,
      Endpoint.parse? address (session.machine.space space).configuration.wildcardHost =
          some endpoint ∧
        IpAddress.ofHost? endpoint.host = some host ∧ host.isLocal = true ∧
          ∀ socket ∈ session.machine.network.sockets,
            socket.conflicts host endpoint.port = false
  fits :
    ∀ body ∈ bodies,
      body ≠ [] ∧ body.length ≤ (session.machine.space space).configuration.bufferSize
  whole :
    ∀ data ∈ response :: bodies, data.length ≤ session.machine.network.capacity

/-- The socket that is made when a runtime listens. -/
def socketFor (session : Session) (space : Nat) (host : IpAddress) (port : Nat) :
    ListeningSocket where
  host := host
  port := port
  mode := (session.machine.space space).configuration.mode

/-- The machine of a session on which a socket listens. -/
def listening (session : Session) (space : Nat) (host : IpAddress) (port : Nat) : Machine :=
  let bound : Network :=
    { session.machine.network with
      sockets := session.machine.network.sockets ++ [session.socketFor space host port] }
  (Machine.addListener { session.machine.bare with network := bound } space
    session.machine.network.sockets.length).1

/-- Listening at a free address binds the next handle. -/
theorem run_listen
    {endpoint : Endpoint} {host : IpAddress} (hidle : session.Idle)
    (hsupplied : session.machine.network.exhausted = false)
    (hparse :
      Endpoint.parse? address (session.machine.space space).configuration.wildcardHost =
        some endpoint)
    (hhost : IpAddress.ofHost? endpoint.host = some host) (hlocal : host.isLocal = true)
    (hfree :
      ∀ socket ∈ session.machine.network.sockets, socket.conflicts host endpoint.port = false) :
    ∃ base,
      session.run space (.once (.listen address)) =
          ({ session with machine := base },
            .handle ⟨(session.machine.space space).table.next⟩) ∧
        base.pending = [] ∧ base.bare = session.listening space host endpoint.port := by
  have hconflicts :
      (session.machine.network.sockets.any fun socket =>
        socket.conflicts host endpoint.port) = false := by
    rw [List.any_eq_false]
    intro socket hmem
    simp [hfree socket hmem]
  have hplan :
      session.machine.bare.plan space (.listen address) =
        (session.machine.bare, .act (.listen endpoint)) := by
    simp only [Machine.plan, Machine.space_bare, hparse]
  have hlisten :
      session.machine.bare.listen space endpoint =
        (session.listening space host endpoint.port,
          .handle ⟨(session.machine.space space).table.next⟩) := by
    have hbind :
        session.machine.network.bind (session.machine.space space).configuration.mode host
            endpoint.port =
          .ok
            ({ session.machine.network with
                sockets :=
                  session.machine.network.sockets ++
                    [session.socketFor space host endpoint.port] },
              session.machine.network.sockets.length) := by
      unfold Network.bind
      rw [if_neg (by simp [hsupplied]), if_neg (by simp [hlocal]), if_neg (by simp [hconflicts])]
      rfl
    simp only [Machine.listen, Machine.bindAt, hhost, Machine.space_bare,
      show session.machine.bare.network = session.machine.network from rfl, hbind]
    rfl
  have halone :
      session.machine.bare.alone space (.listen address) =
        (session.listening space host endpoint.port,
          some (.handle ⟨(session.machine.space space).table.next⟩)) := by
    unfold Machine.alone
    rw [hplan]
    simp only [Machine.carryOut, Machine.perform, Machine.finish, hlisten]
    rfl
  have hplays :
      Script.Plays space session.machine.bare (.once (.listen address)) 1
        (session.listening space host endpoint.port)
        (.handle ⟨(session.machine.space space).table.next⟩) :=
    .answered rfl halone (.finished rfl)
  obtain ⟨base, hrun, hbare, hquiet⟩ := run_idle hidle hplays (by omega)
  exact ⟨base, hrun, hquiet, hbare⟩

/-- What a machine on which a socket listens has in common with the one before. -/
structure Listens (session : Session) (space : Nat) (host : IpAddress) (port : Nat)
    (base : Machine) : Prop where
  quiet : base.pending = []
  network :
    base.network =
      { session.machine.network with
        sockets := session.machine.network.sockets ++ [session.socketFor space host port] }
  listeners :
    base.listeners =
      session.machine.listeners ++ [{ socket := session.machine.network.sockets.length }]
  inRange : space < base.spaces.length
  own :
    base.space space =
      { session.machine.space space with
        table :=
          ((session.machine.space space).table.insert
            (.listener session.machine.listeners.length)).1 }
  others : ∀ owner, owner ≠ space → base.space owner = session.machine.space owner

theorem listens_of_bare
    {host : IpAddress} {port : Nat} {base : Machine}
    (hspace : space < session.machine.spaces.length)
    (hquiet : base.pending = []) (hbare : base.bare = session.listening space host port) :
    session.Listens space host port base := by
  have hspaces :
      base.spaces =
        (session.machine.setTable space
          ((session.machine.space space).table.insert
            (.listener session.machine.listeners.length)).1).spaces := by
    have hspaces := congrArg Machine.spaces hbare
    exact hspaces
  constructor
  · exact hquiet
  · exact congrArg Machine.network hbare
  · exact congrArg Machine.listeners hbare
  · rwa [hspaces, Machine.length_spaces_setTable]
  · rw [Machine.space_congr hspaces, Machine.space_setTable_self _ _ hspace]
  · intro owner hne
    rw [Machine.space_congr hspaces, Machine.space_setTable_of_ne _ _ hne]

end Session

/-! ## The row of requests starts -/

/-- A party that has no connection yet. -/
def Seat.absent (side : Side) : Seat where
  standing := .out
  handle := .invalid
  number := 0
  id := ⟨0, side⟩
  call := none

namespace Venue

variable {venue : Venue} {session : Session} {address : String} {bodies : List Bytes}

/-- A client that has not yet made a request. -/
def newClient (venue : Venue) : Speaker where
  progress := 0
  seat := .absent .caller
  script := .requestsFrom venue.address [] venue.dialogue.bodies

/-- A server that has not yet accepted a connection. -/
def newServer (venue : Venue) : Speaker where
  progress := 0
  seat := .absent .answerer
  script := .serve venue.listener [] .accept

/-- The machine of a session was made ready for a row of requests. -/
structure Readies (venue : Venue) (session : Session) (address : String) (bodies : List Bytes) :
    Prop where
  address_eq : venue.address = address
  bodies_eq : venue.dialogue.bodies = bodies
  size_eq :
    venue.dialogue.size = (session.machine.space venue.space).configuration.bufferSize
  sockets_eq : venue.dialogue.sockets = session.machine.network.sockets
  first_eq : venue.dialogue.first = session.machine.network.links.length
  tables : ∀ owner, (session.machine.space owner).table.WellFormed
  others :
    ∀ owner, owner ≠ venue.space →
      (venue.shut.space owner).table = (session.machine.space owner).table
  lookup :
    ∀ handle,
      venue.shut.lookup venue.space handle = session.machine.lookup venue.space handle
  valid : venue.listener.isValid = true
  listening :
    session.run venue.space (.once (.listen address)) =
      ({ session with machine := venue.base }, .handle venue.listener)
  ready : venue.Conversing venue.base venue.newClient venue.newServer

/-- A party that has no connection has what it stands for. -/
theorem seats_absent (base machine : Machine) (space : Nat) (side : Side) :
    Machine.Seats base machine space (.absent side) :=
  ⟨nofun, nofun, nofun, nofun, nofun⟩

theorem conversing_new
    (hquiet : venue.base.pending = [])
    (hlines : venue.dialogue.Lines venue.base.network 0 0) :
    venue.Conversing venue.base venue.newClient venue.newServer where
  lines := hlines
  company := by
    refine ⟨venue.wellFormed, ⟨Machine.lt_length_of_lookup venue.bound, venue.wellFormed, ?_⟩,
      fun _ _ => rfl, rfl, rfl, le_rfl, fun _ _ _ => rfl, seats_absent _ _ _ .caller,
      seats_absent _ _ _ .answerer, ?_, by simp [newClient, Seat.absent],
      by simp [newClient, newServer, Seat.absent]⟩
    · intro pending hmem
      rw [hquiet] at hmem
      cases hmem
    · intro pending
      rw [hquiet]
      simp [newClient, newServer, Seat.absent]
  asking := asking_from (Nat.zero_le _) rfl rfl rfl
  answering := Answering.accepting (Nat.zero_le _) rfl rfl (Seat.callsFor_none rfl _ _)

end Venue

/-- The handle of a listener is bound and taken again, and nothing has changed. -/
theorem Venue.lookup_shut
    {venue : Venue} {before : Machine} {slot : Resource}
    (hbefore : (before.space venue.space).table.WellFormed)
    (htable :
      (venue.base.space venue.space).table = ((before.space venue.space).table.insert slot).1)
    (hlistener : venue.listener = ⟨(before.space venue.space).table.next⟩) (handle : Handle) :
    venue.shut.lookup venue.space handle = before.lookup venue.space handle := by
  unfold Machine.lookup
  rw [venue.space_shut]
  by_cases hsame : handle = venue.listener
  · rw [hsame, venue.wellFormed.get?_remove_self, hlistener]
    exact ((HandleTable.get?_eq_none_iff _ _).mpr hbefore.next_notMem).symm
  · rw [HandleTable.get?_remove_of_ne _ hsame, htable]
    rw [hlistener] at hsame
    exact HandleTable.get?_insert_of_ne _ _ hsame

/-- A session in which requests can be served is made ready for them. -/
theorem Session.CanServe.readies
    {session : Session} {space : Nat} {address : String} {bodies : List Bytes}
    (hserve : session.CanServe space address bodies) :
    ∃ venue : Venue, venue.space = space ∧ venue.Readies session address bodies := by
  obtain ⟨endpoint, host, hparse, hhost, hlocal, hfree⟩ := hserve.free
  obtain ⟨base, hrun, hquiet, hbare⟩ :=
    run_listen hserve.idle hserve.supplied hparse hhost hlocal hfree
  have hlistens := listens_of_bare hserve.inRange hquiet hbare
  have htables := hserve.idle.orderly.bindings.tables
  have hconfiguration :
      (base.space space).configuration = (session.machine.space space).configuration := by
    rw [hlistens.own]
  have htable := congrArg HandleSpace.table hlistens.own
  have hgood := htables space
  let dialogue : Dialogue :=
    { sockets := session.machine.network.sockets
      host := host
      port := endpoint.port
      mode := (session.machine.space space).configuration.mode
      capacity := session.machine.network.capacity
      size := (session.machine.space space).configuration.bufferSize
      first := session.machine.network.links.length
      bodies := bodies
      isLocal := hlocal
      free := hfree
      response_le := hserve.whole response (List.mem_cons_self ..)
      body_ne := fun body hmem => (hserve.fits body hmem).1
      body_le_size := fun body hmem => (hserve.fits body hmem).2
      body_le := fun body hmem => hserve.whole body (List.mem_cons_of_mem _ hmem) }
  let venue : Venue :=
    { base := base
      space := space
      address := address
      endpoint := endpoint
      listener := ⟨(session.machine.space space).table.next⟩
      number := session.machine.listeners.length
      dialogue := dialogue
      parsed := by
        rw [hconfiguration]
        exact hparse
      resolved := hhost
      port_eq := rfl
      size_eq := congrArg Configuration.bufferSize hconfiguration
      wellFormed := by
        rw [htable]
        exact hgood.insert _
      bound := by
        unfold Machine.lookup
        rw [htable]
        exact hgood.get?_insert_self _
      listening := by
        rw [hlistens.listeners]
        exact List.getElem?_concat_length }
  have hlines : dialogue.Lines base.network 0 0 := by
    rw [hlistens.network]
    exact
      ⟨hserve.routed, hserve.supplied, rfl, rfl, rfl, nofun, nofun, Nat.zero_le _, nofun, nofun,
        nofun⟩
  refine ⟨venue, rfl, rfl, rfl, rfl, rfl, rfl, htables, ?_, ?_, ?_, hrun, ?_⟩
  · intro owner hne
    rw [show venue.shut.space owner = base.space owner from
      base.space_unbind_of_ne venue.listener _ hne]
    exact congrArg HandleSpace.table (hlistens.others owner hne)
  · exact Venue.lookup_shut hgood htable rfl
  · have hfirst := hgood.first_le_next
    unfold firstHandle at hfirst
    simp only [Handle.isValid, venue, decide_eq_true_eq]
    omega
  · exact Venue.conversing_new hquiet hlines

end ResourceHandles
