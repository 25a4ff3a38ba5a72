import ResourceHandles.Proofs.Network.Closing

/-!
# Listening sockets

A new link waits in the socket that answers the call, the oldest link is taken
first, and the links that still wait when the socket is closed are reset.  All of
this is told by the list of the links that wait anywhere.
-/

namespace ResourceHandles

namespace Network

/-! ## Links that wait -/

theorem waitingLinks_set
    {network : Network} {number : Nat} {socket : ListeningSocket}
    (hsocket : network.sockets[number]? = some socket) (value : ListeningSocket) :
    ∃ front back,
      network.waitingLinks = front ++ (socket.waiting ++ back) ∧
        ({ network with sockets := network.sockets.set number value } : Network).waitingLinks =
          front ++ (value.waiting ++ back) := by
  obtain ⟨hnumber, hget⟩ := List.getElem?_eq_some_iff.mp hsocket
  refine ⟨(network.sockets.take number).flatMap ListeningSocket.waiting,
    (network.sockets.drop (number + 1)).flatMap ListeningSocket.waiting, ?_, ?_⟩
  · have hsplit :
        network.sockets =
          network.sockets.take number ++ socket :: network.sockets.drop (number + 1) := by
      rw [← hget, List.cons_getElem_drop_succ, List.take_append_drop]
    unfold waitingLinks
    conv_lhs => rw [hsplit]
    rw [List.flatMap_append, List.flatMap_cons]
  · unfold waitingLinks
    simp only
    rw [List.set_eq_take_append_cons_drop, if_pos hnumber, List.flatMap_append,
      List.flatMap_cons]

/-! ## What each operation comes to -/

section

variable {network next : Network} {host : IpAddress} {port number : Nat} {id : EndId}

theorem bind_inv {mode : CallMode} (hbind : network.bind mode host port = .ok (next, number)) :
    number = network.sockets.length ∧
      next =
        { network with
          sockets := network.sockets ++ [{ host := host, port := port, mode := mode }] } := by
  unfold bind at hbind
  split at hbind
  · cases hbind
  · split at hbind
    · cases hbind
    · split at hbind
      · cases hbind
      · simp only [Except.ok.injEq, Prod.mk.injEq] at hbind
        exact ⟨hbind.2.symm, hbind.1.symm⟩

/-- A call that gets through puts a new link at the end of those that wait in an open
socket with room for it. -/
theorem connect_inv (hconnect : network.connect host port = .ok (next, id)) :
    ∃ number socket,
      network.sockets[number]? = some socket ∧ socket.answers (target host) port = true ∧
        socket.isFull = false ∧ id = ⟨network.links.length, .caller⟩ ∧
          next =
            { network with
              sockets :=
                network.sockets.set number
                  { socket with waiting := socket.waiting ++ [network.links.length] }
              links := network.links ++ [{}] } := by
  unfold connect at hconnect
  split at hconnect
  · cases hconnect
  · split at hconnect
    · cases hconnect
    · split at hconnect
      · cases hconnect
      · next number hfound =>
          split at hconnect
          · cases hconnect
          · next hroom =>
              simp only [Except.ok.injEq, Prod.mk.injEq] at hconnect
              obtain ⟨rfl, rfl⟩ := hconnect
              obtain ⟨hnumber, hanswers, -⟩ := List.findIdx?_eq_some_iff_getElem.mp hfound
              have hsocket : network.sockets[number]? = some network.sockets[number] :=
                List.getElem?_eq_getElem hnumber
              refine ⟨number, network.sockets[number], hsocket, hanswers, ?_, rfl, ?_⟩
              · simpa [isFull, hsocket] using hroom
              · rw [List.modify_eq_set_getElem?, hsocket]
                rfl

theorem takeWaiting?_inv (htake : network.takeWaiting? number = some (next, id)) :
    ∃ socket link later,
      network.sockets[number]? = some socket ∧ socket.waiting = link :: later ∧
        id = ⟨link, .answerer⟩ ∧
          next =
            { network with
              sockets := network.sockets.set number { socket with waiting := later } } := by
  unfold takeWaiting? at htake
  split at htake
  · cases htake
  · next socket hsocket =>
      split at htake
      · cases htake
      · next link later hwaiting =>
          simp only [Option.some.injEq, Prod.mk.injEq] at htake
          exact ⟨socket, link, later, hsocket, hwaiting, htake.2.symm, htake.1.symm⟩

theorem accept_moved_iff :
    network.accept number = (next, .moved id) ↔
      network.takeWaiting? number = some (next, id) ∧ network.exhausted = false := by
  unfold accept
  cases htake : network.takeWaiting? number with
  | none => simp
  | some taken =>
      cases network.exhausted with
      | false => simp [Prod.ext_iff]
      | true => simp

theorem bind_eq_ok {mode : CallMode} (hbind : network.bind mode host port = .ok (next, number)) :
    next.links = network.links ∧ next.waitingLinks = network.waitingLinks := by
  obtain ⟨-, rfl⟩ := bind_inv hbind
  refine ⟨rfl, ?_⟩
  unfold waitingLinks
  simp

theorem connect_eq_ok (hconnect : network.connect host port = .ok (next, id)) :
    id = ⟨network.links.length, .caller⟩ ∧ next.links = network.links ++ [({} : Link)] ∧
      ∃ front back,
        network.waitingLinks = front ++ back ∧
          next.waitingLinks = front ++ network.links.length :: back := by
  obtain ⟨number, socket, hsocket, -, -, rfl, rfl⟩ := connect_inv hconnect
  obtain ⟨front, back, hbefore, hafter⟩ :=
    waitingLinks_set hsocket
      { socket with waiting := socket.waiting ++ [network.links.length] }
  refine ⟨rfl, rfl, front ++ socket.waiting, back, ?_, ?_⟩
  · rw [hbefore, List.append_assoc]
  · unfold waitingLinks at hafter ⊢
    simp only at hafter ⊢
    rw [hafter]
    simp

theorem takeWaiting?_eq_some (htake : network.takeWaiting? number = some (next, id)) :
    next.links = network.links ∧
      ∃ link front back,
        id = ⟨link, .answerer⟩ ∧ network.waitingLinks = front ++ link :: back ∧
          next.waitingLinks = front ++ back := by
  obtain ⟨socket, link, later, hsocket, hwaiting, rfl, rfl⟩ := takeWaiting?_inv htake
  obtain ⟨front, back, hbefore, hafter⟩ :=
    waitingLinks_set hsocket { socket with waiting := later }
  refine ⟨rfl, link, front, later ++ back, rfl, ?_, hafter⟩
  rw [hbefore, hwaiting, List.cons_append]

end

/-! ## Resetting a link -/

theorem ended_resetLink (network : Network) (link : Nat) (other : EndId) :
    ((network.resetLink link).getEnd other).ended = (network.getEnd other).ended := by
  unfold resetLink
  rw [changeEnd_keeps SocketEnd.ended rfl, changeEnd_keeps SocketEnd.ended rfl]

theorem isOpen_resetLink_answerer (network : Network) (link : Nat) :
    ((network.resetLink link).getEnd ⟨link, .answerer⟩).isOpen = false := by
  unfold resetLink
  by_cases hlink : link < network.links.length
  · rw [getEnd_changeEnd_self _ (by simpa using hlink)]
  · rw [getEnd_of_missing (by simpa using hlink)]

theorem isOpen_resetLink_of_ne
    (network : Network) {link : Nat} {other : EndId} (hne : other ≠ ⟨link, .answerer⟩) :
    ((network.resetLink link).getEnd other).isOpen = (network.getEnd other).isOpen := by
  unfold resetLink
  rw [getEnd_changeEnd_of_ne _ _ hne, changeEnd_keeps SocketEnd.isOpen rfl]

theorem isFaulty_resetLink
    {network : Network} {link : Nat} {other : EndId}
    (hfaulty : ((network.resetLink link).getEnd other).IsFaulty) :
    other = ⟨link, .caller⟩ ∨ (network.getEnd other).IsFaulty := by
  by_cases hcaller : other = ⟨link, .caller⟩
  · exact Or.inl hcaller
  · right
    unfold resetLink at hfaulty
    rw [changeEnd_keeps SocketEnd.IsFaulty rfl, getEnd_changeEnd_of_ne _ _ hcaller] at hfaulty
    exact hfaulty

/-! ## What an action does to the ends -/

/-- What one action may do to the ends of a network: nothing, or add a link, or end a
sending, or move bytes if it is an action that moves any. -/
inductive Stirs (network : Network) (moving : Prop) : Network → Prop where
  | still {next : Network} (hlinks : next.links = network.links) : Stirs network moving next
  | linked {next : Network} (hlinks : next.links = network.links ++ [({} : Link)]) :
      Stirs network moving next
  | ending (id : EndId) : Stirs network moving (network.endSending id)
  | moved {next : Network} (hmoving : moving) (hmoves : network.Moves next) :
      Stirs network moving next

theorem getEnd_of_linked
    {network next : Network} (hlinks : next.links = network.links ++ [({} : Link)]) {id : EndId}
    (hlink : id.link < network.links.length) :
    next.getEnd id = network.getEnd id := by
  unfold getEnd
  rw [hlinks, List.getElem?_append_left hlink]

section

variable {network next : Network} {moving : Prop} {id : EndId}

theorem Stirs.isOpen
    (hstirs : network.Stirs moving next) (hlink : id.link < network.links.length) :
    (next.getEnd id).isOpen = (network.getEnd id).isOpen := by
  cases hstirs with
  | still hlinks => rw [getEnd_of_links hlinks]
  | linked hlinks => rw [getEnd_of_linked hlinks hlink]
  | ending other => exact network.isOpen_endSending other id
  | moved hmoving hmoves => exact hmoves.isOpen id

theorem Stirs.ended
    (hstirs : network.Stirs moving next) (hended : (network.getEnd id).ended = true) :
    (next.getEnd id).ended = true := by
  cases hstirs with
  | still hlinks => rwa [getEnd_of_links hlinks]
  | linked hlinks =>
      have hlink : id.link < network.links.length := by
        by_contra hmissing
        rw [getEnd_of_missing (Nat.not_lt.mp hmissing)] at hended
        cases hended
      rwa [getEnd_of_linked hlinks hlink]
  | ending other => exact (network.endSending_winds other).ended id hended
  | moved hmoving hmoves => rwa [hmoves.ended]

theorem Stirs.inbox_fresh
    (hstirs : network.Stirs moving next) (hmissing : network.links.length ≤ id.link) :
    (next.getEnd id).inbox = [] := by
  cases hstirs with
  | still hlinks => rw [getEnd_of_links hlinks, getEnd_of_missing hmissing]
  | linked hlinks =>
      unfold getEnd
      rw [hlinks, List.getElem?_append_right hmissing]
      cases hlink : id.link - network.links.length with
      | zero =>
          cases id.side with
          | caller => rfl
          | answerer => rfl
      | succ beyond => rfl
  | ending other => rw [(network.endSending_winds other).inbox, getEnd_of_missing hmissing]
  | moved hmoving hmoves =>
      rw [← hmoves.links] at hmissing
      rw [getEnd_of_missing hmissing]

theorem Stirs.inbox_eq
    (hstirs : network.Stirs moving next) (hstill : ¬moving)
    (hlink : id.link < network.links.length) :
    (next.getEnd id).inbox = (network.getEnd id).inbox := by
  cases hstirs with
  | still hlinks => rw [getEnd_of_links hlinks]
  | linked hlinks => rw [getEnd_of_linked hlinks hlink]
  | ending other => exact (network.endSending_winds other).inbox id
  | moved hmoving hmoves => exact absurd hmoving hstill

end

end Network

end ResourceHandles
