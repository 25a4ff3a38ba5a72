import ResourceHandles.Machine.Basic
import ResourceHandles.Proofs.Network.Listening

/-!
# Connections and their links

Every connection sits at an end of its own.  An end stays open as long as a handle
is bound to its connection, and whatever hinders an end comes of closing the other
one: nothing more will come only after the other connection lost its handle, and
an end is faulty only if the other one is closed.

A link that waits in a listening socket has nobody at the answering end yet, so
closing the socket does no harm to any connection but the caller's.
-/

namespace ResourceHandles

/-- A connection whose handle was taken. -/
def Connection.released (connection : Connection) : Connection :=
  { connection with signal := connection.signal.raise, held := false }

/-! ## Changing one entry of a list -/

section Modify

variable {α : Type}

theorem mem_of_mem_modify
    {entries : List α} {number : Nat} {change : α → α} {entry : α}
    (hmem : entry ∈ entries.modify number change) :
    entry ∈ entries ∨ ∃ old ∈ entries, entry = change old := by
  obtain ⟨position, hposition⟩ := List.mem_iff_getElem?.mp hmem
  rw [List.getElem?_modify] at hposition
  cases hold : entries[position]? with
  | none => simp [hold] at hposition
  | some old =>
      have holdMem := List.mem_of_getElem? hold
      by_cases hnumber : number = position
      · right
        simp only [hold, hnumber, if_true, Option.map_eq_map, Option.map_some,
          Option.some.injEq] at hposition
        exact ⟨old, holdMem, hposition.symm⟩
      · left
        simp only [hold, hnumber, if_false, Option.map_eq_map, Option.map_some,
          Option.some.injEq] at hposition
        rwa [← hposition]

theorem mem_modify_of_mem
    {entries : List α} {entry : α} (hmem : entry ∈ entries) (number : Nat) (change : α → α) :
    entry ∈ entries.modify number change ∨ change entry ∈ entries.modify number change := by
  obtain ⟨position, hposition⟩ := List.mem_iff_getElem?.mp hmem
  by_cases hnumber : number = position
  · right
    apply List.mem_of_getElem? (i := position)
    simp [hnumber, hposition]
  · left
    apply List.mem_of_getElem? (i := position)
    simp [hnumber, hposition]

theorem map_modify
    {β : Type} {view : α → β} {change : α → α} (hkeep : ∀ entry, view (change entry) = view entry)
    (entries : List α) (number : Nat) :
    (entries.modify number change).map view = entries.map view := by
  apply List.ext_getElem?
  intro position
  rw [List.getElem?_map, List.getElem?_map, List.getElem?_modify]
  cases entries[position]? with
  | none => rfl
  | some entry =>
      by_cases hnumber : number = position
      · simp [hnumber, hkeep]
      · simp [hnumber]

end Modify

/-! ## The invariant -/

/-- What holds of the links and the connections of a machine at all times. -/
structure LinksSound (network : Network) (connections : List Connection) : Prop where
  inLinks : ∀ connection ∈ connections, connection.endId.link < network.links.length
  distinct : (connections.map Connection.endId).Nodup
  waitingInLinks : ∀ link ∈ network.waitingLinks, link < network.links.length
  waitingNodup : network.waitingLinks.Nodup
  waitingFree :
    ∀ link ∈ network.waitingLinks, ∀ connection ∈ connections,
      connection.endId ≠ ⟨link, .answerer⟩
  waitingOpen :
    ∀ link ∈ network.waitingLinks, (network.getEnd ⟨link, .answerer⟩).isOpen = true
  heldOpen :
    ∀ connection ∈ connections, connection.held = true →
      (network.getEnd connection.endId).isOpen = true
  endedUnheld :
    ∀ id, (network.getEnd id).ended = true →
      ∃ connection ∈ connections, connection.endId = id.peer ∧ connection.held = false
  faultyClosed :
    ∀ id, (network.getEnd id).IsFaulty → (network.getEnd id.peer).isOpen = false
  closedEnded :
    ∀ connection ∈ connections, (network.getEnd connection.endId).isOpen = false →
      (network.getEnd connection.endId.peer).ended = true

namespace LinksSound

variable {network next : Network} {connections : List Connection}

theorem boot (routed : Bool) (capacity : Nat) :
    LinksSound { routed := routed, capacity := capacity } [] := by
  have hend :
      ∀ id, ({ routed := routed, capacity := capacity } : Network).getEnd id =
        { isOpen := false } := by
    intro id
    exact Network.getEnd_of_missing (Nat.zero_le _)
  constructor
  · simp
  · simp
  · simp [Network.waitingLinks]
  · simp [Network.waitingLinks]
  · simp
  · simp [Network.waitingLinks]
  · simp
  · intro id hended
    rw [hend] at hended
    cases hended
  · intro id hfaulty
    rw [hend]
  · simp

/-! ## Moving bytes -/

theorem moves (hsound : LinksSound network connections) (hmoves : network.Moves next) :
    LinksSound next connections := by
  constructor
  · rw [hmoves.links]
    exact hsound.inLinks
  · exact hsound.distinct
  · rw [hmoves.links, hmoves.waiting]
    exact hsound.waitingInLinks
  · rw [hmoves.waiting]
    exact hsound.waitingNodup
  · rw [hmoves.waiting]
    exact hsound.waitingFree
  · rw [hmoves.waiting]
    intro link hlink
    rw [hmoves.isOpen]
    exact hsound.waitingOpen link hlink
  · intro connection hmem hheld
    rw [hmoves.isOpen]
    exact hsound.heldOpen connection hmem hheld
  · intro id hended
    rw [hmoves.ended] at hended
    exact hsound.endedUnheld id hended
  · intro id hfaulty
    rw [hmoves.isOpen]
    rcases hmoves.faulty id hfaulty with hold | hclosed
    · exact hsound.faultyClosed id hold
    · exact hclosed
  · intro connection hmem hclosed
    rw [hmoves.isOpen] at hclosed
    rw [hmoves.ended]
    exact hsound.closedEnded connection hmem hclosed

theorem bind
    (hsound : LinksSound network connections)
    (hlinks : next.links = network.links) (hwaiting : next.waitingLinks = network.waitingLinks) :
    LinksSound next connections := by
  apply hsound.moves
  constructor
  · rw [hlinks]
  · exact hwaiting
  · intro id
    rw [Network.getEnd_of_links hlinks]
  · intro id
    rw [Network.getEnd_of_links hlinks]
  · intro id hfaulty
    rw [Network.getEnd_of_links hlinks] at hfaulty
    exact Or.inl hfaulty

/-! ## New connections -/

theorem addConnection
    (hsound : LinksSound network connections) {connection : Connection}
    (hlink : connection.endId.link < network.links.length)
    (hfree : ∀ other ∈ connections, other.endId ≠ connection.endId)
    (hwaiting : ∀ link ∈ network.waitingLinks, connection.endId ≠ ⟨link, .answerer⟩)
    (hopen : (network.getEnd connection.endId).isOpen = true) :
    LinksSound network (connections ++ [connection]) := by
  have hsplit :
      ∀ {other : Connection}, other ∈ connections ++ [connection] →
        other ∈ connections ∨ other = connection := by
    intro other hother
    rwa [List.mem_append, List.mem_singleton] at hother
  constructor
  · intro other hother
    rcases hsplit hother with hold | rfl
    · exact hsound.inLinks other hold
    · exact hlink
  · rw [List.map_append, List.map_singleton, List.nodup_append_comm, List.singleton_append,
      List.nodup_cons]
    refine ⟨?_, hsound.distinct⟩
    intro hmem
    obtain ⟨other, hother, hend⟩ := List.mem_map.mp hmem
    exact hfree other hother hend
  · exact hsound.waitingInLinks
  · exact hsound.waitingNodup
  · intro link hwaits other hother
    rcases hsplit hother with hold | rfl
    · exact hsound.waitingFree link hwaits other hold
    · exact hwaiting link hwaits
  · exact hsound.waitingOpen
  · intro other hother hotherHeld
    rcases hsplit hother with hold | rfl
    · exact hsound.heldOpen other hold hotherHeld
    · exact hopen
  · intro id hended
    obtain ⟨other, hother, hend⟩ := hsound.endedUnheld id hended
    exact ⟨other, List.mem_append_left _ hother, hend⟩
  · exact hsound.faultyClosed
  · intro other hother hclosed
    rcases hsplit hother with hold | rfl
    · exact hsound.closedEnded other hold hclosed
    · rw [hopen] at hclosed
      cases hclosed

/-- A new link waits in a socket, and nobody is at its ends yet. -/
theorem addLink
    (hsound : LinksSound network connections) {front back : List Nat}
    (hlinks : next.links = network.links ++ [({} : Link)])
    (hbefore : network.waitingLinks = front ++ back)
    (hafter : next.waitingLinks = front ++ network.links.length :: back) :
    LinksSound next connections := by
  have hlength : next.links.length = network.links.length + 1 := by
    rw [hlinks, List.length_append, List.length_singleton]
  have hold :
      ∀ id : EndId, id.link ≠ network.links.length → next.getEnd id = network.getEnd id := by
    intro id hid
    unfold Network.getEnd
    rw [hlinks]
    by_cases hlink : id.link < network.links.length
    · rw [List.getElem?_append_left hlink]
    · rw [List.getElem?_eq_none (by simp; omega), List.getElem?_eq_none (by omega)]
  have hnew :
      ∀ id : EndId, id.link = network.links.length → next.getEnd id = {} := by
    intro id hid
    unfold Network.getEnd
    rw [hlinks, hid, List.getElem?_concat_length]
    cases id.side <;> rfl
  have hwaits :
      ∀ {link}, link ∈ next.waitingLinks →
        link ∈ network.waitingLinks ∨ link = network.links.length := by
    intro link hlink
    rw [hafter, List.mem_append, List.mem_cons] at hlink
    rw [hbefore, List.mem_append]
    rcases hlink with hfront | hself | hback
    · exact Or.inl (Or.inl hfront)
    · exact Or.inr hself
    · exact Or.inl (Or.inr hback)
  have hne :
      ∀ connection ∈ connections, connection.endId.link ≠ network.links.length := by
    intro connection hmem
    exact (hsound.inLinks connection hmem).ne
  constructor
  · intro connection hmem
    have hlt := hsound.inLinks connection hmem
    omega
  · exact hsound.distinct
  · intro link hlink
    rcases hwaits hlink with holder | hself
    · have hlt := hsound.waitingInLinks link holder
      omega
    · omega
  · rw [hafter, List.nodup_middle, List.nodup_cons, ← hbefore]
    refine ⟨?_, hsound.waitingNodup⟩
    intro hmem
    exact lt_irrefl _ (hsound.waitingInLinks _ hmem)
  · intro link hlink connection hmem hend
    rcases hwaits hlink with holder | hself
    · exact hsound.waitingFree link holder connection hmem hend
    · apply hne connection hmem
      rw [hend, hself]
  · intro link hlink
    rcases hwaits hlink with holder | hself
    · have hlt := hsound.waitingInLinks link holder
      rw [hold _ hlt.ne]
      exact hsound.waitingOpen link holder
    · rw [hnew _ hself]
  · intro connection hmem hheld
    rw [hold _ (hne connection hmem)]
    exact hsound.heldOpen connection hmem hheld
  · intro id hended
    by_cases hid : id.link = network.links.length
    · rw [hnew id hid] at hended
      cases hended
    · rw [hold id hid] at hended
      exact hsound.endedUnheld id hended
  · intro id hfaulty
    by_cases hid : id.link = network.links.length
    · rw [hnew id hid] at hfaulty
      simp [SocketEnd.IsFaulty] at hfaulty
    · rw [hold id hid] at hfaulty
      rw [hold id.peer hid]
      exact hsound.faultyClosed id hfaulty
  · intro connection hmem hclosed
    rw [hold _ (hne connection hmem)] at hclosed
    rw [hold connection.endId.peer (hne connection hmem)]
    exact hsound.closedEnded connection hmem hclosed

theorem dropWaiting
    (hsound : LinksSound network connections)
    (hlinks : next.links = network.links)
    (hsublist : next.waitingLinks.Sublist network.waitingLinks) :
    LinksSound next connections := by
  have hend := Network.getEnd_of_links hlinks
  constructor
  · rw [hlinks]
    exact hsound.inLinks
  · exact hsound.distinct
  · intro link hlink
    rw [hlinks]
    exact hsound.waitingInLinks link (hsublist.subset hlink)
  · exact hsound.waitingNodup.sublist hsublist
  · intro link hlink
    exact hsound.waitingFree link (hsublist.subset hlink)
  · intro link hlink
    rw [hend]
    exact hsound.waitingOpen link (hsublist.subset hlink)
  · intro connection hmem
    rw [hend]
    exact hsound.heldOpen connection hmem
  · intro id
    rw [hend]
    exact hsound.endedUnheld id
  · intro id
    rw [hend, hend]
    exact hsound.faultyClosed id
  · intro connection hmem
    rw [hend, hend]
    exact hsound.closedEnded connection hmem

theorem connect
    (hsound : LinksSound network connections) {front back : List Nat}
    (hlinks : next.links = network.links ++ [({} : Link)])
    (hbefore : network.waitingLinks = front ++ back)
    (hafter : next.waitingLinks = front ++ network.links.length :: back) (size : Nat) :
    LinksSound next
      (connections ++ [{ endId := ⟨network.links.length, .caller⟩, bufferSize := size }]) := by
  have hadded := hsound.addLink hlinks hbefore hafter
  have hcaller : next.getEnd ⟨network.links.length, .caller⟩ = {} := by
    unfold Network.getEnd
    simp only
    rw [hlinks, List.getElem?_concat_length]
    rfl
  apply hadded.addConnection
  · simp [hlinks]
  · intro other hother hsame
    have hlt := hsound.inLinks other hother
    rw [hsame] at hlt
    exact lt_irrefl _ hlt
  · intro link hlink hsame
    cases congrArg EndId.side hsame
  · rw [hcaller]

theorem accept
    (hsound : LinksSound network connections) {front back : List Nat} {link : Nat}
    (hlinks : next.links = network.links)
    (hbefore : network.waitingLinks = front ++ link :: back)
    (hafter : next.waitingLinks = front ++ back) (size : Nat) :
    LinksSound next
      (connections ++ [{ endId := ⟨link, .answerer⟩, bufferSize := size }]) := by
  have hwaits : link ∈ network.waitingLinks := by
    rw [hbefore]
    simp
  have hsublist : next.waitingLinks.Sublist network.waitingLinks := by
    rw [hbefore, hafter]
    exact (List.sublist_cons_self link back).append_left front
  have hdropped := hsound.dropWaiting hlinks hsublist
  apply hdropped.addConnection
  · rw [hlinks]
    exact hsound.waitingInLinks link hwaits
  · exact hsound.waitingFree link hwaits
  · intro other hother hsame
    have hlink : link = other := congrArg EndId.link hsame
    have hnodup := hsound.waitingNodup
    rw [hbefore, List.nodup_middle, List.nodup_cons, ← hafter, hlink] at hnodup
    exact hnodup.1 hother
  · rw [Network.getEnd_of_links hlinks]
    exact hsound.waitingOpen link hwaits

/-! ## Released connections -/

/-- The handle of a connection is taken, whatever becomes of its signal. -/
theorem release
    (hsound : LinksSound network connections) (number : Nat) {change : Connection → Connection}
    (hend : ∀ connection, (change connection).endId = connection.endId)
    (hheld : ∀ connection, (change connection).held = false) :
    LinksSound network (connections.modify number change) := by
  have hends :
      (connections.modify number change).map Connection.endId =
        connections.map Connection.endId :=
    map_modify hend _ _
  have hold :
      ∀ connection ∈ connections.modify number change,
        ∃ old ∈ connections, connection.endId = old.endId := by
    intro connection hmem
    rcases mem_of_mem_modify hmem with hsame | ⟨old, holdMem, hchanged⟩
    · exact ⟨connection, hsame, rfl⟩
    · exact ⟨old, holdMem, by rw [hchanged, hend]⟩
  constructor
  · intro connection hmem
    obtain ⟨old, holdMem, holdEnd⟩ := hold connection hmem
    rw [holdEnd]
    exact hsound.inLinks old holdMem
  · rw [hends]
    exact hsound.distinct
  · exact hsound.waitingInLinks
  · exact hsound.waitingNodup
  · intro link hlink connection hmem
    obtain ⟨old, holdMem, holdEnd⟩ := hold connection hmem
    rw [holdEnd]
    exact hsound.waitingFree link hlink old holdMem
  · exact hsound.waitingOpen
  · intro connection hmem hstill
    rcases mem_of_mem_modify hmem with hsame | ⟨old, holdMem, hchanged⟩
    · exact hsound.heldOpen connection hsame hstill
    · rw [hchanged, hheld] at hstill
      cases hstill
  · intro id hended
    obtain ⟨connection, hmem, hconnectionEnd, hunheld⟩ := hsound.endedUnheld id hended
    rcases mem_modify_of_mem hmem number change with hsame | hchanged
    · exact ⟨connection, hsame, hconnectionEnd, hunheld⟩
    · exact ⟨change connection, hchanged, (hend _).trans hconnectionEnd, hheld _⟩
  · exact hsound.faultyClosed
  · intro connection hmem hclosed
    obtain ⟨old, holdMem, holdEnd⟩ := hold connection hmem
    rw [holdEnd] at hclosed ⊢
    exact hsound.closedEnded old holdMem hclosed

theorem endSending
    (hsound : LinksSound network connections) {connection : Connection}
    (hmem : connection ∈ connections) (hheld : connection.held = false) :
    LinksSound (network.endSending connection.endId) connections := by
  have hwinds := network.endSending_winds connection.endId
  have hopen := network.isOpen_endSending connection.endId
  constructor
  · rw [hwinds.links]
    exact hsound.inLinks
  · exact hsound.distinct
  · rw [hwinds.links]
    exact hsound.waitingInLinks
  · exact hsound.waitingNodup
  · exact hsound.waitingFree
  · intro link hlink
    rw [hopen]
    exact hsound.waitingOpen link hlink
  · intro other hother hotherHeld
    rw [hopen]
    exact hsound.heldOpen other hother hotherHeld
  · intro id hended
    rcases Network.ended_endSending hended with hpeer | hold
    · refine ⟨connection, hmem, ?_, hheld⟩
      rw [hpeer, EndId.peer_peer]
    · exact hsound.endedUnheld id hold
  · intro id hfaulty
    rw [Network.isFaulty_endSending] at hfaulty
    rw [hopen]
    exact hsound.faultyClosed id hfaulty
  · intro other hother hclosed
    rw [hopen] at hclosed
    exact hwinds.ended _ (hsound.closedEnded other hother hclosed)

theorem closeEnd
    (hsound : LinksSound network connections) {connection : Connection}
    (hmem : connection ∈ connections) (hheld : connection.held = false) :
    LinksSound (network.closeEnd connection.endId) connections := by
  have hwinds := network.closeEnd_winds connection.endId
  constructor
  · rw [hwinds.links]
    exact hsound.inLinks
  · exact hsound.distinct
  · rw [hwinds.links, Network.waitingLinks_closeEnd]
    exact hsound.waitingInLinks
  · rw [Network.waitingLinks_closeEnd]
    exact hsound.waitingNodup
  · rw [Network.waitingLinks_closeEnd]
    exact hsound.waitingFree
  · rw [Network.waitingLinks_closeEnd]
    intro link hlink
    have hfree := hsound.waitingFree link hlink connection hmem
    rw [Network.isOpen_closeEnd_of_ne _ (Ne.symm hfree)]
    exact hsound.waitingOpen link hlink
  · intro other hother hotherHeld
    have hne : other.endId ≠ connection.endId := by
      intro hsame
      have hequal := List.inj_on_of_nodup_map hsound.distinct hother hmem hsame
      rw [hequal, hheld] at hotherHeld
      cases hotherHeld
    rw [Network.isOpen_closeEnd_of_ne _ hne]
    exact hsound.heldOpen other hother hotherHeld
  · intro id hended
    rcases Network.ended_closeEnd hended with hpeer | hold
    · refine ⟨connection, hmem, ?_, hheld⟩
      rw [hpeer, EndId.peer_peer]
    · exact hsound.endedUnheld id hold
  · intro id hfaulty
    rcases Network.isFaulty_closeEnd hfaulty with hpeer | hold
    · rw [hpeer, EndId.peer_peer]
      exact network.isOpen_closeEnd_self connection.endId
    · by_contra hopen
      have hstill : (network.getEnd id.peer).isOpen = true :=
        hwinds.isOpen _ (by simpa using hopen)
      rw [hsound.faultyClosed id hold] at hstill
      cases hstill
  · intro other hother hclosed
    by_cases hself : other.endId = connection.endId
    · rw [hself]
      cases hopen : (network.getEnd connection.endId).isOpen with
      | true => exact Network.ended_closeEnd_peer hopen
      | false =>
          rw [Network.closeEnd_of_closed hopen]
          exact hsound.closedEnded connection hmem hopen
    · rw [Network.isOpen_closeEnd_of_ne _ hself] at hclosed
      exact hwinds.ended _ (hsound.closedEnded other hother hclosed)

/-! ## Closed listening sockets -/

theorem resetLink
    (hsound : LinksSound network connections) {link : Nat}
    (hwaits : link ∉ network.waitingLinks)
    (hfree : ∀ connection ∈ connections, connection.endId ≠ ⟨link, .answerer⟩) :
    LinksSound (network.resetLink link) connections := by
  have hwinds := network.resetLink_winds link
  constructor
  · rw [hwinds.links]
    exact hsound.inLinks
  · exact hsound.distinct
  · rw [hwinds.links]
    exact hsound.waitingInLinks
  · exact hsound.waitingNodup
  · exact hsound.waitingFree
  · intro other hother
    have hne : (⟨other, .answerer⟩ : EndId) ≠ ⟨link, .answerer⟩ := by
      intro hsame
      have hlink : other = link := congrArg EndId.link hsame
      exact hwaits (hlink ▸ hother)
    rw [Network.isOpen_resetLink_of_ne _ hne]
    exact hsound.waitingOpen other hother
  · intro connection hmem hheld
    rw [Network.isOpen_resetLink_of_ne _ (hfree connection hmem)]
    exact hsound.heldOpen connection hmem hheld
  · intro id hended
    rw [Network.ended_resetLink] at hended
    exact hsound.endedUnheld id hended
  · intro id hfaulty
    rcases Network.isFaulty_resetLink hfaulty with hcaller | hold
    · rw [hcaller]
      exact network.isOpen_resetLink_answerer link
    · by_contra hopen
      have hstill : (network.getEnd id.peer).isOpen = true :=
        hwinds.isOpen _ (by simpa using hopen)
      rw [hsound.faultyClosed id hold] at hstill
      cases hstill
  · intro connection hmem hclosed
    rw [Network.isOpen_resetLink_of_ne _ (hfree connection hmem)] at hclosed
    rw [Network.ended_resetLink]
    exact hsound.closedEnded connection hmem hclosed

theorem closeSocket (hsound : LinksSound network connections) (number : Nat) :
    LinksSound (network.closeSocket number) connections := by
  unfold Network.closeSocket
  cases hsocket : network.sockets[number]? with
  | none => exact hsound
  | some socket =>
      simp only
      obtain ⟨front, back, hbefore, hafter⟩ :=
        Network.waitingLinks_set hsocket { socket with isOpen := false, waiting := [] }
      generalize hclosed :
        ({ network with
            sockets :=
              network.sockets.set number
                { socket with isOpen := false, waiting := [] } } : Network) = closed
      rw [hclosed] at hafter
      have hlinks : closed.links = network.links := by rw [← hclosed]
      have hsublist : closed.waitingLinks.Sublist network.waitingLinks := by
        rw [hbefore, hafter]
        exact (List.sublist_append_right _ _).append_left _
      have hcleared : LinksSound closed connections := hsound.dropWaiting hlinks hsublist
      have hnodup := hsound.waitingNodup
      rw [hbefore] at hnodup
      have hgone : ∀ link ∈ socket.waiting, link ∉ closed.waitingLinks := by
        intro link hlink hmem
        rw [hafter] at hmem
        rw [List.perm_append_comm_assoc front socket.waiting back |>.nodup_iff] at hnodup
        exact (List.disjoint_of_nodup_append hnodup) hlink (by simpa using hmem)
      have hfree :
          ∀ link ∈ socket.waiting, ∀ connection ∈ connections,
            connection.endId ≠ ⟨link, .answerer⟩ := by
        intro link hlink
        apply hsound.waitingFree link
        rw [hbefore]
        simp [hlink]
      -- The links that waited are reset one by one; none of them waits elsewhere.
      clear hsocket hbefore hafter hclosed hlinks hsublist hnodup
      generalize socket.waiting = waiting at hgone hfree
      induction waiting generalizing closed with
      | nil => exact hcleared
      | cons link waiting ih =>
          have hreset : LinksSound (closed.resetLink link) connections :=
            hcleared.resetLink (hgone link List.mem_cons_self) (hfree link List.mem_cons_self)
          apply ih _ hreset
          · intro other hother
            exact hgone other (List.mem_cons_of_mem _ hother)
          · intro other hother
            exact hfree other (List.mem_cons_of_mem _ hother)

end LinksSound

end ResourceHandles
