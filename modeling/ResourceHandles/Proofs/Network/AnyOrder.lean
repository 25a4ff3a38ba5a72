import ResourceHandles.Proofs.Network.Backlogs

/-!
# Closing in any order

Closing an end changes its own link only, and closing a listening socket changes the links that
wait in it.  Two things that are closed therefore get in each other's way only if they change
the same link, and then they change different parts of it, unless an end is closed on the
answering side of a link that still waits.  No program has such an end, so what is closed may
be closed in any order.
-/

namespace ResourceHandles

namespace Link

/-- The link after one of its ends was closed. -/
def closeSide (side : Side) (link : Link) : Link :=
  let own := link.get side
  let peer := { link.get side.other with ended := true }
  if !own.isOpen then link
  else
    (link.set side { own with isOpen := false }).set side.other
      (if own.inbox.isEmpty then peer
      else { peer with severed := true, fault := some .brokenPipe })

/-- The link after the socket in which it waited was closed. -/
def reset (link : Link) : Link :=
  ⟨{ link.caller with severed := true, fault := some .connectionReset },
    { link.answerer with isOpen := false }⟩

-- What is told to the other side is decided by whether the end is open and has bytes unread.
theorem closeSide_comm (link : Link) (side other : Side) :
    (link.closeSide side).closeSide other = (link.closeSide other).closeSide side := by
  obtain ⟨⟨unread, ended, fault, severed, isOpen⟩, ⟨later, told, found, cut, isThere⟩⟩ := link
  cases side <;> cases other <;> cases isOpen <;> cases isThere <;> cases unread <;>
    cases later <;> rfl

theorem closeSide_reset (link : Link) :
    link.reset.closeSide .caller = (link.closeSide .caller).reset := by
  obtain ⟨⟨unread, ended, fault, severed, isOpen⟩, answerer⟩ := link
  cases isOpen <;> cases unread <;> rfl

end Link

/-- A listening socket that was closed. -/
def ListeningSocket.closed (socket : ListeningSocket) : ListeningSocket :=
  { socket with isOpen := false, waiting := [] }

/-- What can be closed of a network. -/
inductive Closing where
  | socket (number : Nat)
  | endOf (id : EndId)
  deriving Repr, DecidableEq

namespace Network

variable {network : Network}

/-- The network with one link changed. -/
def changeLink (network : Network) (number : Nat) (change : Link → Link) : Network :=
  { network with links := network.links.modify number change }

theorem changeLink_congr {number : Nat} {first second : Link → Link}
    (hsame : ∀ link, network.links[number]? = some link → first link = second link) :
    network.changeLink number first = network.changeLink number second := by
  unfold changeLink
  congr 1
  apply List.ext_getElem?
  intro position
  rw [List.getElem?_modify, List.getElem?_modify]
  by_cases hposition : number = position
  · subst hposition
    cases hlink : network.links[number]? with
    | none => rfl
    | some link => simp [hsame link hlink]
  · simp [hposition]

theorem changeLink_self {number : Nat} {change : Link → Link}
    (hsame : ∀ link, network.links[number]? = some link → change link = link) :
    network.changeLink number change = network := by
  have hid : network.changeLink number change = network.changeLink number id :=
    changeLink_congr hsame
  rw [hid]
  unfold changeLink
  rw [List.modify_id]

theorem changeLink_changeLink (network : Network) (number : Nat) (first second : Link → Link) :
    (network.changeLink number first).changeLink number second =
      network.changeLink number (second ∘ first) := by
  unfold changeLink
  rw [List.modify_modify_eq]

theorem changeLink_comm {number other : Nat} {first second : Link → Link}
    (hcomm : number = other → second ∘ first = first ∘ second) :
    (network.changeLink number first).changeLink other second =
      (network.changeLink other second).changeLink number first := by
  by_cases hnumber : number = other
  · subst hnumber
    rw [changeLink_changeLink, changeLink_changeLink, hcomm rfl]
  · unfold changeLink
    rw [List.modify_modify_ne _ _ _ hnumber]

/-! ## Operations as changes of a link -/

theorem changeEnd_eq (network : Network) (id : EndId) (change : SocketEnd → SocketEnd) :
    network.changeEnd id change =
      network.changeLink id.link fun link => link.set id.side (change (link.get id.side)) := by
  have hset :
      network.changeEnd id change =
        network.changeLink id.link fun link => link.set id.side (change (network.getEnd id)) := rfl
  rw [hset]
  apply changeLink_congr
  intro link hlink
  unfold getEnd
  rw [hlink]

theorem resetLink_eq (network : Network) (link : Nat) :
    network.resetLink link = network.changeLink link Link.reset := by
  unfold resetLink
  rw [changeEnd_eq, changeEnd_eq, changeLink_changeLink]
  rfl

theorem closeEnd_eq (network : Network) (id : EndId) :
    network.closeEnd id = network.changeLink id.link (Link.closeSide id.side) := by
  have hown : ∀ link, network.links[id.link]? = some link →
      network.getEnd id = link.get id.side := by
    intro link hlink
    unfold getEnd
    rw [hlink]
  have hpeer : id.peer.link = id.link := rfl
  unfold closeEnd
  dsimp only
  split
  · next hclosed =>
      symm
      apply changeLink_self
      intro link hlink
      rw [hown link hlink] at hclosed
      unfold Link.closeSide
      rw [if_pos hclosed]
  · next hopen =>
      unfold endSending
      split
      · next hread =>
          rw [changeEnd_eq, changeEnd_eq, hpeer, changeLink_changeLink]
          apply changeLink_congr
          intro link hlink
          rw [hown link hlink] at hopen hread
          unfold Link.closeSide
          rw [if_neg hopen, if_pos hread]
          obtain ⟨number, side⟩ := id
          cases side <;> rfl
      · next hunread =>
          rw [changeEnd_eq, changeEnd_eq, changeEnd_eq, hpeer, changeLink_changeLink,
            changeLink_changeLink]
          apply changeLink_congr
          intro link hlink
          rw [hown link hlink] at hopen hunread
          unfold Link.closeSide
          rw [if_neg hopen, if_neg hunread]
          obtain ⟨number, side⟩ := id
          cases side <;> rfl

/-! ## Two things that are closed -/

theorem closeEnd_comm (network : Network) (first second : EndId) :
    (network.closeEnd first).closeEnd second = (network.closeEnd second).closeEnd first := by
  simp only [closeEnd_eq]
  apply changeLink_comm
  intro _
  funext link
  exact link.closeSide_comm first.side second.side

theorem resetLink_comm (network : Network) (first second : Nat) :
    (network.resetLink first).resetLink second = (network.resetLink second).resetLink first := by
  simp only [resetLink_eq]
  exact changeLink_comm fun _ => rfl

/-- An end is not closed on the answering side of a link that waits. -/
theorem resetLink_closeEnd
    (network : Network) {id : EndId} {link : Nat} (hfree : id ≠ ⟨link, .answerer⟩) :
    (network.closeEnd id).resetLink link = (network.resetLink link).closeEnd id := by
  simp only [resetLink_eq, closeEnd_eq]
  apply changeLink_comm
  intro hlink
  funext changed
  obtain ⟨number, side⟩ := id
  cases side with
  | caller => exact changed.closeSide_reset.symm
  | answerer => exact absurd (congrArg (EndId.mk · .answerer) hlink) hfree

theorem resetLinks_closeEnd
    {id : EndId} {links : List Nat} (network : Network)
    (hfree : ∀ link ∈ links, id ≠ ⟨link, .answerer⟩) :
    links.foldl resetLink (network.closeEnd id) = (links.foldl resetLink network).closeEnd id := by
  induction links generalizing network with
  | nil => rfl
  | cons link links ih =>
      rw [List.foldl_cons, List.foldl_cons,
        network.resetLink_closeEnd (hfree link List.mem_cons_self)]
      exact ih _ fun later hlater => hfree later (List.mem_cons_of_mem _ hlater)

theorem resetLinks_comm (network : Network) (first second : List Nat) :
    second.foldl resetLink (first.foldl resetLink network) =
      first.foldl resetLink (second.foldl resetLink network) := by
  rw [← List.foldl_append, ← List.foldl_append]
  exact List.perm_append_comm.foldl_eq'
    (fun link _ other _ later => later.resetLink_comm link other) network

/-- The network with other listening sockets. -/
def setSockets (network : Network) (sockets : List ListeningSocket) : Network :=
  { network with sockets := sockets }

theorem resetLinks_setSockets
    (network : Network) (sockets : List ListeningSocket) (links : List Nat) :
    links.foldl resetLink (network.setSockets sockets) =
      (links.foldl resetLink network).setSockets sockets := by
  induction links generalizing network with
  | nil => rfl
  | cons link links ih => exact ih (network.resetLink link)

theorem closeEnd_setSockets
    (network : Network) (sockets : List ListeningSocket) (id : EndId) :
    (network.setSockets sockets).closeEnd id = (network.closeEnd id).setSockets sockets := by
  rw [closeEnd_eq, closeEnd_eq]
  rfl

/-- The links that wait in a listening socket. -/
def backlog (network : Network) (number : Nat) : List Nat :=
  (network.sockets[number]?).elim [] ListeningSocket.waiting

theorem closeSocket_eq (network : Network) (number : Nat) :
    network.closeSocket number =
      ((network.backlog number).foldl resetLink network).setSockets
        (network.sockets.modify number ListeningSocket.closed) := by
  unfold closeSocket backlog
  split
  · next hsocket =>
      have hmissing := List.getElem?_eq_none_iff.mp hsocket
      rw [hsocket, List.modify_eq_self hmissing]
      rfl
  · next socket hsocket =>
      have hsockets :
          network.sockets.set number socket.closed =
            network.sockets.modify number ListeningSocket.closed := by
        rw [List.modify_eq_set_getElem?, hsocket]
        rfl
      rw [hsocket, ← resetLinks_setSockets, ← hsockets]
      rfl

theorem backlog_closeSocket (network : Network) (number other : Nat) :
    (network.closeSocket number).backlog other =
      if other = number then [] else network.backlog other := by
  rw [closeSocket_eq]
  unfold backlog setSockets
  rw [List.getElem?_modify]
  by_cases hother : other = number
  · subst hother
    cases network.sockets[other]? with
    | none => simp
    | some socket => simp [ListeningSocket.closed]
  · simp [hother, Ne.symm hother]

theorem closeSocket_comm (network : Network) (first second : Nat) :
    (network.closeSocket first).closeSocket second =
      (network.closeSocket second).closeSocket first := by
  by_cases hsame : first = second
  · rw [hsame]
  · have hsockets : ∀ number, (network.closeSocket number).sockets =
        network.sockets.modify number ListeningSocket.closed := by
      intro number
      rw [closeSocket_eq]
      rfl
    rw [(network.closeSocket first).closeSocket_eq, (network.closeSocket second).closeSocket_eq,
      backlog_closeSocket, backlog_closeSocket, if_neg (Ne.symm hsame), if_neg hsame, hsockets,
      hsockets, List.modify_modify_ne _ _ _ hsame, closeSocket_eq, closeSocket_eq,
      resetLinks_setSockets, resetLinks_setSockets, resetLinks_comm]
    rfl

theorem closeSocket_closeEnd
    {id : EndId} {number : Nat} (network : Network)
    (hfree : ∀ link ∈ network.backlog number, id ≠ ⟨link, .answerer⟩) :
    (network.closeEnd id).closeSocket number = (network.closeSocket number).closeEnd id := by
  have hbacklog : (network.closeEnd id).backlog number = network.backlog number := by
    unfold backlog
    rw [sockets_closeEnd]
  rw [closeSocket_eq, closeSocket_eq, closeEnd_setSockets, hbacklog,
    network.resetLinks_closeEnd hfree, sockets_closeEnd]

/-! ## Any number of things that are closed -/

/-- Closes a socket or an end. -/
def close (network : Network) : Closing → Network
  | .socket number => network.closeSocket number
  | .endOf id => network.closeEnd id

/-- An end is not on the answering side of a link that waits. -/
def Frees (network : Network) : Closing → Prop
  | .socket _ => True
  | .endOf id => ∀ number, ∀ link ∈ network.backlog number, id ≠ ⟨link, .answerer⟩

theorem Frees.close {closing : Closing} (hfrees : network.Frees closing) (other : Closing) :
    (network.close other).Frees closing := by
  cases closing with
  | socket number => trivial
  | endOf id =>
      intro number link hlink
      apply hfrees number link
      cases other with
      | socket closed =>
          change link ∈ (network.closeSocket closed).backlog number at hlink
          rw [backlog_closeSocket] at hlink
          split at hlink
          · cases hlink
          · exact hlink
      | endOf closed =>
          unfold backlog at hlink ⊢
          change link ∈ ((network.closeEnd closed).sockets[number]?).elim _ _ at hlink
          rwa [sockets_closeEnd] at hlink

theorem close_comm
    {first second : Closing} (hfirst : network.Frees first) (hsecond : network.Frees second) :
    (network.close first).close second = (network.close second).close first := by
  cases first with
  | socket number =>
      cases second with
      | socket other => exact network.closeSocket_comm number other
      | endOf id => exact (network.closeSocket_closeEnd (hsecond number)).symm
  | endOf id =>
      cases second with
      | socket number => exact network.closeSocket_closeEnd (hfirst number)
      | endOf other => exact network.closeEnd_comm id other

/-- Sockets and ends may be closed in any order. -/
theorem closeAll_perm
    {closings others : List Closing} (hperm : closings.Perm others)
    (hfrees : ∀ closing ∈ closings, network.Frees closing) :
    closings.foldl close network = others.foldl close network := by
  induction hperm generalizing network with
  | nil => rfl
  | cons closing hperm ih =>
      exact ih fun later hlater => (hfrees later (List.mem_cons_of_mem _ hlater)).close closing
  | swap second first rest =>
      rw [List.foldl_cons, List.foldl_cons, List.foldl_cons, List.foldl_cons,
        close_comm (hfrees _ List.mem_cons_self)
          (hfrees _ (List.mem_cons_of_mem _ List.mem_cons_self))]
  | trans hfirst hsecond ihFirst ihSecond =>
      rw [ihFirst hfrees]
      exact ihSecond fun closing hmem => hfrees closing (hfirst.mem_iff.mpr hmem)

end Network

end ResourceHandles
