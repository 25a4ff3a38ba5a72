import ResourceHandles.Network.Operations
import Mathlib.Tactic

/-!
# Ends of links

An operation on sockets is described by what it does to each end: to the bytes
that wait there, to whether the end is open, to whether the other side has ended
its sending, and to its faults.  Later files use these descriptions and do not
open the operations.  This file treats the operations that move bytes.
-/

namespace ResourceHandles

/-! ## Names of ends -/

@[simp] theorem Side.other_other (side : Side) : side.other.other = side := by
  cases side <;> rfl

theorem Side.other_ne (side : Side) : side.other ≠ side := by
  cases side <;> simp [Side.other]

namespace EndId

@[simp] theorem peer_peer (id : EndId) : id.peer.peer = id := by
  unfold peer
  rw [Side.other_other]

theorem peer_ne (id : EndId) : id.peer ≠ id := by
  intro hsame
  exact id.side.other_ne (congrArg EndId.side hsame)

end EndId

/-- Whether an end has a fault to report or can send no more. -/
def SocketEnd.IsFaulty (socketEnd : SocketEnd) : Prop :=
  socketEnd.fault ≠ none ∨ socketEnd.severed = true

theorem Link.get_set (link : Link) (side other : Side) (value : SocketEnd) :
    (link.set side value).get other = if other = side then value else link.get other := by
  cases side <;> cases other <;> rfl

namespace Network

/-! ## Reading and writing an end -/

/-- The links that wait in listening sockets. -/
def waitingLinks (network : Network) : List Nat :=
  network.sockets.flatMap ListeningSocket.waiting

theorem getEnd_of_links
    {network next : Network} (hlinks : next.links = network.links) (id : EndId) :
    next.getEnd id = network.getEnd id := by
  unfold getEnd
  rw [hlinks]

theorem getEnd_of_missing
    {network : Network} {id : EndId} (hmissing : network.links.length ≤ id.link) :
    network.getEnd id = { isOpen := false } := by
  unfold getEnd
  rw [List.getElem?_eq_none hmissing]

theorem link_lt_of_isOpen
    {network : Network} {id : EndId} (hopen : (network.getEnd id).isOpen = true) :
    id.link < network.links.length := by
  by_contra hmissing
  rw [getEnd_of_missing (Nat.not_lt.mp hmissing)] at hopen
  cases hopen

@[simp] theorem length_links_setEnd (network : Network) (id : EndId) (value : SocketEnd) :
    (network.setEnd id value).links.length = network.links.length := by
  simp [setEnd]

theorem getEnd_setEnd_self
    {network : Network} {id : EndId} (value : SocketEnd)
    (hlink : id.link < network.links.length) :
    (network.setEnd id value).getEnd id = value := by
  unfold getEnd setEnd
  simp [hlink, Link.get_set]

theorem getEnd_setEnd_of_ne
    (network : Network) {id other : EndId} (value : SocketEnd) (hne : other ≠ id) :
    (network.setEnd id value).getEnd other = network.getEnd other := by
  unfold getEnd setEnd
  simp only [List.getElem?_modify]
  by_cases hlink : id.link = other.link
  · have hside : other.side ≠ id.side := by
      intro hside
      apply hne
      cases id
      cases other
      simp_all
    cases network.links[other.link]? with
    | none => rfl
    | some link => simp [hlink, Link.get_set, hside]
  · simp [hlink]

theorem setEnd_of_missing
    {network : Network} {id : EndId} (value : SocketEnd)
    (hmissing : network.links.length ≤ id.link) (other : EndId) :
    (network.setEnd id value).getEnd other = network.getEnd other := by
  apply getEnd_of_links
  unfold setEnd
  simp only
  apply List.ext_getElem?
  intro number
  rw [List.getElem?_modify]
  by_cases hnumber : id.link = number
  · subst hnumber
    rw [List.getElem?_eq_none hmissing]
    simp
  · simp [hnumber]

theorem setEnd_keeps
    {α : Type} (view : SocketEnd → α) {network : Network} {id : EndId} {value : SocketEnd}
    (hkeep : view value = view (network.getEnd id)) (other : EndId) :
    view ((network.setEnd id value).getEnd other) = view (network.getEnd other) := by
  by_cases hself : other = id
  · subst hself
    by_cases hlink : other.link < network.links.length
    · rw [getEnd_setEnd_self value hlink, hkeep]
    · rw [setEnd_of_missing value (Nat.not_lt.mp hlink)]
  · rw [getEnd_setEnd_of_ne network value hself]

theorem changeEnd_keeps
    {α : Type} (view : SocketEnd → α) {network : Network} {id : EndId}
    {change : SocketEnd → SocketEnd}
    (hkeep : view (change (network.getEnd id)) = view (network.getEnd id)) (other : EndId) :
    view ((network.changeEnd id change).getEnd other) = view (network.getEnd other) := by
  unfold changeEnd
  exact setEnd_keeps view hkeep other

theorem getEnd_changeEnd_self
    {network : Network} {id : EndId} (change : SocketEnd → SocketEnd)
    (hlink : id.link < network.links.length) :
    (network.changeEnd id change).getEnd id = change (network.getEnd id) :=
  getEnd_setEnd_self _ hlink

theorem getEnd_changeEnd_of_ne
    (network : Network) {id other : EndId} (change : SocketEnd → SocketEnd)
    (hne : other ≠ id) :
    (network.changeEnd id change).getEnd other = network.getEnd other :=
  getEnd_setEnd_of_ne network _ hne

@[simp] theorem length_links_changeEnd
    (network : Network) (id : EndId) (change : SocketEnd → SocketEnd) :
    (network.changeEnd id change).links.length = network.links.length :=
  length_links_setEnd network id _

/-! ## Moving bytes -/

/-- Two networks with the same links, whose ends differ in the bytes that wait
there and in faults; a new fault comes of sending to a closed end. -/
structure Moves (network next : Network) : Prop where
  links : next.links.length = network.links.length
  waiting : next.waitingLinks = network.waitingLinks
  isOpen : ∀ id, (next.getEnd id).isOpen = (network.getEnd id).isOpen
  ended : ∀ id, (next.getEnd id).ended = (network.getEnd id).ended
  faulty :
    ∀ id, (next.getEnd id).IsFaulty →
      (network.getEnd id).IsFaulty ∨ (network.getEnd id.peer).isOpen = false

theorem Moves.refl (network : Network) : network.Moves network := by
  constructor
  · rfl
  · rfl
  · exact fun _ => rfl
  · exact fun _ => rfl
  · exact fun _ hfaulty => Or.inl hfaulty

theorem moves_setEnd
    {network : Network} {id : EndId} {value : SocketEnd}
    (hopen : value.isOpen = (network.getEnd id).isOpen)
    (hended : value.ended = (network.getEnd id).ended)
    (hfaulty :
      value.IsFaulty → (network.getEnd id).IsFaulty ∨ (network.getEnd id.peer).isOpen = false) :
    network.Moves (network.setEnd id value) := by
  constructor
  · exact length_links_setEnd network id value
  · rfl
  · exact setEnd_keeps SocketEnd.isOpen hopen
  · exact setEnd_keeps SocketEnd.ended hended
  · intro other hother
    by_cases hself : other = id
    · subst hself
      by_cases hlink : other.link < network.links.length
      · rw [getEnd_setEnd_self value hlink] at hother
        exact hfaulty hother
      · rw [setEnd_of_missing value (Nat.not_lt.mp hlink)] at hother
        exact Or.inl hother
    · rw [getEnd_setEnd_of_ne network value hself] at hother
      exact Or.inl hother

theorem receive_moves (network : Network) (id : EndId) (size amount : Nat) :
    network.Moves (network.receive id size amount).1 := by
  unfold receive
  simp only
  split
  · exact moves_setEnd rfl rfl Or.inl
  · split
    · exact Moves.refl network
    · split
      · next fault hfault =>
          apply moves_setEnd
          · rfl
          · rfl
          · intro hfaulty
            left
            left
            rw [hfault]
            simp
      · split
        · exact Moves.refl network
        · exact Moves.refl network

theorem send_moves (network : Network) (id : EndId) (data : Bytes) (amount : Nat) :
    network.Moves (network.send id data amount).1 := by
  unfold send
  simp only
  split
  · next fault hfault =>
      apply moves_setEnd
      · rfl
      · rfl
      · intro hfaulty
        left
        left
        rw [hfault]
        simp
  · split
    · exact Moves.refl network
    · split
      · next hclosed =>
          apply moves_setEnd
          · rfl
          · rfl
          · intro hfaulty
            right
            simpa using hclosed
      · split
        · exact Moves.refl network
        · exact moves_setEnd rfl rfl Or.inl

theorem moves_of_receive
    {network next : Network} {id : EndId} {size amount : Nat} {transfer : Transfer Bytes}
    (hreceive : network.receive id size amount = (next, transfer)) :
    network.Moves next := by
  have hmoves := network.receive_moves id size amount
  rwa [hreceive] at hmoves

theorem moves_of_send
    {network next : Network} {id : EndId} {data : Bytes} {amount : Nat} {transfer : Transfer Nat}
    (hsend : network.send id data amount = (next, transfer)) :
    network.Moves next := by
  have hmoves := network.send_moves id data amount
  rwa [hsend] at hmoves

/-- Received bytes were the first to wait.  No bytes are received only if none
wait and none will come. -/
theorem receive_moved
    {network next : Network} {id : EndId} {size amount : Nat} {data : Bytes}
    (hreceive : network.receive id size amount = (next, .moved data)) :
    data ++ (next.getEnd id).inbox = (network.getEnd id).inbox ∧
      (∀ other, other ≠ id → (next.getEnd other).inbox = (network.getEnd other).inbox) ∧
      data.length ≤ size ∧
      (data = [] → 0 < size →
        (network.getEnd id).inbox = [] ∧
          ((network.getEnd id).ended = true ∨ (network.getEnd id).severed = true)) := by
  unfold receive at hreceive
  simp only at hreceive
  split at hreceive
  · next hinbox =>
      simp only [Prod.mk.injEq, Transfer.moved.injEq] at hreceive
      obtain ⟨rfl, rfl⟩ := hreceive
      have hlink : id.link < network.links.length := by
        by_contra hmissing
        rw [getEnd_of_missing (Nat.not_lt.mp hmissing)] at hinbox
        simp at hinbox
      refine ⟨?_, ?_, ?_, ?_⟩
      · rw [getEnd_setEnd_self _ hlink]
        exact List.take_append_drop _ _
      · intro other hother
        rw [getEnd_setEnd_of_ne _ _ hother]
      · rw [List.length_take]
        omega
      · intro hnone hsize
        have hnil : (network.getEnd id).inbox ≠ [] := by simpa using hinbox
        rw [List.take_eq_nil_iff] at hnone
        rcases hnone with hzero | hempty
        · omega
        · exact absurd hempty hnil
  · next hinbox =>
      have hnil : (network.getEnd id).inbox = [] := by simpa using hinbox
      split at hreceive
      · next hended =>
          simp only [Prod.mk.injEq, Transfer.moved.injEq] at hreceive
          obtain ⟨rfl, rfl⟩ := hreceive
          exact ⟨rfl, fun _ _ => rfl, Nat.zero_le _, fun _ _ => ⟨hnil, Or.inl hended⟩⟩
      · split at hreceive
        · cases hreceive
        · split at hreceive
          · next hsevered =>
              simp only [Prod.mk.injEq, Transfer.moved.injEq] at hreceive
              obtain ⟨rfl, rfl⟩ := hreceive
              exact ⟨rfl, fun _ _ => rfl, Nat.zero_le _, fun _ _ => ⟨hnil, Or.inr hsevered⟩⟩
          · cases hreceive

/-- Receiving fails only at an end with a fault, before the other side has ended
its sending. -/
theorem receive_failed
    {network next : Network} {id : EndId} {size amount : Nat} {fault : SocketFault}
    (hreceive : network.receive id size amount = (next, .failed fault)) :
    (∀ other, (next.getEnd other).inbox = (network.getEnd other).inbox) ∧
      (network.getEnd id).ended = false ∧ (network.getEnd id).IsFaulty := by
  unfold receive at hreceive
  simp only at hreceive
  split at hreceive
  · cases hreceive
  · split at hreceive
    · cases hreceive
    · next hended =>
        split at hreceive
        · next found hfault =>
            simp only [Prod.mk.injEq, Transfer.failed.injEq] at hreceive
            obtain ⟨rfl, rfl⟩ := hreceive
            refine ⟨setEnd_keeps SocketEnd.inbox rfl, by simpa using hended, ?_⟩
            left
            rw [hfault]
            simp
        · split at hreceive
          · cases hreceive
          · cases hreceive

theorem receive_of_ended
    {network : Network} {id : EndId} (hended : (network.getEnd id).ended = true)
    (size amount : Nat) :
    ∃ next data, network.receive id size amount = (next, .moved data) := by
  unfold receive
  simp only
  rw [if_pos hended]
  split
  · exact ⟨_, _, rfl⟩
  · exact ⟨_, _, rfl⟩

/-- Sent bytes come to wait behind all others at the other end, unless that is
closed; then they are lost. -/
theorem send_moved
    {network next : Network} {id : EndId} {data : Bytes} {amount count : Nat}
    (hsend : network.send id data amount = (next, .moved count)) :
    (∀ other, other ≠ id.peer → (next.getEnd other).inbox = (network.getEnd other).inbox) ∧
      (((network.getEnd id.peer).isOpen = true ∧
          (next.getEnd id.peer).inbox = (network.getEnd id.peer).inbox ++ data.take count) ∨
        ((network.getEnd id.peer).isOpen = false ∧
          (next.getEnd id.peer).inbox = (network.getEnd id.peer).inbox)) := by
  unfold send at hsend
  simp only at hsend
  split at hsend
  · cases hsend
  · split at hsend
    · cases hsend
    · split at hsend
      · next hclosed =>
          simp only [Prod.mk.injEq, Transfer.moved.injEq] at hsend
          obtain ⟨rfl, rfl⟩ := hsend
          have hinbox :
              ∀ other,
                ((network.setEnd id
                  { network.getEnd id with
                    severed := true, fault := some .brokenPipe }).getEnd other).inbox =
                  (network.getEnd other).inbox :=
            setEnd_keeps SocketEnd.inbox rfl
          exact ⟨fun other _ => hinbox other, Or.inr ⟨by simpa using hclosed, hinbox _⟩⟩
      · next hclosed =>
          have hopen : (network.getEnd id.peer).isOpen = true := by simpa using hclosed
          split at hsend
          · cases hsend
          · simp only [Prod.mk.injEq, Transfer.moved.injEq] at hsend
            obtain ⟨rfl, rfl⟩ := hsend
            refine ⟨?_, Or.inl ⟨hopen, ?_⟩⟩
            · intro other hother
              rw [getEnd_setEnd_of_ne _ _ hother]
            · rw [getEnd_setEnd_self _ (link_lt_of_isOpen hopen)]

theorem send_failed
    {network next : Network} {id : EndId} {data : Bytes} {amount : Nat} {fault : SocketFault}
    (hsend : network.send id data amount = (next, .failed fault)) :
    (∀ other, (next.getEnd other).inbox = (network.getEnd other).inbox) ∧
      (network.getEnd id).IsFaulty := by
  unfold send at hsend
  simp only at hsend
  split at hsend
  · next found hfault =>
      simp only [Prod.mk.injEq, Transfer.failed.injEq] at hsend
      obtain ⟨rfl, rfl⟩ := hsend
      refine ⟨setEnd_keeps SocketEnd.inbox rfl, ?_⟩
      left
      rw [hfault]
      simp
  · split at hsend
    · next hsevered =>
        simp only [Prod.mk.injEq, Transfer.failed.injEq] at hsend
        obtain ⟨rfl, rfl⟩ := hsend
        exact ⟨fun _ => rfl, Or.inr hsevered⟩
    · split at hsend
      · cases hsend
      · split at hsend
        · cases hsend
        · cases hsend

end Network

end ResourceHandles
