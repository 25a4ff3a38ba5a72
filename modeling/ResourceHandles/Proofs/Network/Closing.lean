import ResourceHandles.Proofs.Network.Ends

/-!
# Ending, closing and resetting

Ending the sending of an end, closing it, and closing a listening socket leave all
bytes where they wait.  They close ends, tell the other sides that nothing more
will come, and leave faults there; nothing of this is ever taken back.
-/

namespace ResourceHandles

namespace Network

/-! ## Nothing is taken back -/

/-- Two networks with the same bytes waiting at every end, in which no closed end
was opened and no ended sending resumed. -/
structure Winds (network next : Network) : Prop where
  links : next.links.length = network.links.length
  inbox : ∀ id, (next.getEnd id).inbox = (network.getEnd id).inbox
  isOpen : ∀ id, (next.getEnd id).isOpen = true → (network.getEnd id).isOpen = true
  ended : ∀ id, (network.getEnd id).ended = true → (next.getEnd id).ended = true

theorem Winds.refl (network : Network) : network.Winds network := by
  constructor
  · rfl
  · exact fun _ => rfl
  · exact fun _ hopen => hopen
  · exact fun _ hended => hended

theorem Winds.trans
    {network middle next : Network}
    (hfirst : network.Winds middle) (hsecond : middle.Winds next) :
    network.Winds next := by
  constructor
  · rw [hsecond.links, hfirst.links]
  · intro id
    rw [hsecond.inbox, hfirst.inbox]
  · intro id hopen
    exact hfirst.isOpen id (hsecond.isOpen id hopen)
  · intro id hended
    exact hsecond.ended id (hfirst.ended id hended)

theorem winds_changeEnd
    {network : Network} {id : EndId} {change : SocketEnd → SocketEnd}
    (hinbox : (change (network.getEnd id)).inbox = (network.getEnd id).inbox)
    (hopen : (change (network.getEnd id)).isOpen = true → (network.getEnd id).isOpen = true)
    (hended : (network.getEnd id).ended = true → (change (network.getEnd id)).ended = true) :
    network.Winds (network.changeEnd id change) := by
  have hcases :
      ∀ other,
        (network.changeEnd id change).getEnd other = network.getEnd other ∨
          (other = id ∧
            (network.changeEnd id change).getEnd other = change (network.getEnd id)) := by
    intro other
    by_cases hself : other = id
    · subst hself
      by_cases hlink : other.link < network.links.length
      · exact Or.inr ⟨rfl, getEnd_changeEnd_self change hlink⟩
      · exact Or.inl (setEnd_of_missing _ (Nat.not_lt.mp hlink) other)
    · exact Or.inl (getEnd_changeEnd_of_ne network change hself)
  constructor
  · exact length_links_changeEnd network id change
  · exact changeEnd_keeps SocketEnd.inbox hinbox
  · intro other hother
    rcases hcases other with hsame | ⟨rfl, hchanged⟩
    · rwa [hsame] at hother
    · rw [hchanged] at hother
      exact hopen hother
  · intro other hother
    rcases hcases other with hsame | ⟨rfl, hchanged⟩
    · rwa [hsame]
    · rw [hchanged]
      exact hended hother

theorem endSending_winds (network : Network) (id : EndId) :
    network.Winds (network.endSending id) := by
  unfold endSending
  exact winds_changeEnd rfl (fun hopen => hopen) (fun _ => rfl)

theorem resetLink_winds (network : Network) (link : Nat) :
    network.Winds (network.resetLink link) := by
  have hfaulted :
      network.Winds
        (network.changeEnd ⟨link, .caller⟩ fun own =>
          { own with severed := true, fault := some .connectionReset }) :=
    winds_changeEnd rfl (fun hopen => hopen) (fun hended => hended)
  apply hfaulted.trans
  apply winds_changeEnd rfl _ (fun hended => hended)
  intro hopen
  cases hopen

theorem closeEnd_winds (network : Network) (id : EndId) :
    network.Winds (network.closeEnd id) := by
  have hclosed :
      network.Winds
        ((network.endSending id).changeEnd id fun own => { own with isOpen := false }) := by
    apply (network.endSending_winds id).trans
    apply winds_changeEnd rfl _ (fun hended => hended)
    intro hopen
    cases hopen
  unfold closeEnd
  simp only
  split
  · exact Winds.refl network
  · split
    · exact hclosed
    · exact hclosed.trans (winds_changeEnd rfl (fun hopen => hopen) (fun hended => hended))

theorem closeSocket_winds (network : Network) (number : Nat) :
    network.Winds (network.closeSocket number) := by
  unfold closeSocket
  split
  · exact Winds.refl network
  · next socket hsocket =>
      have hfold :
          ∀ (waiting : List Nat) (start : Network),
            start.Winds (waiting.foldl resetLink start) := by
        intro waiting
        induction waiting with
        | nil => exact Winds.refl
        | cons link waiting ih =>
            intro start
            exact (start.resetLink_winds link).trans (ih _)
      have hstart :
          network.Winds
            { network with
              sockets :=
                network.sockets.set number { socket with isOpen := false, waiting := [] } } := by
        constructor
        · rfl
        · exact fun _ => rfl
        · exact fun _ hopen => hopen
        · exact fun _ hended => hended
      exact hstart.trans (hfold _ _)

/-! ## What ending and closing change -/

theorem ended_endSending
    {network : Network} {id other : EndId}
    (hended : ((network.endSending id).getEnd other).ended = true) :
    other = id.peer ∨ (network.getEnd other).ended = true := by
  by_cases hpeer : other = id.peer
  · exact Or.inl hpeer
  · right
    unfold endSending at hended
    rwa [getEnd_changeEnd_of_ne network _ hpeer] at hended

theorem ended_endSending_peer
    {network : Network} {id : EndId} (hlink : id.link < network.links.length) :
    ((network.endSending id).getEnd id.peer).ended = true := by
  have hpeer : id.peer.link < network.links.length := hlink
  unfold endSending
  rw [getEnd_changeEnd_self _ hpeer]

theorem isOpen_endSending (network : Network) (id other : EndId) :
    ((network.endSending id).getEnd other).isOpen = (network.getEnd other).isOpen := by
  unfold endSending
  exact changeEnd_keeps SocketEnd.isOpen rfl other

theorem isFaulty_endSending (network : Network) (id other : EndId) :
    ((network.endSending id).getEnd other).IsFaulty ↔ (network.getEnd other).IsFaulty := by
  unfold endSending
  rw [changeEnd_keeps SocketEnd.IsFaulty rfl]

@[simp] theorem waitingLinks_closeEnd (network : Network) (id : EndId) :
    (network.closeEnd id).waitingLinks = network.waitingLinks := by
  unfold closeEnd
  simp only
  split
  · rfl
  · split
    · rfl
    · rfl

theorem closeEnd_of_open
    {network : Network} {id : EndId} (hopen : (network.getEnd id).isOpen = true) :
    let closed := (network.endSending id).changeEnd id fun own => { own with isOpen := false }
    network.closeEnd id = closed ∨
      network.closeEnd id =
        closed.changeEnd id.peer fun peer =>
          { peer with severed := true, fault := some .brokenPipe } := by
  unfold closeEnd
  simp only [hopen, Bool.not_true, Bool.false_eq_true, if_false]
  split
  · exact Or.inl rfl
  · exact Or.inr rfl

theorem closeEnd_of_closed
    {network : Network} {id : EndId} (hclosed : (network.getEnd id).isOpen = false) :
    network.closeEnd id = network := by
  unfold closeEnd
  simp [hclosed]

theorem isOpen_closeEnd_self (network : Network) (id : EndId) :
    ((network.closeEnd id).getEnd id).isOpen = false := by
  cases hopen : (network.getEnd id).isOpen with
  | false => rw [closeEnd_of_closed hopen, hopen]
  | true =>
      have hlink := link_lt_of_isOpen hopen
      have hself : id ≠ id.peer := fun hsame => id.peer_ne hsame.symm
      have hlinks := (network.endSending_winds id).links
      rcases closeEnd_of_open hopen with hclosed | hclosed
      · rw [hclosed, getEnd_changeEnd_self _ (by rwa [hlinks])]
      · rw [hclosed, getEnd_changeEnd_of_ne _ _ hself,
          getEnd_changeEnd_self _ (by rwa [hlinks])]

theorem isOpen_closeEnd_of_ne
    (network : Network) {id other : EndId} (hne : other ≠ id) :
    ((network.closeEnd id).getEnd other).isOpen = (network.getEnd other).isOpen := by
  cases hopen : (network.getEnd id).isOpen with
  | false => rw [closeEnd_of_closed hopen]
  | true =>
      have hclosing :
          (((network.endSending id).changeEnd id fun own =>
            { own with isOpen := false }).getEnd other).isOpen =
              (network.getEnd other).isOpen := by
        rw [getEnd_changeEnd_of_ne _ _ hne, isOpen_endSending]
      rcases closeEnd_of_open hopen with hclosed | hclosed
      · rw [hclosed, hclosing]
      · rw [hclosed, changeEnd_keeps SocketEnd.isOpen rfl, hclosing]

theorem ended_closeEnd
    {network : Network} {id other : EndId}
    (hended : ((network.closeEnd id).getEnd other).ended = true) :
    other = id.peer ∨ (network.getEnd other).ended = true := by
  cases hopen : (network.getEnd id).isOpen with
  | false =>
      rw [closeEnd_of_closed hopen] at hended
      exact Or.inr hended
  | true =>
      apply ended_endSending
      rcases closeEnd_of_open hopen with hclosed | hclosed
      · rw [hclosed, changeEnd_keeps SocketEnd.ended rfl] at hended
        exact hended
      · rw [hclosed, changeEnd_keeps SocketEnd.ended rfl, changeEnd_keeps SocketEnd.ended rfl]
          at hended
        exact hended

theorem ended_closeEnd_peer
    {network : Network} {id : EndId} (hopen : (network.getEnd id).isOpen = true) :
    ((network.closeEnd id).getEnd id.peer).ended = true := by
  have hended := ended_endSending_peer (link_lt_of_isOpen hopen)
  rcases closeEnd_of_open hopen with hclosed | hclosed
  · rw [hclosed, changeEnd_keeps SocketEnd.ended rfl]
    exact hended
  · rw [hclosed, changeEnd_keeps SocketEnd.ended rfl, changeEnd_keeps SocketEnd.ended rfl]
    exact hended

theorem isFaulty_closeEnd
    {network : Network} {id other : EndId}
    (hfaulty : ((network.closeEnd id).getEnd other).IsFaulty) :
    other = id.peer ∨ (network.getEnd other).IsFaulty := by
  cases hopen : (network.getEnd id).isOpen with
  | false =>
      rw [closeEnd_of_closed hopen] at hfaulty
      exact Or.inr hfaulty
  | true =>
      by_cases hpeer : other = id.peer
      · exact Or.inl hpeer
      · right
        rw [← isFaulty_endSending network id]
        rcases closeEnd_of_open hopen with hclosed | hclosed
        · rw [hclosed, changeEnd_keeps SocketEnd.IsFaulty rfl] at hfaulty
          exact hfaulty
        · rw [hclosed, getEnd_changeEnd_of_ne _ _ hpeer, changeEnd_keeps SocketEnd.IsFaulty rfl]
            at hfaulty
          exact hfaulty

end Network

end ResourceHandles
