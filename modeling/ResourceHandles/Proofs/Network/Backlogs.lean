import ResourceHandles.Proofs.Network.Listening

/-!
# Backlogs

The backlog of a listening socket changes in three ways only: a call puts a new link at
the end of it, an accept takes the link at the front, and closing the socket drops what
is left.  A socket that is closed is not opened again.
-/

namespace ResourceHandles

namespace Network

/-- How one entry of the list of listening sockets changes if no link is put into it or
taken out of it. -/
inductive Relisted : Option ListeningSocket → Option ListeningSocket → Prop where
  | same {socket? : Option ListeningSocket} : Relisted socket? socket?
  | bound {after : ListeningSocket} (hwaiting : after.waiting = []) :
      Relisted none (some after)
  | closed {before after : ListeningSocket}
      (hclosed : after.isOpen = false) (hwaiting : after.waiting = []) :
      Relisted (some before) (some after)

/-- The links that reached a socket are those that were taken, in order, and those that
wait in it.  When the socket is closed, those that waited are lost. -/
inductive Backlog : Option ListeningSocket → List Nat → List Nat → Prop where
  | missing : Backlog none [] []
  | listening {socket : ListeningSocket} {taken : List Nat} (hopen : socket.isOpen = true) :
      Backlog (some socket) (taken ++ socket.waiting) taken
  | closed {socket : ListeningSocket} {reached taken : List Nat}
      (hclosed : socket.isOpen = false) (hwaiting : socket.waiting = [])
      (htaken : taken <+: reached) :
      Backlog (some socket) reached taken

section

variable {socket? next? : Option ListeningSocket} {reached taken : List Nat}

theorem Relisted.trans
    {last? : Option ListeningSocket} (hfirst : Relisted socket? next?)
    (hsecond : Relisted next? last?) : Relisted socket? last? := by
  cases hsecond with
  | same => exact hfirst
  | bound hwaiting =>
      cases hfirst with
      | same => exact Relisted.bound hwaiting
  | closed hclosed hwaiting =>
      cases hfirst with
      | same => exact Relisted.closed hclosed hwaiting
      | bound _ => exact Relisted.bound hwaiting
      | closed _ _ => exact Relisted.closed hclosed hwaiting

theorem Backlog.isPrefix (hbacklog : Backlog socket? reached taken) : taken <+: reached := by
  cases hbacklog with
  | missing => exact List.prefix_rfl
  | listening hopen => exact List.prefix_append _ _
  | closed hclosed hwaiting htaken => exact htaken

theorem Backlog.relisted
    (hbacklog : Backlog socket? reached taken) (hrelisted : Relisted socket? next?) :
    Backlog next? reached taken := by
  cases hrelisted with
  | same => exact hbacklog
  | @bound after hwaiting =>
      cases hbacklog with
      | missing =>
          cases hopen : after.isOpen with
          | true =>
              have hlistening : Backlog (some after) ([] ++ after.waiting) [] :=
                Backlog.listening hopen
              rwa [hwaiting] at hlistening
          | false => exact Backlog.closed hopen hwaiting List.prefix_rfl
  | closed hclosed hwaiting => exact Backlog.closed hclosed hwaiting hbacklog.isPrefix

theorem Backlog.reach
    {socket : ListeningSocket} (hbacklog : Backlog (some socket) reached taken)
    (hopen : socket.isOpen = true) (link : Nat) :
    Backlog (some { socket with waiting := socket.waiting ++ [link] }) (reached ++ [link])
      taken := by
  cases hbacklog with
  | listening _ =>
      rw [List.append_assoc]
      exact Backlog.listening hopen
  | closed hclosed hwaiting htaken =>
      rw [hopen] at hclosed
      cases hclosed

theorem Backlog.take
    {socket : ListeningSocket} (hbacklog : Backlog (some socket) reached taken)
    {link : Nat} {later : List Nat} (hwaiting : socket.waiting = link :: later) :
    Backlog (some { socket with waiting := later }) reached (taken ++ [link]) := by
  cases hbacklog with
  | listening hopen =>
      have hreached : taken ++ socket.waiting = (taken ++ [link]) ++ later := by
        rw [hwaiting, List.append_assoc]
        rfl
      rw [hreached]
      exact Backlog.listening hopen
  | closed hclosed hnone htaken =>
      rw [hwaiting] at hnone
      cases hnone

end

/-! ## Operations and backlogs -/

variable {network next : Network} {number : Nat} {id : EndId}

theorem bind_relists
    {mode : CallMode} {host : IpAddress} {port : Nat}
    (hbind : network.bind mode host port = .ok (next, number)) (socket : Nat) :
    Relisted network.sockets[socket]? next.sockets[socket]? := by
  obtain ⟨-, rfl⟩ := bind_inv hbind
  simp only
  rcases Nat.lt_trichotomy socket network.sockets.length with hold | hnew | hbeyond
  · rw [List.getElem?_append_left hold]
    exact Relisted.same
  · subst hnew
    rw [List.getElem?_concat_length, List.getElem?_eq_none (Nat.le_refl _)]
    exact Relisted.bound rfl
  · rw [List.getElem?_eq_none hbeyond.le, List.getElem?_eq_none (by simpa using hbeyond)]
    exact Relisted.same

theorem isOpen_of_answers
    {socket : ListeningSocket} {host : IpAddress} {port : Nat}
    (hanswers : socket.answers host port = true) : socket.isOpen = true := by
  unfold ListeningSocket.answers at hanswers
  simp only [Bool.and_eq_true] at hanswers
  exact hanswers.1.1

/-- A call puts its link at the end of the backlog of one open socket. -/
theorem connect_reaches
    {host : IpAddress} {port : Nat} (hconnect : network.connect host port = .ok (next, id)) :
    ∃ number socket,
      network.sockets[number]? = some socket ∧ socket.isOpen = true ∧
        next.sockets =
          network.sockets.set number
            { socket with waiting := socket.waiting ++ [network.links.length] } := by
  obtain ⟨number, socket, hsocket, hanswers, -, -, rfl⟩ := connect_inv hconnect
  exact ⟨number, socket, hsocket, isOpen_of_answers hanswers, rfl⟩

theorem takeWaiting?_takes
    (htake : network.takeWaiting? number = some (next, id)) :
    ∃ socket link later,
      network.sockets[number]? = some socket ∧ socket.waiting = link :: later ∧
        id = ⟨link, .answerer⟩ ∧
          next.sockets = network.sockets.set number { socket with waiting := later } := by
  obtain ⟨socket, link, later, hsocket, hwaiting, hid, rfl⟩ := takeWaiting?_inv htake
  exact ⟨socket, link, later, hsocket, hwaiting, hid, rfl⟩

theorem sockets_send (network : Network) (id : EndId) (data : Bytes) (amount : Nat) :
    (network.send id data amount).1.sockets = network.sockets := by
  simp only [send]
  repeat' split
  all_goals rfl

theorem sockets_receive (network : Network) (id : EndId) (size amount : Nat) :
    (network.receive id size amount).1.sockets = network.sockets := by
  simp only [receive]
  repeat' split
  all_goals rfl

theorem sockets_closeEnd (network : Network) (id : EndId) :
    (network.closeEnd id).sockets = network.sockets := by
  simp only [closeEnd]
  repeat' split
  all_goals rfl

theorem sockets_resetLinks (network : Network) (links : List Nat) :
    (links.foldl resetLink network).sockets = network.sockets := by
  induction links generalizing network with
  | nil => rfl
  | cons link links ih => exact ih (network.resetLink link)

theorem closeSocket_relists (network : Network) (number socket : Nat) :
    Relisted network.sockets[socket]? (network.closeSocket number).sockets[socket]? := by
  unfold closeSocket
  split
  · exact Relisted.same
  · next closed hclosed =>
      simp only [sockets_resetLinks]
      by_cases hnumber : number = socket
      · subst hnumber
        have hlt := (List.getElem?_eq_some_iff.mp hclosed).1
        rw [hclosed, List.getElem?_set_self hlt]
        exact Relisted.closed rfl rfl
      · rw [List.getElem?_set_ne hnumber]
        exact Relisted.same

end Network

end ResourceHandles
