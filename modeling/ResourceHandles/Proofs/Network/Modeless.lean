import ResourceHandles.Proofs.Network.Listening

/-!
# A network without modes

The mode of a listening socket says how many links may wait in it, and nothing else.  So a
network without modes goes the same way, as long as every call finds room in the socket that
it reaches, in whichever mode that was made.
-/

namespace ResourceHandles

/-- A change of one entry is seen as a change of what is seen of it. -/
theorem map_modify_comm
    {α β : Type} {view : α → β} {change : α → α} {seen : β → β}
    (hseen : ∀ entry, view (change entry) = seen (view entry)) (entries : List α) (number : Nat) :
    (entries.modify number change).map view = (entries.map view).modify number seen := by
  apply List.ext_getElem?
  intro position
  rw [List.getElem?_map, List.getElem?_modify, List.getElem?_modify, List.getElem?_map]
  cases entries[position]? with
  | none => rfl
  | some entry =>
      by_cases hposition : number = position
      · simp only [hposition, if_true, Option.map_some, Option.map_eq_map, hseen]
      · simp only [hposition, if_false, Option.map_some, Option.map_eq_map]

theorem CallMode.backlog_preResolved_le (mode : CallMode) :
    CallMode.preResolved.backlog ≤ mode.backlog := by
  cases mode with
  | preResolved => exact le_rfl
  | deferred => decide

def ListeningSocket.modeless (socket : ListeningSocket) : ListeningSocket :=
  { socket with mode := .preResolved }

namespace Network

variable {network : Network} {host : IpAddress} {port : Nat}

/-- The network with all listening sockets in one mode. -/
def modeless (network : Network) : Network :=
  { network with sockets := network.sockets.map ListeningSocket.modeless }

/-- Whether a call finds room in the socket that it reaches, if it reaches one, in whichever
mode that was made. -/
def hasRoom (network : Network) (host : IpAddress) (port : Nat) : Bool :=
  (network.sockets.find? fun socket => socket.answers (target host) port).all fun socket =>
    decide (socket.waiting.length ≤ CallMode.preResolved.backlog)

theorem hasRoom_modeless (network : Network) (host : IpAddress) (port : Nat) :
    network.modeless.hasRoom host port = network.hasRoom host port := by
  unfold hasRoom modeless
  rw [List.find?_map]
  show ((network.sockets.find? fun socket => socket.answers (target host) port).map _).all _ = _
  cases network.sockets.find? fun socket => socket.answers (target host) port with
  | none => rfl
  | some socket => rfl

/-! ## Listening sockets -/

theorem bind_modeless (network : Network) (mode : CallMode) (host : IpAddress) (port : Nat) :
    network.modeless.bind .preResolved host port =
      (network.bind mode host port).map fun bound => (bound.1.modeless, bound.2) := by
  have hconflicts :
      (network.modeless.sockets.any fun socket => socket.conflicts host port) =
        network.sockets.any fun socket => socket.conflicts host port := by
    unfold modeless
    rw [List.any_map]
    rfl
  unfold bind
  rw [hconflicts, show network.modeless.exhausted = network.exhausted from rfl,
    show network.modeless.routed = network.routed from rfl]
  split
  · rfl
  · split
    · rfl
    · split
      · rfl
      · simp [Except.map, modeless, ListeningSocket.modeless]

/-- A socket that is reached and in which there is room is not full in any mode. -/
theorem isFull_of_hasRoom
    {number : Nat} (hroom : network.hasRoom host port = true)
    (hfound :
      (network.sockets.findIdx? fun socket => socket.answers (target host) port) =
        some number) :
    network.isFull number = false := by
  obtain ⟨hnumber, hanswers, hfirst⟩ := List.findIdx?_eq_some_iff_getElem.mp hfound
  have hsocket :
      (network.sockets.find? fun socket => socket.answers (target host) port) =
        some network.sockets[number] :=
    List.find?_eq_some_iff_getElem.mpr
      ⟨hanswers, number, hnumber, rfl,
        fun earlier hearlier => by simpa using hfirst earlier hearlier⟩
  unfold hasRoom at hroom
  rw [hsocket, Option.all_some, decide_eq_true_eq] at hroom
  have hbacklog := network.sockets[number].mode.backlog_preResolved_le
  unfold isFull ListeningSocket.isFull
  rw [List.getElem?_eq_getElem hnumber, Option.any_some, decide_eq_false_iff_not]
  omega

theorem connect_modeless (hroom : network.hasRoom host port = true) :
    network.modeless.connect host port =
      (network.connect host port).map fun reached => (reached.1.modeless, reached.2) := by
  have hfind :
      (network.modeless.sockets.findIdx? fun socket => socket.answers (target host) port) =
        network.sockets.findIdx? fun socket => socket.answers (target host) port := by
    unfold modeless
    rw [List.findIdx?_map]
    rfl
  unfold connect
  rw [hfind, show network.modeless.exhausted = network.exhausted from rfl,
    show network.modeless.routed = network.routed from rfl]
  split
  · rfl
  · split
    · rfl
    · cases hfound : network.sockets.findIdx? fun socket => socket.answers (target host) port with
      | none => rfl
      | some number =>
          have hmodeless :=
            isFull_of_hasRoom ((hasRoom_modeless ..).trans hroom) (hfind.trans hfound)
          dsimp only
          rw [isFull_of_hasRoom hroom hfound, hmodeless]
          simp only [Bool.false_eq_true, if_false, Except.map]
          unfold modeless
          dsimp only
          let join (socket : ListeningSocket) : ListeningSocket :=
            { socket with waiting := socket.waiting ++ [network.links.length] }
          have hjoin : ∀ socket, (join socket).modeless = join socket.modeless := fun _ => rfl
          rw [show (network.sockets.modify number fun socket =>
              { socket with waiting := socket.waiting ++ [network.links.length] }) =
            network.sockets.modify number join from rfl, map_modify_comm hjoin]

theorem takeWaiting?_modeless (network : Network) (number : Nat) :
    network.modeless.takeWaiting? number =
      (network.takeWaiting? number).map fun taken => (taken.1.modeless, taken.2) := by
  unfold takeWaiting? modeless
  dsimp only
  rw [List.getElem?_map]
  cases network.sockets[number]? with
  | none => rfl
  | some socket =>
      have hwaiting : socket.modeless.waiting = socket.waiting := rfl
      simp only [Option.map_some, hwaiting]
      cases socket.waiting with
      | nil => rfl
      | cons link later =>
          simp only [Option.map_some, List.map_set]
          rfl

theorem accept_modeless (network : Network) (number : Nat) :
    network.modeless.accept number =
      ((network.accept number).1.modeless, (network.accept number).2) := by
  unfold accept
  rw [takeWaiting?_modeless, show network.modeless.exhausted = network.exhausted from rfl]
  cases network.takeWaiting? number with
  | none => rfl
  | some taken =>
      dsimp only [Option.map_some]
      split
      · rfl
      · rfl

theorem resetLinks_modeless (network : Network) (links : List Nat) :
    links.foldl resetLink network.modeless = (links.foldl resetLink network).modeless := by
  induction links generalizing network with
  | nil => rfl
  | cons link links ih => exact ih (network.resetLink link)

theorem closeSocket_modeless (network : Network) (number : Nat) :
    network.modeless.closeSocket number = (network.closeSocket number).modeless := by
  unfold closeSocket
  rw [show network.modeless.sockets[number]? =
    (network.sockets[number]?).map ListeningSocket.modeless from List.getElem?_map ..]
  cases network.sockets[number]? with
  | none => rfl
  | some socket =>
      dsimp only [Option.map_some]
      rw [← resetLinks_modeless]
      unfold modeless
      rw [List.map_set]
      rfl

/-! ## Links -/

theorem receive_modeless (network : Network) (id : EndId) (size amount : Nat) :
    network.modeless.receive id size amount =
      ((network.receive id size amount).1.modeless, (network.receive id size amount).2) := by
  unfold receive
  rw [show network.modeless.getEnd id = network.getEnd id from rfl]
  dsimp only
  split
  · rfl
  · split
    · rfl
    · split
      · rfl
      · split
        · rfl
        · rfl

theorem send_modeless (network : Network) (id : EndId) (data : Bytes) (amount : Nat) :
    network.modeless.send id data amount =
      ((network.send id data amount).1.modeless, (network.send id data amount).2) := by
  unfold send
  rw [show network.modeless.getEnd id = network.getEnd id from rfl,
    show network.modeless.getEnd id.peer = network.getEnd id.peer from rfl,
    show network.modeless.capacity = network.capacity from rfl]
  dsimp only
  split
  · rfl
  · split
    · rfl
    · split
      · rfl
      · split
        · rfl
        · rfl

theorem closeEnd_modeless (network : Network) (id : EndId) :
    network.modeless.closeEnd id = (network.closeEnd id).modeless := by
  unfold closeEnd
  rw [show network.modeless.getEnd id = network.getEnd id from rfl]
  dsimp only
  split
  · rfl
  · split
    · rfl
    · rfl

end Network

end ResourceHandles
