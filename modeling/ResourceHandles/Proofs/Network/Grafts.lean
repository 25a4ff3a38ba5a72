import ResourceHandles.Proofs.Network.Ends

/-!
# One link of a network

An operation on an end looks at the link of that end and at no other one, and changes nothing
but this link.  Both are said at once by taking the link over into another network: there the
operation goes as it does at home, and what it changes is what it changes at home.
-/

namespace ResourceHandles

/-! ## One entry of a list -/

section GraftAt

variable {α : Type} {entries donor : List α} {number : Nat}

/-- A list with one entry taken over from another list. -/
def graftAt (entries donor : List α) (number : Nat) : List α :=
  entries.modify number fun own => donor[number]?.getD own

@[simp] theorem length_graftAt (entries donor : List α) (number : Nat) :
    (graftAt entries donor number).length = entries.length :=
  List.length_modify _ _ _

theorem getElem?_graftAt_self (hlength : donor.length = entries.length) :
    (graftAt entries donor number)[number]? = donor[number]? := by
  unfold graftAt
  rw [List.getElem?_modify_eq]
  by_cases hnumber : number < entries.length
  · rw [List.getElem?_eq_getElem hnumber, List.getElem?_eq_getElem (hlength ▸ hnumber)]
    rfl
  · rw [List.getElem?_eq_none (Nat.not_lt.mp hnumber),
      List.getElem?_eq_none (hlength ▸ Nat.not_lt.mp hnumber)]
    rfl

theorem getElem?_graftAt_of_ne
    (entries donor : List α) {position : Nat} (hposition : position ≠ number) :
    (graftAt entries donor number)[position]? = entries[position]? :=
  List.getElem?_modify_ne _ _ (Ne.symm hposition)

theorem graftAt_self (entries : List α) (number : Nat) :
    graftAt entries entries number = entries := by
  apply List.ext_getElem?
  intro position
  by_cases hposition : position = number
  · subst hposition
    exact getElem?_graftAt_self rfl
  · exact getElem?_graftAt_of_ne _ _ hposition

theorem modify_graftAt (hlength : donor.length = entries.length) (change : α → α) :
    (graftAt entries donor number).modify number change =
      graftAt entries (donor.modify number change) number := by
  apply List.ext_getElem?
  intro position
  by_cases hposition : position = number
  · subst hposition
    rw [List.getElem?_modify_eq, getElem?_graftAt_self hlength,
      getElem?_graftAt_self ((List.length_modify _ _ _).trans hlength), List.getElem?_modify_eq]
  · rw [List.getElem?_modify_ne _ _ (Ne.symm hposition), getElem?_graftAt_of_ne _ _ hposition,
      getElem?_graftAt_of_ne _ _ hposition]

theorem set_graftAt (hlength : donor.length = entries.length) (value : α) :
    (graftAt entries donor number).set number value =
      graftAt entries (donor.set number value) number := by
  have hset : ∀ entries : List α,
      entries.set number value = entries.modify number fun _ => value := by
    intro entries
    rw [List.modify_eq_set_getElem?]
    by_cases hnumber : number < entries.length
    · simp [hnumber]
    · rw [List.getElem?_eq_none (Nat.not_lt.mp hnumber),
        List.set_eq_of_length_le (Nat.not_lt.mp hnumber)]
      rfl
  rw [hset, hset, modify_graftAt hlength]

/-- Two different entries may be taken over in any order. -/
theorem graftAt_comm
    {other : Nat} (hnumber : number ≠ other) (first second : List α) :
    graftAt (graftAt entries first number) second other =
      graftAt (graftAt entries second other) first number :=
  List.modify_modify_ne _ _ _ hnumber

end GraftAt

/-! ## One link -/

namespace Network

variable {network donor : Network} {id : EndId} {link : Nat}

/-- A network with one link taken over from another network. -/
def graft (network donor : Network) (link : Nat) : Network :=
  { network with links := graftAt network.links donor.links link }

theorem getEnd_graft
    (hlinks : donor.links.length = network.links.length) (hlink : id.link = link) :
    (network.graft donor link).getEnd id = donor.getEnd id := by
  subst hlink
  unfold getEnd graft
  rw [getElem?_graftAt_self hlinks]

theorem setEnd_graft
    (hlinks : donor.links.length = network.links.length) (hlink : id.link = link)
    (value : SocketEnd) :
    (network.graft donor link).setEnd id value = network.graft (donor.setEnd id value) link := by
  subst hlink
  unfold setEnd graft
  rw [modify_graftAt hlinks]

theorem changeEnd_graft
    (hlinks : donor.links.length = network.links.length) (hlink : id.link = link)
    (change : SocketEnd → SocketEnd) :
    (network.graft donor link).changeEnd id change =
      network.graft (donor.changeEnd id change) link := by
  unfold changeEnd
  rw [getEnd_graft hlinks hlink, setEnd_graft hlinks hlink]

theorem receive_graft
    (hlinks : donor.links.length = network.links.length) (hlink : id.link = link)
    (size amount : Nat) :
    (network.graft donor link).receive id size amount =
      (network.graft (donor.receive id size amount).1 link,
        (donor.receive id size amount).2) := by
  unfold receive
  simp only [getEnd_graft hlinks hlink]
  split
  · rw [setEnd_graft hlinks hlink]
  · split
    · rfl
    · split
      · rw [setEnd_graft hlinks hlink]
      · split
        · rfl
        · rfl

theorem send_graft
    (hlinks : donor.links.length = network.links.length)
    (hcapacity : donor.capacity = network.capacity) (hlink : id.link = link)
    (data : Bytes) (amount : Nat) :
    (network.graft donor link).send id data amount =
      (network.graft (donor.send id data amount).1 link, (donor.send id data amount).2) := by
  have hpeer : id.peer.link = link := hlink
  have hroom : (network.graft donor link).capacity = donor.capacity := hcapacity.symm
  unfold send
  simp only [getEnd_graft hlinks hlink, getEnd_graft hlinks hpeer, hroom]
  split
  · rw [setEnd_graft hlinks hlink]
  · split
    · rfl
    · split
      · rw [setEnd_graft hlinks hlink]
      · split
        · rfl
        · rw [setEnd_graft hlinks hpeer]

theorem endSending_graft
    (hlinks : donor.links.length = network.links.length) (hlink : id.link = link) :
    (network.graft donor link).endSending id = network.graft (donor.endSending id) link := by
  have hpeer : id.peer.link = link := hlink
  exact changeEnd_graft hlinks hpeer _

theorem closeEnd_graft
    (hlinks : donor.links.length = network.links.length) (hlink : id.link = link) :
    (network.graft donor link).closeEnd id = network.graft (donor.closeEnd id) link := by
  have hpeer : id.peer.link = link := hlink
  have hended : (donor.endSending id).links.length = network.links.length :=
    (length_links_changeEnd _ _ _).trans hlinks
  unfold closeEnd
  simp only [getEnd_graft hlinks hlink, endSending_graft hlinks hlink,
    changeEnd_graft hended hlink]
  split
  · rfl
  · split
    · rfl
    · rw [changeEnd_graft ((length_links_changeEnd _ _ _).trans hended) hpeer]

end Network

end ResourceHandles
