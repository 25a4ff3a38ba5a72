import ResourceHandles.Proofs.Machine.ByteStream

/-!
# Links that are not severed

A link is severed if an end of it is closed with bytes left unread, or if bytes are sent to an end
that is closed.  What is promised of the streams of a severed link rests on a transport that still
delivers what was sent, which a host need not do.  Here it is shown when nobody depends on that: as
long as the writer is open, and also when it has closed with nothing left unread and the reader
sends nothing, the end of the reader has no fault.
-/

namespace ResourceHandles

/-! ## What puts an end at fault -/

namespace Network

variable {network next : Network} {id other : EndId}

theorem isFaulty_setEnd
    {value : SocketEnd} (hvalue : value.IsFaulty → (network.getEnd id).IsFaulty)
    (hfaulty : ((network.setEnd id value).getEnd other).IsFaulty) :
    (network.getEnd other).IsFaulty := by
  by_cases hself : other = id
  · subst hself
    by_cases hlink : other.link < network.links.length
    · rw [getEnd_setEnd_self value hlink] at hfaulty
      exact hvalue hfaulty
    · rwa [setEnd_of_missing value (Nat.not_lt.mp hlink)] at hfaulty
  · rwa [getEnd_setEnd_of_ne network value hself] at hfaulty

theorem isFaulty_receive
    {size amount : Nat} {transfer : Transfer Bytes}
    (hreceive : network.receive id size amount = (next, transfer))
    (hfaulty : (next.getEnd other).IsFaulty) : (network.getEnd other).IsFaulty := by
  obtain rfl : (network.receive id size amount).1 = next := congrArg Prod.fst hreceive
  unfold receive at hfaulty
  dsimp only at hfaulty
  split at hfaulty
  · refine isFaulty_setEnd ?_ hfaulty
    exact fun hvalue => hvalue
  · split at hfaulty
    · exact hfaulty
    · split at hfaulty
      · next fault hfault =>
        refine isFaulty_setEnd (fun _ => Or.inl ?_) hfaulty
        rw [hfault]
        simp
      · split at hfaulty
        · exact hfaulty
        · exact hfaulty

/-- Sending puts no other end at fault than the one that sends. -/
theorem isFaulty_send
    {data : Bytes} {amount : Nat} {transfer : Transfer Nat}
    (hsend : network.send id data amount = (next, transfer)) (hother : other ≠ id)
    (hfaulty : (next.getEnd other).IsFaulty) : (network.getEnd other).IsFaulty := by
  obtain rfl : (network.send id data amount).1 = next := congrArg Prod.fst hsend
  unfold send at hfaulty
  dsimp only at hfaulty
  split at hfaulty
  · rwa [getEnd_setEnd_of_ne _ _ hother] at hfaulty
  · split at hfaulty
    · exact hfaulty
    · split at hfaulty
      · rwa [getEnd_setEnd_of_ne _ _ hother] at hfaulty
      · split at hfaulty
        · exact hfaulty
        · refine isFaulty_setEnd ?_ hfaulty
          exact fun hvalue => hvalue

/-- An end that is closed with nothing left unread puts no end at fault. -/
theorem isFaulty_closeEnd_of_read
    (hread : (network.getEnd id).inbox = [])
    (hfaulty : ((network.closeEnd id).getEnd other).IsFaulty) :
    (network.getEnd other).IsFaulty := by
  unfold closeEnd at hfaulty
  simp only [hread, List.isEmpty_nil, if_true] at hfaulty
  split at hfaulty
  · exact hfaulty
  · rwa [changeEnd_keeps SocketEnd.IsFaulty rfl, isFaulty_endSending] at hfaulty

/-- A listening socket that is closed puts the callers at fault that wait in it. -/
theorem isFaulty_closeSocket
    {number : Nat} (hfaulty : ((network.closeSocket number).getEnd other).IsFaulty) :
    (∃ link ∈ network.waitingLinks, other = ⟨link, .caller⟩) ∨
      (network.getEnd other).IsFaulty := by
  unfold closeSocket at hfaulty
  split at hfaulty
  · exact Or.inr hfaulty
  · next socket hsocket =>
    dsimp only at hfaulty
    have hwaits : ∀ link ∈ socket.waiting, link ∈ network.waitingLinks :=
      fun link hlink => List.mem_flatMap.mpr ⟨socket, List.mem_of_getElem? hsocket, hlink⟩
    generalize hclosed :
      ({ network with
          sockets :=
            network.sockets.set number
              { socket with isOpen := false, waiting := [] } } : Network) = closed at hfaulty
    have hsame : (closed.getEnd other).IsFaulty → (network.getEnd other).IsFaulty := by
      rw [← hclosed]
      exact fun hother => hother
    clear hsocket hclosed
    generalize socket.waiting = waiting at hfaulty hwaits
    induction waiting generalizing closed with
    | nil => exact Or.inr (hsame hfaulty)
    | cons link waiting ih =>
        by_cases hcaller : other = ⟨link, .caller⟩
        · exact Or.inl ⟨link, hwaits link List.mem_cons_self, hcaller⟩
        · refine ih _ ?_ hfaulty ?_
          · intro hreset
            rcases isFaulty_resetLink hreset with hsameEnd | hold
            · exact absurd hsameEnd hcaller
            · exact hsame hold
          · exact fun later hlater => hwaits later (List.mem_cons_of_mem _ hlater)

/-- An action that moves no bytes puts no end at fault. -/
theorem Stirs.isFaulty
    {moving : Prop} (hstirs : network.Stirs moving next) (hstill : ¬moving)
    (hfaulty : (next.getEnd other).IsFaulty) : (network.getEnd other).IsFaulty := by
  cases hstirs with
  | still hlinks => rwa [getEnd_of_links hlinks] at hfaulty
  | linked hlinks =>
      by_cases hlink : other.link < network.links.length
      · rwa [getEnd_of_linked hlinks hlink] at hfaulty
      · -- The new link is without fault.
        unfold getEnd at hfaulty
        rw [hlinks, List.getElem?_append_right (Nat.not_lt.mp hlink)] at hfaulty
        cases hnew : other.link - network.links.length with
        | zero =>
            cases hside : other.side <;>
              simp [hnew, hside, SocketEnd.IsFaulty, Link.get] at hfaulty
        | succ beyond => simp [hnew, SocketEnd.IsFaulty] at hfaulty
  | ending id => rwa [isFaulty_endSending] at hfaulty
  | moved hmoving hmoves => exact absurd hmoving hstill

end Network

namespace Machine

variable {machine next : Machine} {log : List Record} {record : Record} {id : EndId}

/-- Carrying out an action puts an end at fault only by sending at it. -/
theorem Performed.isFaulty
    {space amount : Nat} {action : Action} {progress : Progress}
    (hperformed : machine.Performed space amount action next progress)
    (hfaulty : (next.network.getEnd id).IsFaulty) :
    (machine.network.getEnd id).IsFaulty ∨
      ∃ handle number data,
        action = .send handle number data ∧ endOf? machine.connections number = some id := by
  by_cases hmoving : MovesBytes action
  · obtain ⟨handle, number, rfl⟩ | ⟨handle, number, data, rfl⟩ := hmoving
    · left
      cases hperformed with
      | idle hlane hreply => exact hfaulty
      | received hconnection hraised hreceive => exact Network.isFaulty_receive hreceive hfaulty
      | unreceived hconnection hreceive => exact Network.isFaulty_receive hreceive hfaulty
      | receiverGone hgone => exact hfaulty
      | blocked => exact hfaulty
    · have hsent :
          ∀ {connection : Connection} {network : Network} {amount : Nat} {transfer : Transfer Nat},
            machine.connections[number]? = some connection →
              machine.network.send connection.endId data amount = (network, transfer) →
                (network.getEnd id).IsFaulty →
                  (machine.network.getEnd id).IsFaulty ∨
                    endOf? machine.connections number = some id := by
        intro connection network amount transfer hconnection hsend hfaulty
        by_cases hid : id = connection.endId
        · exact Or.inr ((endOf?_eq_some_iff hconnection).mpr hid.symm)
        · exact Or.inl (Network.isFaulty_send hsend hid hfaulty)
      cases hperformed with
      | idle hlane hreply => exact Or.inl hfaulty
      | sent hconnection hraised hsend =>
          exact (hsent hconnection hsend hfaulty).imp_right fun hend => ⟨_, _, _, rfl, hend⟩
      | unsent hconnection hsend =>
          exact (hsent hconnection hsend hfaulty).imp_right fun hend => ⟨_, _, _, rfl, hend⟩
      | senderGone hgone => exact Or.inl hfaulty
      | blocked => exact Or.inl hfaulty
  · exact Or.inl (hperformed.stirs.isFaulty hmoving hfaulty)

/-- Letting go of a resource does not put an end at fault if nothing is left unread at its peer and
somebody has the peer as a connection. -/
theorem not_isFaulty_letGo
    (hlinks : LinksSound machine.network machine.connections) {connection : Connection}
    (hconnection : connection ∈ machine.connections) (hend : connection.endId = id)
    (hread : (machine.network.getEnd id).inbox = [])
    (hclean : ¬(machine.network.getEnd id.peer).IsFaulty) (resource : Resource) :
    ¬((machine.letGo resource).network.getEnd id.peer).IsFaulty := by
  intro hfaulty
  rcases machine.letGo_cases resource with
    hsame | ⟨number, listener, -, hclosed⟩ | ⟨number, other, -, -, -, hclosed⟩
  · rw [hsame] at hfaulty
    exact hclean hfaulty
  · rw [hclosed] at hfaulty
    rcases Network.isFaulty_closeSocket hfaulty with ⟨link, hlink, hcaller⟩ | hold
    · have hanswerer : id = ⟨link, .answerer⟩ := by
        rw [← id.peer_peer, hcaller]
        rfl
      exact hlinks.waitingFree link hlink connection hconnection (hend.trans hanswerer)
    · exact hclean hold
  · rw [hclosed] at hfaulty
    rcases Network.isFaulty_closeEnd hfaulty with hpeer | hold
    · have hsame : id = other.endId := by
        rw [← id.peer_peer, hpeer, EndId.peer_peer]
      rw [← hsame] at hfaulty
      exact hclean (Network.isFaulty_closeEnd_of_read hread hfaulty)
    · exact hclean hold

theorem not_isFaulty_forget
    (hlinks : LinksSound machine.network machine.connections) {connection : Connection}
    (hconnection : connection ∈ machine.connections) (hend : connection.endId = id)
    (hread : (machine.network.getEnd id).inbox = [])
    (hclean : ¬(machine.network.getEnd id.peer).IsFaulty) (pending : Pending) :
    ¬((machine.forget pending).network.getEnd id.peer).IsFaulty := by
  unfold forget letGoOf
  split
  · exact
      @not_isFaulty_letGo
        { machine with
          pending := machine.pending.filter fun other => other.ticket != pending.ticket }
        id hlinks connection hconnection hend hread hclean _
  · exact hclean

/-! ## Along a run -/

/-- Nothing is left unread at an end, and its peer is not at fault. -/
def InOrder (machine : Machine) (id : EndId) : Prop :=
  (machine.network.getEnd id).inbox = [] ∧ ¬(machine.network.getEnd id.peer).IsFaulty

variable {first second : Party}

/-- An end stays read as long as its peer sends nothing. -/
theorem Paired.inbox_eq_nil
    (hpaired : machine.Paired log first second id) (htransition : machine.Transition record next)
    (hsends : ¬second.Sends record) (hread : (machine.network.getEnd id).inbox = []) :
    (next.network.getEnd id).inbox = [] := by
  have hsound := hpaired.regular.sound
  have hsendsAt : ¬Record.SendsAt machine id.peer record :=
    fun hsendsAt => hsends (hpaired.secondSeat.sends_of_sendsAt hsound htransition hsendsAt)
  rcases htransition.step_of_inbox hsound id.peer with hsame | hstep
  · rw [EndId.peer_peer] at hsame
    rw [hsame, hread]
  · have hsuffix := Ledger.underWay_suffix_of_step hsendsAt hstep
    simp only [ledger, EndId.peer_peer, hread] at hsuffix
    exact List.suffix_nil.mp hsuffix

theorem Paired.inOrder_transition
    (hpaired : machine.Paired log first second id) (htransition : machine.Transition record next)
    (hsends : ¬second.Sends record) (horder : machine.InOrder id) : next.InOrder id := by
  obtain ⟨hread, hclean⟩ := horder
  have hsound := hpaired.regular.sound
  have hreadNext := hpaired.inbox_eq_nil htransition hsends hread
  refine ⟨hreadNext, ?_⟩
  have hsendsAt : ¬Record.SendsAt machine id.peer record :=
    fun hsendsAt => hsends (hpaired.secondSeat.sends_of_sendsAt hsound htransition hsendsAt)
  obtain ⟨connection, hconnection, hend, -⟩ := hpaired.firstSeat.seat
  have hmem := List.mem_of_getElem? hconnection
  obtain ⟨later, hlater, hages⟩ := htransition.connections hconnection
  have hlaterMem := List.mem_of_getElem? hlater
  have hlaterEnd : later.endId = id := hages.endId.trans hend
  have hadvanced :
      ∀ {pending : Pending} {amount : Nat} {performed : Machine} {progress : Progress}
        {reply : Option Reply}, record = .advanced pending reply →
        machine.perform pending.space amount pending.action = (performed, progress) →
          ¬(performed.network.getEnd id.peer).IsFaulty := by
    intro pending amount performed progress reply hrecord hperform hfaulty
    rcases (performed_of_perform hperform).isFaulty hfaulty with
      hold | ⟨handle, number, data, haction, hnumber⟩
    · exact hclean hold
    · exact hsendsAt ⟨pending, reply, handle, number, data, hrecord, haction, hnumber⟩
  cases htransition with
  | refused hspace hfound hclose hreply => exact hclean
  | parked hspace hleads => exact hclean
  | @performed space call action performed reply hspace hcall hfree hperform =>
      intro hfaulty
      rcases (performed_of_perform hperform).isFaulty hfaulty with
        hold | ⟨handle, number, data, rfl, -⟩
      · exact hclean hold
      · cases hfree
  | @closed space handle resource hspace hbound =>
      rw [connections_letGo] at hlaterMem
      rw [(letGo_winds _ _).inbox] at hreadNext
      apply not_isFaulty_letGo (linksSound_unbind hsound.links _ _ _) hlaterMem hlaterEnd hreadNext
      rw [(machine.unbind_frame space handle resource).1]
      exact hclean
  | @closing space handle resource action hspace hbound haction =>
      have hsame := (machine.unbind_frame space handle resource).1
      change ¬((machine.unbind space handle resource).network.getEnd id.peer).IsFaulty
      rw [hsame]
      exact hclean
  | @finished pending amount performed reply hpending hturn hperform =>
      have hlinks :=
        (performed_of_perform hperform).linksSound hsound.links
          (hsound.waiting.ending pending (mem_of_pending? hpending))
      rw [connections_forget] at hlaterMem
      rw [(forget_winds _ _).inbox] at hreadNext
      exact
        not_isFaulty_forget hlinks hlaterMem hlaterEnd hreadNext (hadvanced rfl hperform) pending
  | continued hpending hturn hperform =>
      have hperformed := hadvanced rfl hperform
      exact hperformed
  | abandoned hpending =>
      exact not_isFaulty_forget hsound.links hmem hend hread hclean _
  | exhausted exhausted => exact hclean

theorem Paired.not_isFaulty_of_isOpen
    (hpaired : machine.Paired log first second id) (hopen : first.IsOpen machine) :
    ¬(machine.network.getEnd id.peer).IsFaulty := by
  intro hfaulty
  have hsound := hpaired.regular.sound
  obtain ⟨_, -, -, -, -, hend⟩ := hpaired.firstSeat.of_isOpen hsound hopen
  have hclosed := hsound.links.faultyClosed id.peer hfaulty
  rw [EndId.peer_peer, hend] at hclosed
  cases hclosed

/-- The link of a party is severed: its end has a fault to report or can send no more. -/
def IsSevered (machine : Machine) (party : Party) : Prop :=
  ∃ id, endOf? machine.connections party.number = some id ∧ (machine.network.getEnd id).IsFaulty

theorem Seated.isSevered_iff
    {party : Party} (hseated : machine.Seated log party id) :
    machine.IsSevered party ↔ (machine.network.getEnd id).IsFaulty := by
  simp [IsSevered, hseated.endOf?_eq]

end Machine

namespace History

variable {history : History} {first second : Party} {id : EndId}

theorem inOrder_play
    (hpaired : history.machine.Paired history.log first second id)
    (horder : history.machine.InOrder id) (events : List Event)
    (hsends :
      ∀ record ∈ (history.play events).log.drop history.log.length, ¬second.Sends record) :
    (history.play events).machine.InOrder id := by
  have hall :
      (history.play events).machine.Paired (history.play events).log first second id ∧
        history.log.length ≤ (history.play events).log.length ∧
          ((∀ record ∈ (history.play events).log.drop history.log.length,
              ¬second.Sends record) → (history.play events).machine.InOrder id) := by
    apply play_invariant
      (P := fun machine log =>
        machine.Paired log first second id ∧ history.log.length ≤ log.length ∧
          ((∀ record ∈ log.drop history.log.length, ¬second.Sends record) → machine.InOrder id))
    · intro machine log record next hmachine htransition
      obtain ⟨hpaired, hlength, hinOrder⟩ := hmachine
      refine ⟨hpaired.transition htransition, ?_, ?_⟩
      · rw [List.length_append]
        omega
      · intro hsilent
        rw [List.drop_append_of_le_length hlength, List.forall_mem_append] at hsilent
        exact
          hpaired.inOrder_transition htransition (hsilent.2 record (List.mem_singleton_self _))
            (hinOrder hsilent.1)
    · exact ⟨hpaired, le_rfl, fun _ => horder⟩
  exact hall.2.2 hsends

/-- The link of a reader is not severed as long as its writer is open.  It stays so after a moment
at which the writer is open and has read everything, if the reader sends nothing from then on,
whether the writer is closed or not. -/
theorem connected_streams_unsevered
    (tree : FileTree) (routed : Bool) (capacity : Nat) (configurations : List Configuration)
    (earlier : List Event) (first second : Party)
    (hconnected :
      Connected
        (History.play ⟨Machine.boot tree routed capacity configurations, []⟩ earlier).machine
        first second) :
    let history := History.play ⟨Machine.boot tree routed capacity configurations, []⟩ earlier
    (∀ later, first.IsOpen (history.play later).machine →
      ¬(history.play later).machine.IsSevered second) ∧
    ∀ before after,
      let last := history.play before
      first.IsOpen last.machine → last.machine.unread first = [] →
        (∀ record ∈ (last.play after).log.drop last.log.length, ¬second.Sends record) →
          ¬(last.play after).machine.IsSevered second := by
  intro history
  have hregular := regular_play tree routed capacity configurations earlier
  obtain ⟨id, hpaired⟩ := hconnected.paired hregular
  constructor
  · intro later hopen
    have hlater := paired_play hpaired later
    rw [hlater.secondSeat.isSevered_iff]
    exact hlater.not_isFaulty_of_isOpen hopen
  · intro before after last hopen hread hsends
    have hlast := paired_play hpaired before
    rw [hlast.firstSeat.unread_eq] at hread
    have horder : last.machine.InOrder id := ⟨hread, hlast.not_isFaulty_of_isOpen hopen⟩
    rw [(paired_play hlast after).secondSeat.isSevered_iff]
    exact (inOrder_play hlast horder after hsends).2

end History

end ResourceHandles
