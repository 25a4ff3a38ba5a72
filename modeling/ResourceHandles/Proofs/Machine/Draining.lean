import ResourceHandles.Proofs.Machine.Pairs

/-!
# Reading on after a close

Once the other party closed and its connection was let go, no read has to wait.
Every read is answered with a part of what is under way, so the empty chunk comes
after finitely many reads.
-/

namespace ResourceHandles

/-- Reads of a party, one after the other, each carried out with an amount that the
network moves at most.  The first one waits under the given ticket. -/
def Party.reads (party : Party) : Nat → List Nat → List Event
  | _, [] => []
  | ticket, amount :: amounts =>
    .start party.space (.read party.handle) :: .advance ticket amount ::
      party.reads (ticket + 1) amounts

namespace Machine

/-- What has arrived for a party and was not read yet. -/
def unread (machine : Machine) (party : Party) : Bytes :=
  match endOf? machine.connections party.number with
  | some id => (machine.network.getEnd id).inbox
  | none => []

variable {machine next : Machine} {log : List Record} {record : Record}
  {party first second : Party} {id : EndId}

theorem Seated.unread_eq (hseated : machine.Seated log party id) :
    machine.unread party = (machine.network.getEnd id).inbox := by
  unfold unread
  rw [hseated.endOf?_eq]

/-! ## One read -/

theorem start_read (hopen : party.IsOpen machine) :
    machine.start party.space (.read party.handle) =
      ((machine.park party.space (.receive party.handle party.number)).1,
        .waiting machine.nextTicket) := by
  have hsuspends :
      (machine.space party.space).configuration.mode.suspends .read = true := by
    cases (machine.space party.space).configuration.mode <;> rfl
  have hbound : (machine.space party.space).table.get? party.handle = _ := hopen
  unfold start plan
  simp only [hbound, Call.operation, hsuspends, if_true]
  rfl

theorem pending?_park
    (hsound : machine.WaitingSound none) (space : Nat) (action : Action) :
    (machine.park space action).1.pending? machine.nextTicket =
      some ⟨machine.nextTicket, space, action⟩ := by
  have hold : machine.TicketsOld := hsound.ticketsOld
  exact @TicketsOld.pending?_of_append _ _ ⟨machine.nextTicket, space, action⟩ hold rfl rfl

theorem inTurn_park
    (howns : machine.Owns log party) (hidle : ¬party.IsReading machine) :
    (machine.park party.space (.receive party.handle party.number)).1.inTurn
        ⟨machine.nextTicket, party.space, .receive party.handle party.number⟩ =
      true := by
  have hnone :
      machine.pending.find? (fun other =>
        other.action.lane? == some (Lane.receiving party.number)) = none := by
    rw [List.find?_eq_none]
    intro pending hmem hlane
    rw [beq_iff_eq] at hlane
    cases haction : pending.action with
    | receive handle number =>
        rw [haction] at hlane
        cases hlane
        have happears : machine.Appears log ⟨pending.space, handle, party.number⟩ :=
          Appears.waiting hmem (party?_of_receive haction)
        obtain ⟨hspace, hhandle⟩ := (howns.handle_iff_number happears).mpr rfl
        subst hhandle
        exact hidle ⟨pending, hmem, party.number, hspace, haction⟩
    | _ =>
        rw [haction] at hlane
        cases hlane
  have hfirst :
      (machine.park party.space (.receive party.handle party.number)).1.pending.find?
          (fun other => other.action.lane? == some (Lane.receiving party.number)) =
        some ⟨machine.nextTicket, party.space, .receive party.handle party.number⟩ := by
    unfold park
    rw [List.find?_append, hnone]
    simp [Action.lane?]
  have hlane :
      (Action.receive party.handle party.number).lane? =
        some (Lane.receiving party.number) := rfl
  unfold inTurn
  simp only [hlane, hfirst]
  simp

theorem pending?_of_mem
    (hsound : machine.WaitingSound none) {pending : Pending}
    (hmem : pending ∈ machine.pending) :
    machine.pending? pending.ticket = some pending := by
  cases hfound : machine.pending? pending.ticket with
  | none =>
      have hother := List.find?_eq_none.mp hfound pending hmem
      simp at hother
  | some other =>
      have hticket := pending?_ticket hfound
      rw [hsound.eq_of_ticket (mem_of_pending? hfound) hmem hticket]

/-- An action on a closed connection ends as soon as it is in turn. -/
theorem Seated.step?_of_closed
    (hseated : machine.Seated log party id) (hsound : machine.Sound)
    (hclosed : ¬party.IsOpen machine) {pending : Pending} (hmem : pending ∈ machine.pending)
    (huses : pending.action.resource? = some (.connection party.number))
    (hturn : machine.inTurn pending = true) (amount : Nat) :
    ∃ next reply,
      machine.step? (.advance pending.ticket amount) =
        some (next, .advanced pending (some reply)) := by
  obtain ⟨connection, hconnection, -, hraised, -⟩ := hseated.of_not_isOpen hsound hclosed
  have hpending := pending?_of_mem hsound.waiting hmem
  have hperform :
      ∃ performed reply,
        machine.perform pending.space amount pending.action =
          (performed, .finished reply) := by
    cases haction : pending.action with
    | receive handle number =>
        rw [haction] at huses
        cases huses
        refine ⟨machine, .bytes [], ?_⟩
        simp only [perform, receive, hconnection, hraised, if_true]
    | send handle number data =>
        rw [haction] at huses
        cases huses
        refine ⟨machine, .done, ?_⟩
        simp only [perform, send, hconnection, hraised, if_true]
    | endSending number => exact ⟨_, _, rfl⟩
    | _ =>
        rw [haction] at huses
        cases huses
  obtain ⟨performed, reply, hperform⟩ := hperform
  refine ⟨performed.forget pending, reply, ?_⟩
  simp only [step?, advance?, hpending, hturn, hperform, Bool.not_true, Bool.false_eq_true,
    if_false]

/-- A stream that is only read: the second party is open and reads nothing at the
moment, and nothing more will be sent to it. -/
structure Draining (machine : Machine) (log : List Record) (first second : Party)
    (id : EndId) : Prop where
  paired : machine.Paired log first second id
  isOpen : second.IsOpen machine
  idle : ¬second.IsReading machine
  ended : (machine.network.getEnd id.peer).ended = true

/-- The end of a party that closed is closed once no action uses its connection. -/
theorem Paired.ended
    (hpaired : machine.Paired log first second id) (hclosed : ¬first.IsOpen machine)
    (hunused : machine.isUsed (.connection first.number) = false) :
    (machine.network.getEnd id.peer).ended = true := by
  have hsound := hpaired.regular.sound
  obtain ⟨connection, hconnection, hend, -, hheld⟩ :=
    hpaired.firstSeat.of_not_isOpen hsound hclosed
  have hgone :=
    hsound.waiting.closed first.number connection (by simp) hconnection hheld
  rw [hunused, Bool.false_eq_true, false_or] at hgone
  have hended :=
    hsound.links.closedEnded connection (List.mem_of_getElem? hconnection) hgone
  rw [hend] at hended
  exact hended

theorem Draining.advance?_read
    (hdraining : machine.Draining log first second id) (amount : Nat) :
    ∃ network data,
      let pending : Pending :=
        ⟨machine.nextTicket, second.space, .receive second.handle second.number⟩
      let parked := (machine.park second.space pending.action).1
      let later := ({ parked with network := network } : Machine).forget pending
      parked.step? (.advance machine.nextTicket amount) =
          some (later, .advanced pending (some (.bytes data))) ∧
        data ++ (network.getEnd id.peer).inbox = (machine.network.getEnd id.peer).inbox := by
  have hsound := hdraining.paired.regular.sound
  have hseated := hdraining.paired.secondSeat
  obtain ⟨connection, hconnection, hend, -, hraised, -⟩ :=
    hseated.of_isOpen hsound hdraining.isOpen
  have hended := hdraining.ended
  rw [← hend] at hended
  obtain ⟨network, data, hreceive⟩ :=
    Network.receive_of_ended hended connection.bufferSize amount
  refine ⟨network, data, ?_, ?_⟩
  · have hpending := pending?_park hsound.waiting second.space
      (.receive second.handle second.number)
    have hturn := inTurn_park hseated.owns hdraining.idle
    have hperform :
        (machine.park second.space (.receive second.handle second.number)).1.receive
            second.handle second.number amount =
          ({ (machine.park second.space (.receive second.handle second.number)).1 with
              network := network },
            .finished (.bytes data)) := by
      have hmoved :
          (machine.park second.space (.receive second.handle second.number)).1.network.receive
              connection.endId connection.bufferSize amount =
            (network, .moved data) := hreceive
      unfold receive
      simp only [connections_park, hconnection, hraised, hmoved, Bool.false_eq_true, if_false]
    simp only [step?, advance?, hpending, hturn, perform, hperform, Bool.not_true,
      Bool.false_eq_true, if_false]
  · rw [← hend]
    exact (Network.receive_moved hreceive).1

/-- A read is answered with a part of what has arrived. -/
theorem Draining.read
    (hdraining : machine.Draining log first second id) (amount : Nat) :
    ∃ later data,
      History.play ⟨machine, log⟩
          [.start second.space (.read second.handle), .advance machine.nextTicket amount] =
        later ∧
      later.machine.Draining later.log first second id ∧
      later.machine.nextTicket = machine.nextTicket + 1 ∧
      second.chunks later.log = second.chunks log ++ [data] ∧
      data ++ later.machine.unread second = machine.unread second := by
  obtain ⟨network, data, hadvance, hbytes⟩ := hdraining.advance?_read amount
  have hopen := hdraining.isOpen
  have hstart :
      machine.step? (.start second.space (.read second.handle)) =
        some ((machine.park second.space (.receive second.handle second.number)).1,
          .started second.space (.read second.handle)
            (machine.found second.space (.read second.handle))
            (.waiting machine.nextTicket)) := by
    simp only [step?, start_read hopen, if_pos (lt_length_of_lookup hopen)]
  simp only at hadvance
  have hparked := step?_transition hstart
  have hanswered := step?_transition hadvance
  have hpaired := (hdraining.paired.transition hparked).transition hanswered
  have hwinds :=
    forget_winds
      ({ (machine.park second.space (.receive second.handle second.number)).1 with
          network := network } : Machine)
      ⟨machine.nextTicket, second.space, .receive second.handle second.number⟩
  refine ⟨_, data, rfl, ?_⟩
  rw [History.play_cons, History.after_of_step? hstart, History.play_cons,
    History.after_of_step? hadvance, History.play_nil]
  refine ⟨?_, ?_, ?_, ?_⟩
  · constructor
    · exact hpaired
    · unfold Party.IsOpen lookup at hopen ⊢
      rw [space_congr (spaces_forget _ _)]
      exact hopen
    · rintro ⟨pending, hmem, number, hspace, haction⟩
      rw [forget_pending] at hmem
      obtain ⟨hold, hticket⟩ := List.mem_filter.mp hmem
      rcases List.mem_append.mp hold with hold | hnew
      · exact hdraining.idle ⟨pending, hold, number, hspace, haction⟩
      · rw [List.mem_singleton] at hnew
        subst hnew
        simp at hticket
    · exact hanswered.ended_of_ended (hparked.ended_of_ended hdraining.ended)
  · exact forget_nextTicket _ _
  · unfold Party.chunks
    rw [filterMap_snoc, filterMap_snoc]
    simp [Party.chunk?]
  · rw [hpaired.secondSeat.unread_eq, hdraining.paired.secondSeat.unread_eq, ← hbytes,
      hwinds.inbox]

theorem Draining.reads
    (hdraining : machine.Draining log first second id) (amounts : List Nat) :
    ∃ later answers,
      History.play ⟨machine, log⟩ (second.reads machine.nextTicket amounts) = later ∧
      later.machine.Draining later.log first second id ∧
      answers.length = amounts.length ∧
      second.chunks later.log = second.chunks log ++ answers ∧
      answers.flatten ++ later.machine.unread second = machine.unread second := by
  induction amounts generalizing machine log with
  | nil => exact ⟨_, [], rfl, hdraining, rfl, by simp [Party.reads], rfl⟩
  | cons amount amounts ih =>
      obtain ⟨middle, data, hplay, hmiddle, hticket, hchunk, hbytes⟩ := hdraining.read amount
      obtain ⟨later, answers, hlater, hdrained, hlength, hchunks, hrest⟩ := ih hmiddle
      refine ⟨later, data :: answers, ?_, hdrained, ?_, ?_, ?_⟩
      · have hsplit :
            second.reads machine.nextTicket (amount :: amounts) =
              [.start second.space (.read second.handle),
                  .advance machine.nextTicket amount] ++
                second.reads middle.machine.nextTicket amounts := by
          rw [hticket]
          rfl
        rw [hsplit, History.play_append, hplay]
        exact hlater
      · rw [List.length_cons, List.length_cons, hlength]
      · rw [hchunks, hchunk, List.append_assoc, List.singleton_append]
      · rw [List.flatten_cons, List.append_assoc, hrest, hbytes]

theorem nil_mem_of_flatten
    {answers : List Bytes} {rest bytes : Bytes} (hbytes : answers.flatten ++ rest = bytes)
    (hlength : bytes.length < answers.length) :
    [] ∈ answers := by
  by_contra hnone
  have hshort : answers.length ≤ answers.flatten.length := by
    clear hbytes hlength
    induction answers with
    | nil => exact Nat.le_refl 0
    | cons answer answers ih =>
        rw [List.mem_cons, not_or] at hnone
        have hpositive : 0 < answer.length := List.length_pos_iff.mpr (Ne.symm hnone.1)
        have hrest := ih hnone.2
        rw [List.flatten_cons, List.length_append, List.length_cons]
        omega
  rw [← hbytes, List.length_append] at hlength
  omega

end Machine

end ResourceHandles
