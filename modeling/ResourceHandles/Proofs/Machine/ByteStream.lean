import ResourceHandles.Proofs.Machine.Draining

/-!
# Byte streams

Two parties with their connections at the two ends of one link are connected by two
streams of bytes, one in each direction.  In every run a stream delivers what was
written to it, in order and without anything else, and it ends where it was closed.
The two streams of a link do not disturb each other.

A write that is given up halfway leaves a gap between the writes before and after it.
So the promises on what arrives are about runs in which the writer gives up no write;
reads may be given up at any time, and nothing is lost with them.

The transport is a reliable pipe, so the promises are kept on a severed link as well,
where a host may lose bytes and fail a read.  The module on severing shows that no link
is severed as long as the writer is open, or if it is closed with nothing left unread
and the reader sends nothing after that.
-/

namespace ResourceHandles

/-! ## What a stream promises -/

/-- A write by a party is carried out, or a part of it. -/
def Party.Sends (party : Party) (record : Record) : Prop :=
  ∃ pending reply number data,
    record = .advanced pending reply ∧
      pending.space = party.space ∧ pending.action = .send party.handle number data

/-- A read by a party is carried out. -/
def Party.Receives (party : Party) (record : Record) : Prop :=
  ∃ pending reply number,
    record = .advanced pending reply ∧
      pending.space = party.space ∧ pending.action = .receive party.handle number

/-- Two parties are open, at the two ends of one link. -/
structure Connected (machine : Machine) (first second : Party) : Prop where
  firstOpen : first.IsOpen machine
  secondOpen : second.IsOpen machine
  ends :
    ∃ id,
      endOf? machine.connections first.number = some id ∧
        endOf? machine.connections second.number = some id.peer

/-- What the stream from a writer to a reader promises in every run that goes on from a
history. -/
structure FaithfulStream (history : History) (writer reader : Party) : Prop where
  /-- What the reads returned is a prefix of what was written. -/
  arrives :
    ∀ later,
      (∀ record ∈ (history.play later).log, ¬writer.GivesUpWriting record) →
        (reader.chunks (history.play later).log).flatten <+:
          writer.written (history.play later).log
  /-- No read returns more than the buffer holds. -/
  bounded :
    ∀ later, ∀ chunk ∈ reader.chunks (history.play later).log,
      chunk.length ≤ history.machine.bufferSize reader
  /-- No read fails, as the transport is reliable. -/
  answered :
    ∀ later, ∀ record ∈ (history.play later).log, ¬reader.FailsReading record
  /-- There is no end of the stream while both parties are open. -/
  nonempty :
    ∀ later,
      writer.IsOpen (history.play later).machine → reader.IsOpen (history.play later).machine →
        [] ∉ reader.chunks (history.play later).log
  /-- If the writer closes when no write waits, the reads up to the first empty chunk
  return all that was written, and all reads after it are empty. -/
  complete :
    ∀ before after front back,
      (∀ record ∈ (history.play before).log, ¬writer.GivesUpWriting record) →
        writer.IsOpen (history.play before).machine →
          ¬writer.IsWriting (history.play before).machine →
            let closed :=
              (history.play before).play (.start writer.space (.close writer.handle) :: after)
            reader.IsOpen closed.machine →
              reader.chunks closed.log = front ++ [] :: back →
                front.flatten = writer.written closed.log ∧ ∀ chunk ∈ back, chunk = []
  /-- Once the writer is closed, none of its actions waits for anybody else. -/
  wakes :
    ∀ later amount pending,
      let closed := history.play later
      ¬writer.IsOpen closed.machine → pending ∈ closed.machine.pending →
        pending.action.resource? = some (.connection writer.number) →
          closed.machine.inTurn pending = true →
            ∃ next reply,
              closed.machine.step? (.advance pending.ticket amount) =
                some (next, .advanced pending (some reply))
  /-- Once the writer is closed and none of its actions waits, no read has to wait, and
  with more reads than unread bytes the empty chunk is reached. -/
  drains :
    ∀ later amounts,
      let closed := history.play later
      ¬writer.IsOpen closed.machine →
        closed.machine.isUsed (.connection writer.number) = false →
          reader.IsOpen closed.machine → ¬reader.IsReading closed.machine →
            ∃ answers,
              reader.chunks
                  (closed.play (reader.reads closed.machine.nextTicket amounts)).log =
                reader.chunks closed.log ++ answers ∧
              answers.length = amounts.length ∧
              ((closed.machine.unread reader).length < amounts.length → [] ∈ answers)
  /-- Only the writes of the writer and the reads of the reader touch what is under
  way. -/
  undisturbed :
    ∀ later event next record,
      (history.play later).machine.step? event = some (next, record) →
        ¬writer.Sends record → ¬reader.Receives record →
          next.unread reader = (history.play later).machine.unread reader

/-! ## From pairs to streams -/

theorem Connected.paired
    {machine : Machine} {log : List Record} {first second : Party}
    (hconnected : Connected machine first second) (hregular : machine.Regular log) :
    ∃ id, machine.Paired log first second id := by
  obtain ⟨hfirst, hsecond, id, hfirstEnd, hsecondEnd⟩ := hconnected
  refine ⟨id, hregular, ?_, ?_⟩
  · exact hregular.seated hfirst hfirstEnd
  · exact hregular.seated hsecond hsecondEnd

namespace Machine

variable {machine next : Machine} {log : List Record} {record : Record}
  {party : Party} {id : EndId}

theorem Seated.sends_of_sendsAt
    (hseated : machine.Seated log party id) (hsound : machine.Sound)
    (htransition : machine.Transition record next)
    (hsends : Record.SendsAt machine id record) :
    party.Sends record := by
  obtain ⟨pending, reply, handle, number, data, rfl, haction, hend⟩ := hsends
  have hnumber := eq_of_endOf? hsound hend hseated.endOf?_eq
  have happears : machine.Appears log ⟨pending.space, handle, number⟩ :=
    htransition.record_appears (party?_of_send haction)
  obtain ⟨hspace, hhandle⟩ := (hseated.owns.handle_iff_number happears).mpr hnumber
  subst hhandle
  exact ⟨pending, reply, number, data, rfl, hspace, haction⟩

theorem Seated.receives_of_receivesAt
    (hseated : machine.Seated log party id) (hsound : machine.Sound)
    (htransition : machine.Transition record next)
    (hreceives : Record.ReceivesAt machine id record) :
    party.Receives record := by
  obtain ⟨pending, reply, handle, number, rfl, haction, hend⟩ := hreceives
  have hnumber := eq_of_endOf? hsound hend hseated.endOf?_eq
  have happears : machine.Appears log ⟨pending.space, handle, number⟩ :=
    htransition.record_appears (party?_of_receive haction)
  obtain ⟨hspace, hhandle⟩ := (hseated.owns.handle_iff_number happears).mpr hnumber
  subst hhandle
  exact ⟨pending, reply, number, rfl, hspace, haction⟩

end Machine

namespace History

variable {history : History} {first second : Party} {id : EndId}

theorem paired_play
    (hpaired : history.machine.Paired history.log first second id) (events : List Event) :
    (history.play events).machine.Paired (history.play events).log first second id := by
  apply play_invariant (P := fun machine log => machine.Paired log first second id)
  · intro machine log record next hmachine htransition
    exact hmachine.transition htransition
  · exact hpaired

theorem bufferSize_play (history : History) (events : List Event) (party : Party) :
    (history.play events).machine.bufferSize party = history.machine.bufferSize party := by
  apply play_invariant
    (P := fun machine _ => machine.bufferSize party = history.machine.bufferSize party)
  · intro machine log record next hmachine htransition
    rw [← hmachine]
    unfold Machine.bufferSize
    rw [htransition.rebinds.configuration]
  · rfl

theorem settled_play
    (history : History) (hpaired : history.machine.Paired history.log first second id)
    (hclosed : ¬first.IsOpen history.machine)
    (hsettled : history.machine.SettledAt history.log id) (events : List Event) :
    (history.play events).machine.SettledAt (history.play events).log id := by
  have hall :
      (history.play events).machine.Paired (history.play events).log first second id ∧
        ¬first.IsOpen (history.play events).machine ∧
          (history.play events).machine.SettledAt (history.play events).log id := by
    apply play_invariant
      (P := fun machine log =>
        machine.Paired log first second id ∧ ¬first.IsOpen machine ∧
          machine.SettledAt log id)
    · intro machine log record next hmachine htransition
      obtain ⟨hpaired, hclosed, hsettled⟩ := hmachine
      refine ⟨hpaired.transition htransition, ?_, ?_⟩
      · exact hpaired.firstSeat.not_isOpen_transition hpaired.regular.sound htransition hclosed
      · exact hpaired.settled_transition htransition hclosed hsettled
    · exact ⟨hpaired, hclosed, hsettled⟩
  exact hall.2.2

theorem isOpen_of_play
    (hpaired : history.machine.Paired history.log first second id) (events : List Event)
    (hopen : first.IsOpen (history.play events).machine) :
    first.IsOpen history.machine := by
  by_contra hclosed
  have hall :
      (history.play events).machine.Paired (history.play events).log first second id ∧
        ¬first.IsOpen (history.play events).machine := by
    apply play_invariant
      (P := fun machine log =>
        machine.Paired log first second id ∧ ¬first.IsOpen machine)
    · intro machine log record next hmachine htransition
      obtain ⟨hpaired, hclosed⟩ := hmachine
      refine ⟨hpaired.transition htransition, ?_⟩
      exact hpaired.firstSeat.not_isOpen_transition hpaired.regular.sound htransition hclosed
    · exact ⟨hpaired, hclosed⟩
  exact hall.2 hopen

theorem complete_of_close
    (hpaired : history.machine.Paired history.log first second id)
    (hsize : 0 < history.machine.bufferSize second)
    (hkept : ∀ record ∈ history.log, ¬first.GivesUpWriting record)
    (hfirst : first.IsOpen history.machine) (hidle : ¬first.IsWriting history.machine)
    (after : List Event) {front back : List Bytes} {closed : History}
    (hplay : history.play (.start first.space (.close first.handle) :: after) = closed)
    (hsecond : second.IsOpen closed.machine)
    (hchunks : second.chunks closed.log = front ++ [] :: back) :
    front.flatten = first.written closed.log ∧ ∀ chunk ∈ back, chunk = [] := by
  have hbuffer := history.bufferSize_play (.start first.space (.close first.handle) :: after) second
  have hend := paired_play hpaired (.start first.space (.close first.handle) :: after)
  rw [hplay] at hbuffer hend
  rw [← hbuffer] at hsize
  refine hend.complete hsize hsecond ?_ hchunks
  have hsecondBefore : second.IsOpen history.machine := by
    rw [← hplay] at hsecond
    exact isOpen_of_play hpaired.symm _ hsecond
  have hstep :=
    history.machine.step?_start (Machine.lt_length_of_lookup hfirst) (.close first.handle)
  have htransition := Machine.step?_transition hstep
  have hsettled := hpaired.settled hkept hfirst hsecondBefore hidle
  have hsettledNext := hpaired.settled_close htransition hsettled
  have hclosed := htransition.not_isOpen_of_close hpaired.regular.sound
  have hpairedNext := hpaired.transition htransition
  have hsettledLater := settled_play ⟨_, _⟩ hpairedNext hclosed hsettledNext after
  rw [play_cons, after_of_step? hstep] at hplay
  rw [← hplay]
  exact hsettledLater

theorem faithfulStream_of_paired
    (hpaired : history.machine.Paired history.log first second id)
    (hsize : 0 < history.machine.bufferSize second) :
    FaithfulStream history first second := by
  have hlater := paired_play hpaired
  have hbuffer := fun later => history.bufferSize_play later second
  constructor
  · intro later hkept
    exact (hlater later).arrives hkept
  · intro later chunk hmem
    rw [← hbuffer later]
    exact (hlater later).bounded chunk hmem
  · intro later
    exact (hlater later).answered
  · intro later hfirst hsecond
    apply (hlater later).nonempty _ hfirst hsecond
    rw [hbuffer later]
    exact hsize
  · intro before after front back hkept hfirst hidle closed hsecond hchunks
    rw [← hbuffer before] at hsize
    exact complete_of_close (hlater before) hsize hkept hfirst hidle after rfl hsecond hchunks
  · intro later amount pending closed hfirst hmem huses hturn
    have hbefore := hlater later
    exact hbefore.firstSeat.step?_of_closed hbefore.regular.sound hfirst hmem huses hturn amount
  · intro later amounts closed hfirst hunused hsecond hidle
    have hdraining : closed.machine.Draining closed.log first second id := by
      constructor
      · exact hlater later
      · exact hsecond
      · exact hidle
      · exact (hlater later).ended hfirst hunused
    obtain ⟨_, answers, rfl, -, hlength, hchunks, hbytes⟩ := hdraining.reads amounts
    refine ⟨answers, hchunks, hlength, ?_⟩
    intro hmore
    apply Machine.nil_mem_of_flatten hbytes
    rw [hlength]
    exact hmore
  · intro later event next record hstep hsends hreceives
    have hbefore := hlater later
    have hsound := hbefore.regular.sound
    have htransition := Machine.step?_transition hstep
    rw [hbefore.secondSeat.unread_eq, (hbefore.transition htransition).secondSeat.unread_eq]
    apply htransition.inbox_eq hsound
    · intro hsendsAt
      exact hsends (hbefore.firstSeat.sends_of_sendsAt hsound htransition hsendsAt)
    · intro hreceivesAt
      exact hreceives (hbefore.secondSeat.receives_of_receivesAt hsound htransition hreceivesAt)

/-- However a run has come to connect two parties and however it goes on, both streams
between them are faithful. -/
theorem connected_streams_faithful
    (tree : FileTree) (routed : Bool) (capacity : Nat) (configurations : List Configuration)
    (earlier : List Event) (first second : Party)
    (hconnected :
      Connected
        (History.play ⟨Machine.boot tree routed capacity configurations, []⟩ earlier).machine
        first second)
    (hfirst :
      0 < (Machine.boot tree routed capacity configurations).bufferSize first)
    (hsecond :
      0 < (Machine.boot tree routed capacity configurations).bufferSize second) :
    let history := History.play ⟨Machine.boot tree routed capacity configurations, []⟩ earlier
    FaithfulStream history first second ∧ FaithfulStream history second first := by
  intro history
  have hregular := regular_play tree routed capacity configurations earlier
  obtain ⟨id, hpaired⟩ := hconnected.paired hregular
  constructor
  · apply faithfulStream_of_paired hpaired
    rw [bufferSize_play]
    exact hsecond
  · apply faithfulStream_of_paired hpaired.symm
    rw [bufferSize_play]
    exact hfirst

theorem loopback_streams_faithful :
    let configurations : List Configuration := [{ bufferSize := 2 }, { bufferSize := 3 }]
    let history :=
      History.play ⟨Machine.boot {} true 16 configurations, []⟩
        [.start 0 (.listen "127.0.0.1:80"), .start 1 (.connect "127.0.0.1:80"), .advance 0 0,
          .start 0 (.accept ⟨3⟩), .advance 1 0]
    Connected history.machine ⟨1, ⟨3⟩, 0⟩ ⟨0, ⟨4⟩, 1⟩ ∧
      FaithfulStream history ⟨1, ⟨3⟩, 0⟩ ⟨0, ⟨4⟩, 1⟩ ∧
        FaithfulStream history ⟨0, ⟨4⟩, 1⟩ ⟨1, ⟨3⟩, 0⟩ := by
  intro configurations history
  have hconnected : Connected history.machine ⟨1, ⟨3⟩, 0⟩ ⟨0, ⟨4⟩, 1⟩ := by
    constructor
    · decide +kernel +zetaReduce
    · decide +kernel +zetaReduce
    · exact ⟨⟨0, .caller⟩, by decide +kernel +zetaReduce, by decide +kernel +zetaReduce⟩
  have hfirst : 0 < (Machine.boot {} true 16 configurations).bufferSize ⟨1, ⟨3⟩, 0⟩ := by
    decide +kernel +zetaReduce
  have hsecond : 0 < (Machine.boot {} true 16 configurations).bufferSize ⟨0, ⟨4⟩, 1⟩ := by
    decide +kernel +zetaReduce
  refine ⟨hconnected, ?_⟩
  exact
    connected_streams_faithful {} true 16 configurations _ _ _ hconnected hfirst hsecond

/-- Three bytes are sent in two parts, and read through a buffer of two. -/
example :
    let history :=
      History.play ⟨Machine.boot {} true 16 [{ bufferSize := 2 }, { bufferSize := 3 }], []⟩
        [.start 0 (.listen "127.0.0.1:80"), .start 1 (.connect "127.0.0.1:80"), .advance 0 0,
          .start 0 (.accept ⟨3⟩), .advance 1 0, .start 1 (.write ⟨3⟩ [7, 8, 9]),
          .start 0 (.read ⟨4⟩), .advance 2 1, .advance 3 5, .advance 2 5,
          .start 1 (.close ⟨3⟩), .start 0 (.read ⟨4⟩), .advance 4 5, .start 0 (.read ⟨4⟩),
          .advance 5 5]
    Party.chunks ⟨0, ⟨4⟩, 1⟩ history.log = [[7], [8, 9], []] := by
  decide +kernel

end History

end ResourceHandles
