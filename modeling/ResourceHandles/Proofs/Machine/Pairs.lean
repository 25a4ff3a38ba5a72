import ResourceHandles.Proofs.Machine.Parties

/-!
# Pairs of parties

Two parties are paired if their connections are at the two ends of one link.  They
stay so for the rest of a run, also after they were closed, and all that the
invariants tell of the ends they tell of the parties.
-/

namespace ResourceHandles

namespace Machine

/-! ## Runs -/

/-- What holds of a machine and its log at every point of a run. -/
structure Regular (machine : Machine) (log : List Record) : Prop where
  sound : machine.Sound
  accounted : machine.Accounted log
  reading : machine.ReadingSound log
  separate : machine.Separate log

theorem regular_boot
    (tree : FileTree) (routed : Bool) (capacity : Nat) (configurations : List Configuration) :
    (boot tree routed capacity configurations).Regular [] := by
  constructor
  · exact sound_boot tree routed capacity configurations
  · exact accounted_boot tree routed capacity configurations
  · exact readingSound_nil _
  · exact separate_boot tree routed capacity configurations

theorem Regular.transition
    {machine next : Machine} {log : List Record} {record : Record}
    (hregular : machine.Regular log) (htransition : machine.Transition record next) :
    next.Regular (log ++ [record]) := by
  obtain ⟨hsound, haccounted, hreading, hseparate⟩ := hregular
  constructor
  · exact htransition.sound hsound
  · exact haccounted.transition hsound htransition
  · exact hreading.transition hsound haccounted.inRange htransition
  · exact hseparate.transition hsound htransition

end Machine

/-- Whatever has happened to a machine, it is regular. -/
theorem History.regular_play
    (tree : FileTree) (routed : Bool) (capacity : Nat) (configurations : List Configuration)
    (events : List Event) :
    let history := play ⟨Machine.boot tree routed capacity configurations, []⟩ events
    history.machine.Regular history.log := by
  apply play_invariant (P := Machine.Regular)
  · intro machine log record next hregular htransition
    exact hregular.transition htransition
  · exact Machine.regular_boot tree routed capacity configurations

namespace Machine

/-! ## A party at an end -/

/-- The size of the buffer for the reads of a party. -/
def bufferSize (machine : Machine) (party : Party) : Nat :=
  (machine.space party.space).configuration.bufferSize

/-- A party has the connection at an end for itself, and has it open or closed it. -/
structure Seated (machine : Machine) (log : List Record) (party : Party) (id : EndId) :
    Prop where
  owns : machine.Owns log party
  seat :
    ∃ connection,
      machine.connections[party.number]? = some connection ∧ connection.endId = id ∧
        connection.bufferSize = machine.bufferSize party ∧
          (party.IsOpen machine ∨ connection.signal.raised = true)

variable {machine next : Machine} {log : List Record} {record : Record} {party : Party}
  {id : EndId}

theorem Seated.endOf?_eq (hseated : machine.Seated log party id) :
    endOf? machine.connections party.number = some id := by
  obtain ⟨connection, hconnection, hend, -⟩ := hseated.seat
  exact (endOf?_eq_some_iff hconnection).mpr hend

/-- A party that is open sits at the end of its connection. -/
theorem Regular.seated
    (hregular : machine.Regular log) (hopen : party.IsOpen machine)
    (hend : endOf? machine.connections party.number = some id) :
    machine.Seated log party id := by
  constructor
  · exact hregular.separate party (Appears.bound hopen)
  · obtain ⟨connection, hconnection, -, hsize⟩ := hregular.sound.bindings.held _ _ _ hopen
    rw [endOf?_eq_some_iff hconnection] at hend
    exact ⟨connection, hconnection, hend, hsize, Or.inl hopen⟩

theorem Seated.transition
    (hseated : machine.Seated log party id) (hsound : machine.Sound)
    (htransition : machine.Transition record next) :
    next.Seated (log ++ [record]) party id := by
  constructor
  · exact hseated.owns.transition hsound htransition
  · obtain ⟨connection, hconnection, hend, hsize, halive⟩ := hseated.seat
    obtain ⟨later, hlater, hages⟩ := htransition.connections hconnection
    refine ⟨later, hlater, ?_, ?_, ?_⟩
    · rw [hages.endId, hend]
    · unfold bufferSize at hsize ⊢
      rw [hages.bufferSize, hsize, htransition.rebinds.configuration]
    · rcases halive with hopen | hraised
      · rcases htransition.rebinds.bound_or_raised hsound.bindings hopen
          with hstill | ⟨closed, hclosed, hraised⟩
        · exact Or.inl hstill
        · right
          rw [hlater, Option.some.injEq] at hclosed
          rw [hclosed]
          exact hraised
      · right
        by_contra hlowered
        rw [hages.raised (by simpa using hlowered)] at hraised
        cases hraised

theorem Seated.of_isOpen
    (hseated : machine.Seated log party id) (hsound : machine.Sound)
    (hopen : party.IsOpen machine) :
    ∃ connection,
      machine.connections[party.number]? = some connection ∧ connection.endId = id ∧
        connection.bufferSize = machine.bufferSize party ∧
          connection.signal.raised = false ∧ (machine.network.getEnd id).isOpen = true := by
  obtain ⟨connection, hconnection, hend, hsize, -⟩ := hseated.seat
  obtain ⟨held, hheldConnection, hheld, -⟩ := hsound.bindings.held _ _ _ hopen
  rw [hconnection, Option.some.injEq] at hheldConnection
  subst hheldConnection
  have hmem := List.mem_of_getElem? hconnection
  have hsignal := hsound.unheldRaised connection hmem
  have hendOpen := hsound.links.heldOpen connection hmem hheld
  rw [hheld] at hsignal
  rw [hend] at hendOpen
  exact ⟨connection, hconnection, hend, hsize, by simpa using hsignal, hendOpen⟩

theorem Seated.of_not_isOpen
    (hseated : machine.Seated log party id) (hsound : machine.Sound)
    (hclosed : ¬party.IsOpen machine) :
    ∃ connection,
      machine.connections[party.number]? = some connection ∧ connection.endId = id ∧
        connection.signal.raised = true ∧ connection.held = false := by
  obtain ⟨connection, hconnection, hend, -, halive⟩ := hseated.seat
  have hraised := halive.resolve_left hclosed
  have hheld := hsound.unheldRaised connection (List.mem_of_getElem? hconnection)
  rw [hraised] at hheld
  exact ⟨connection, hconnection, hend, hraised, hheld⟩

theorem Seated.not_hasSender
    (hseated : machine.Seated log party id) (hsound : machine.Sound)
    (hclosed : ¬party.IsOpen machine) :
    ¬machine.HasSender id := by
  obtain ⟨connection, hconnection, hend, hraised, -⟩ := hseated.of_not_isOpen hsound hclosed
  rintro ⟨other, hother, hotherEnd, hlowered⟩
  have hmem := List.mem_of_getElem? hconnection
  have hsame :=
    List.inj_on_of_nodup_map hsound.links.distinct hother hmem (hotherEnd.trans hend.symm)
  rw [hsame, hraised] at hlowered
  cases hlowered

/-- A party that closed does not open again. -/
theorem Seated.not_isOpen_transition
    (hseated : machine.Seated log party id) (hsound : machine.Sound)
    (htransition : machine.Transition record next) (hclosed : ¬party.IsOpen machine) :
    ¬party.IsOpen next := by
  intro hopen
  obtain ⟨connection, hconnection, -, hraised, -⟩ := hseated.of_not_isOpen hsound hclosed
  obtain ⟨later, hlater, hages⟩ := htransition.connections hconnection
  obtain ⟨other, hother, -, -, hlowered, -⟩ :=
    (hseated.transition hsound htransition).of_isOpen (htransition.sound hsound) hopen
  rw [hlater, Option.some.injEq] at hother
  subst hother
  rw [hages.raised hlowered] at hraised
  cases hraised

theorem Transition.not_isOpen_of_close
    {found : Option Resource} {result : Started} (hsound : machine.Sound)
    (htransition :
      machine.Transition (.started party.space (.close party.handle) found result) next) :
    ¬party.IsOpen next := by
  intro hopen
  generalize hcall : Call.close party.handle = call at htransition
  generalize hspace : party.space = space at htransition
  cases htransition with
  | refused howner hfound hclose hreply =>
      subst hspace
      have hnone := hclose party.handle hcall.symm
      rw [← hcall] at hnone
      have hbound : machine.found party.space (.close party.handle) = _ := hopen
      rw [hnone] at hbound
      cases hbound
  | parked howner hleads =>
      subst hcall
      rcases hleads with ⟨hnone, -⟩ | hfits
      · cases hnone
      · cases hfits
  | performed howner hnone hfree hperform =>
      subst hcall
      cases hnone
  | @closed space handle resource howner hbound =>
      cases hcall
      have hspaces := spaces_letGo (machine.unbind space party.handle resource) resource
      have hkept :=
        (lookup_of_unbind howner hspaces (hsound.bindings.tables party.space) hopen).2
      exact hkept ⟨hspace, rfl⟩
  | @closing space handle resource action howner hbound haction =>
      cases hcall
      have hspaces := spaces_park (machine.unbind space party.handle resource) space action
      have hkept :=
        (lookup_of_unbind howner hspaces (hsound.bindings.tables party.space) hopen).2
      exact hkept ⟨hspace, rfl⟩

/-! ## Two parties -/

/-- Two parties sit at the two ends of one link. -/
structure Paired (machine : Machine) (log : List Record) (first second : Party) (id : EndId) :
    Prop where
  regular : machine.Regular log
  firstSeat : machine.Seated log first id
  secondSeat : machine.Seated log second id.peer

variable {first second : Party}

theorem Paired.symm (hpaired : machine.Paired log first second id) :
    machine.Paired log second first id.peer := by
  constructor
  · exact hpaired.regular
  · exact hpaired.secondSeat
  · rw [EndId.peer_peer]
    exact hpaired.firstSeat

theorem Paired.transition
    (hpaired : machine.Paired log first second id)
    (htransition : machine.Transition record next) :
    next.Paired (log ++ [record]) first second id := by
  constructor
  · exact hpaired.regular.transition htransition
  · exact hpaired.firstSeat.transition hpaired.regular.sound htransition
  · exact hpaired.secondSeat.transition hpaired.regular.sound htransition

theorem Paired.arrives
    (hpaired : machine.Paired log first second id)
    (hkept : ∀ record ∈ log, ¬first.GivesUpWriting record) :
    (second.chunks log).flatten <+: first.written log := by
  have hsound := hpaired.regular.sound
  have hfirst := hpaired.firstSeat
  have hbalanced :=
    hpaired.regular.accounted.balanced id
      (hfirst.owns.uninterrupted hsound hfirst.endOf?_eq hkept)
  rw [hfirst.owns.written_eq hsound hfirst.endOf?_eq,
    hpaired.secondSeat.owns.received_eq hsound hpaired.secondSeat.endOf?_eq]
  exact (List.prefix_append _ _).trans hbalanced.arrives

theorem Paired.bounded
    (hpaired : machine.Paired log first second id) :
    ∀ chunk ∈ second.chunks log, chunk.length ≤ machine.bufferSize second := by
  obtain ⟨connection, hconnection, -, hsize, -⟩ := hpaired.secondSeat.seat
  intro chunk hmem
  rw [hpaired.secondSeat.owns.chunks_eq] at hmem
  rw [← hsize]
  exact hpaired.regular.reading.bounded second.number connection hconnection chunk hmem

/-- No read fails, as there is somebody at the other end. -/
theorem Paired.answered
    (hpaired : machine.Paired log first second id) :
    ∀ record ∈ log, ¬second.FailsReading record := by
  intro record hmem hfails
  obtain ⟨connection, hconnection, hend, -⟩ := hpaired.secondSeat.seat
  obtain ⟨other, hother, hotherEnd, -⟩ := hpaired.firstSeat.seat
  have hfailed :=
    hpaired.regular.reading.failed second.number connection hconnection record hmem
      (hpaired.secondSeat.owns.failsReading hmem hfails)
  apply hfailed.2 other (List.mem_of_getElem? hother)
  rw [hend, hotherEnd, EndId.peer_peer]

/-- After an empty chunk nothing is under way and nothing will be. -/
theorem Paired.finished
    (hpaired : machine.Paired log first second id) (hopen : second.IsOpen machine)
    (hsize : 0 < machine.bufferSize second) {front back : List Bytes}
    (hchunks : second.chunks log = front ++ [] :: back) :
    machine.Finished id.peer ∧ ∀ chunk ∈ back, chunk = [] := by
  obtain ⟨connection, hconnection, hend, hbuffer, hraised, -⟩ :=
    hpaired.secondSeat.of_isOpen hpaired.regular.sound hopen
  rw [hpaired.secondSeat.owns.chunks_eq] at hchunks
  rw [← hbuffer] at hsize
  rw [← hend]
  exact hpaired.regular.reading.ended second.number connection hconnection hsize hraised
    front back hchunks

theorem Paired.nonempty
    (hpaired : machine.Paired log first second id) (hsize : 0 < machine.bufferSize second)
    (hfirst : first.IsOpen machine) (hsecond : second.IsOpen machine) :
    [] ∉ second.chunks log := by
  intro hmem
  have hsound := hpaired.regular.sound
  obtain ⟨front, back, hchunks⟩ := List.append_of_mem hmem
  have hfinished := (hpaired.finished hsecond hsize hchunks).1
  apply hfinished.not_hasSender hsound
  rw [EndId.peer_peer]
  exact hasSender_of_lookup hsound hfirst hpaired.firstSeat.endOf?_eq

/-! ## Settled streams -/

/-- All that the first party wrote was received or is under way. -/
def SettledAt (machine : Machine) (log : List Record) (id : EndId) : Prop :=
  (machine.ledger log id).written =
    (machine.ledger log id).received ++ (machine.ledger log id).underWay

theorem SettledAt.of_silent
    (hsettled : machine.SettledAt log id) (hregular : machine.Regular log)
    (htransition : machine.Transition record next)
    (hwritten : record.written? = none) (hreceived : record.received? = none)
    (hinbox :
      (next.network.getEnd id.peer).inbox = (machine.network.getEnd id.peer).inbox) :
    next.SettledAt (log ++ [record]) id := by
  unfold SettledAt at hsettled ⊢
  rw [ledger_snoc hregular.sound hregular.accounted.inRange htransition, hwritten, hreceived,
    hinbox]
  simp only [Option.toList_none, bytesAt_nil, List.append_nil]
  exact hsettled

/-- What the first party wrote is settled for good once the party closed. -/
theorem Paired.settled_transition
    (hpaired : machine.Paired log first second id)
    (htransition : machine.Transition record next) (hclosed : ¬first.IsOpen machine)
    (hsettled : machine.SettledAt log id) :
    next.SettledAt (log ++ [record]) id := by
  have hregular := hpaired.regular
  have hsender := hpaired.firstSeat.not_hasSender hregular.sound hclosed
  cases hlost : record.lostSend? with
  | none =>
      have hstep : LedgerStep machine next log record id := by
        apply htransition.ledgerStep hregular.sound hregular.accounted.inRange
        intro number hsome
        rw [hlost] at hsome
        cases hsome
      exact Ledger.settled_step hsettled hsender hstep
  | some number =>
      cases record with
      | abandoned pending =>
          have hinbox := htransition.inbox_of_silent hregular.sound (by simp) id
          exact hsettled.of_silent hregular htransition rfl rfl hinbox
      | _ => cases hlost

theorem Seated.waiting_eq_nil
    (hseated : machine.Seated log party id) (hsound : machine.Sound)
    (hidle : ¬party.IsWriting machine) :
    (machine.ledger log id).waiting = [] := by
  apply bytesAt_eq_nil
  intro parcel hmem hend
  obtain ⟨pending, hpending, hload⟩ := List.mem_filterMap.mp hmem
  unfold Pending.load? at hload
  split at hload
  · next handle number data haction =>
      cases hload
      have hnumber : number = party.number :=
        eq_of_endOf? hsound hend hseated.endOf?_eq
      have happears : machine.Appears log ⟨pending.space, handle, number⟩ :=
        Appears.waiting hpending (party?_of_send haction)
      obtain ⟨hspace, hhandle⟩ := (hseated.owns.handle_iff_number happears).mpr hnumber
      subst hhandle
      exact hidle ⟨pending, hpending, number, data, hspace, haction⟩
  · cases hload

/-- All is settled while both parties are open and no write of the first one waits. -/
theorem Paired.settled
    (hpaired : machine.Paired log first second id)
    (hkept : ∀ record ∈ log, ¬first.GivesUpWriting record)
    (hfirst : first.IsOpen machine) (hsecond : second.IsOpen machine)
    (hidle : ¬first.IsWriting machine) :
    machine.SettledAt log id := by
  have hsound := hpaired.regular.sound
  have hseated := hpaired.firstSeat
  obtain ⟨connection, hconnection, hend, -, hraised, -⟩ := hseated.of_isOpen hsound hfirst
  obtain ⟨-, -, -, -, -, hpeer⟩ := hpaired.secondSeat.of_isOpen hsound hsecond
  have hflows : machine.Flows id := by
    rw [← hend] at hpeer ⊢
    exact flows_of_sender hsound (List.mem_of_getElem? hconnection) hraised hpeer
  have hbalanced :=
    hpaired.regular.accounted.balanced id
      (hseated.owns.uninterrupted hsound hseated.endOf?_eq hkept)
  have hcomplete := hbalanced.complete hflows
  rw [hseated.waiting_eq_nil hsound hidle, List.append_nil] at hcomplete
  exact hcomplete

theorem Paired.settled_close
    {found : Option Resource} {result : Started}
    (hpaired : machine.Paired log first second id)
    (htransition :
      machine.Transition (.started first.space (.close first.handle) found result) next)
    (hsettled : machine.SettledAt log id) :
    next.SettledAt (log ++ [.started first.space (.close first.handle) found result]) id := by
  have hregular := hpaired.regular
  have hinbox := htransition.inbox_of_silent hregular.sound (by simp) id
  exact hsettled.of_silent hregular htransition rfl rfl hinbox

/-- The chunks before the first empty one are all that the first party wrote, if that
is settled. -/
theorem Paired.complete
    (hpaired : machine.Paired log first second id) (hsize : 0 < machine.bufferSize second)
    (hopen : second.IsOpen machine) (hsettled : machine.SettledAt log id)
    {front back : List Bytes} (hchunks : second.chunks log = front ++ [] :: back) :
    front.flatten = first.written log ∧ ∀ chunk ∈ back, chunk = [] := by
  have hsound := hpaired.regular.sound
  obtain ⟨hfinished, hback⟩ := hpaired.finished hopen hsize hchunks
  refine ⟨?_, hback⟩
  have hnone : back.flatten = [] := List.flatten_eq_nil_iff.mpr hback
  have hreceived :=
    hpaired.secondSeat.owns.received_eq hsound hpaired.secondSeat.endOf?_eq
  have hempty : (machine.ledger log id).underWay = [] := hfinished.1
  unfold SettledAt at hsettled
  rw [hempty, List.append_nil] at hsettled
  calc front.flatten
      = (second.chunks log).flatten := by simp [hchunks, hnone]
    _ = (machine.ledger log id).received := hreceived
    _ = (machine.ledger log id).written := hsettled.symm
    _ = first.written log :=
        (hpaired.firstSeat.owns.written_eq hsound hpaired.firstSeat.endOf?_eq).symm

end Machine

end ResourceHandles
