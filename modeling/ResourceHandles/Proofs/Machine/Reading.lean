import ResourceHandles.Proofs.Machine.Flow

/-!
# Reading a connection

The reads on a connection are answered with chunks.  A chunk is no longer than the
buffer of the connection, and as long as the connection is open an empty chunk is
the end: nothing is under way any more, and nothing will be.  A read fails only at
the end of a link that was reset before anybody accepted it.
-/

namespace ResourceHandles

/-- The bytes that a read on a connection was answered with. -/
def Record.chunkOn? (number : Nat) (record : Record) : Option Bytes :=
  match record.received? with
  | some (other, data) => if other = number then some data else none
  | none => none

/-- The chunks that the reads on a connection were answered with, in order. -/
def chunksOn (number : Nat) (log : List Record) : List Bytes :=
  log.filterMap (Record.chunkOn? number)

/-- A read on a connection failed. -/
def Record.FailsReading (number : Nat) (record : Record) : Prop :=
  ∃ pending fault handle,
    record = .advanced pending (some (.failed fault)) ∧ pending.action = .receive handle number

theorem chunksOn_snoc (number : Nat) (log : List Record) (record : Record) :
    chunksOn number (log ++ [record]) =
      chunksOn number log ++ (record.chunkOn? number).toList :=
  filterMap_snoc _ log record

namespace Machine

/-! ## The books of all ends -/

/-- Parcels belong to connections that exist, and every ledger is balanced unless a
write was given up. -/
structure Accounted (machine : Machine) (log : List Record) : Prop where
  inRange : machine.ParcelsInRange log
  balanced :
    ∀ id, machine.Uninterrupted log id → (machine.ledger log id).Balanced (machine.Flows id)

theorem accounted_boot
    (tree : FileTree) (routed : Bool) (capacity : Nat) (configurations : List Configuration) :
    (boot tree routed capacity configurations).Accounted [] := by
  constructor
  · constructor
    · simp
    · simp
  · intro id _
    have hend :
        (boot tree routed capacity configurations).network.getEnd id.peer =
          { isOpen := false } :=
      Network.getEnd_of_missing (Nat.zero_le _)
    constructor
    · simp [ledger, hend]
    · intro hflows
      have hopen := hflows.1
      rw [hend] at hopen
      cases hopen

theorem Transition.endOf?_of_eq
    {machine next : Machine} {record : Record}
    (htransition : machine.Transition record next) {number : Nat} {id : EndId}
    (hend : endOf? machine.connections number = some id) :
    endOf? next.connections number = some id := by
  obtain ⟨connection, hconnection, -⟩ := Option.map_eq_some_iff.mp hend
  rw [htransition.endOf?_eq (List.getElem?_eq_some_iff.mp hconnection).1]
  exact hend

theorem Accounted.transition
    {machine next : Machine} {log : List Record} {record : Record}
    (haccounted : machine.Accounted log) (hsound : machine.Sound)
    (htransition : machine.Transition record next) :
    next.Accounted (log ++ [record]) := by
  constructor
  · exact parcelsInRange_snoc hsound haccounted.inRange htransition
  · intro id hkept
    unfold Uninterrupted at hkept
    rw [filterMap_snoc] at hkept
    have hbefore : machine.Uninterrupted log id := by
      intro number hmem hend
      exact hkept number (List.mem_append_left _ hmem) (htransition.endOf?_of_eq hend)
    have hrecord :
        ∀ number, record.lostSend? = some number →
          endOf? machine.connections number ≠ some id := by
      intro number hlost hend
      apply hkept number _ (htransition.endOf?_of_eq hend)
      rw [hlost]
      simp
    exact (haccounted.balanced id hbefore).step
      (htransition.ledgerStep hsound haccounted.inRange hrecord)

/-! ## What is under way along a run -/

theorem Transition.step_of_inbox
    {machine next : Machine} {record : Record} (hsound : machine.Sound)
    (htransition : machine.Transition record next) (id : EndId) :
    (next.network.getEnd id.peer).inbox = (machine.network.getEnd id.peer).inbox ∨
      LedgerStep machine next [] record id := by
  cases hlost : record.lostSend? with
  | none =>
      right
      apply htransition.ledgerStep hsound
      · constructor
        · simp
        · simp
      · intro number hsome
        rw [hlost] at hsome
        cases hsome
  | some number =>
      left
      cases htransition with
      | abandoned hpending => exact (forget_winds machine _).inbox id.peer
      | _ => cases hlost

/-- Where nobody can write nothing gets under way. -/
theorem Transition.inbox_suffix
    {machine next : Machine} {record : Record} (hsound : machine.Sound)
    (htransition : machine.Transition record next) {id : EndId}
    (hsender : ¬machine.HasSender id) :
    (next.network.getEnd id.peer).inbox <:+ (machine.network.getEnd id.peer).inbox := by
  rcases htransition.step_of_inbox hsound id with hsame | hstep
  · rw [hsame]
  · exact Ledger.underWay_step hsender hstep

/-- What is under way changes by sending at the one end and receiving at the other
only. -/
theorem Transition.inbox_eq
    {machine next : Machine} {record : Record} (hsound : machine.Sound)
    (htransition : machine.Transition record next) {id : EndId}
    (hsends : ¬Record.SendsAt machine id record)
    (hreceives : ¬Record.ReceivesAt machine id.peer record) :
    (next.network.getEnd id.peer).inbox = (machine.network.getEnd id.peer).inbox := by
  rcases htransition.step_of_inbox hsound id with hsame | hstep
  · exact hsame
  · exact Ledger.underWay_eq_of_step hsends hreceives hstep

/-- What is under way changes only when an action is carried out. -/
theorem Transition.inbox_of_silent
    {machine next : Machine} {record : Record} (hsound : machine.Sound)
    (htransition : machine.Transition record next)
    (hsilent : ∀ pending reply, record ≠ .advanced pending reply) (id : EndId) :
    (next.network.getEnd id.peer).inbox = (machine.network.getEnd id.peer).inbox := by
  apply htransition.inbox_eq hsound
  · rintro ⟨pending, reply, handle, number, data, hrecord, -⟩
    exact hsilent pending reply hrecord
  · rintro ⟨pending, reply, handle, number, hrecord, -⟩
    exact hsilent pending reply hrecord

/-! ## Ended streams -/

/-- Nothing is under way to an end, and nothing will be. -/
def Finished (machine : Machine) (id : EndId) : Prop :=
  (machine.network.getEnd id).inbox = [] ∧
    ((machine.network.getEnd id).ended = true ∨
      (machine.network.getEnd id.peer).isOpen = false)

theorem Finished.not_hasSender
    {machine : Machine} (hsound : machine.Sound) {id : EndId} (hfinished : machine.Finished id) :
    ¬machine.HasSender id.peer := by
  rintro ⟨connection, hmem, hend, hraised⟩
  have hheld := hsound.unheldRaised connection hmem
  rw [hraised] at hheld
  rcases hfinished.2 with hended | hclosed
  · obtain ⟨other, hother, hotherEnd, hunheld⟩ := hsound.links.endedUnheld id hended
    have hsame :=
      List.inj_on_of_nodup_map hsound.links.distinct hother hmem (hotherEnd.trans hend.symm)
    rw [hsame, hheld] at hunheld
    cases hunheld
  · have hopen := hsound.links.heldOpen connection hmem hheld
    rw [hend, hclosed] at hopen
    cases hopen

theorem Finished.transition
    {machine next : Machine} {record : Record} (hsound : machine.Sound)
    (htransition : machine.Transition record next) {id : EndId}
    (hlink : id.link < machine.network.links.length) (hfinished : machine.Finished id) :
    next.Finished id := by
  have hsuffix := htransition.inbox_suffix hsound (hfinished.not_hasSender hsound)
  rw [EndId.peer_peer, hfinished.1] at hsuffix
  refine ⟨List.suffix_nil.mp hsuffix, ?_⟩
  rcases hfinished.2 with hended | hclosed
  · exact Or.inl (htransition.ended_of_ended hended)
  · right
    by_contra hopen
    have hpeer : id.peer.link < machine.network.links.length := hlink
    have hstill := htransition.isOpen hpeer (by simpa using hopen)
    rw [hclosed] at hstill
    cases hstill

/-! ## Chunks -/

/-- A read is answered with bytes of the network, or with none after the connection
was closed. -/
theorem Transition.received
    {machine next : Machine} {record : Record}
    (htransition : machine.Transition record next) {number : Nat} {data : Bytes}
    (hreceived : record.received? = some (number, data)) {connection : Connection}
    (hconnection : machine.connections[number]? = some connection) :
    (data = [] ∧ connection.signal.raised = true) ∨
      ∃ network amount,
        machine.network.receive connection.endId connection.bufferSize amount =
          (network, .moved data) := by
  cases htransition with
  | @finished pending amount performed reply hpending hturn hperform =>
      have hperformed := performed_of_perform hperform
      unfold Record.received? at hreceived
      split at hreceived
      · next other bytes hrecord =>
          cases hrecord
          split at hreceived
          · next handle other haction =>
              cases hreceived
              rw [haction] at hperformed
              generalize hprogress : Progress.finished (.bytes data) = progress at hperformed
              cases hperformed with
              | idle hlane hreply => cases hlane
              | blocked => cases hprogress
              | received hfound hraised hreceive =>
                  cases hprogress
                  rw [hconnection] at hfound
                  cases hfound
                  exact Or.inr ⟨_, _, hreceive⟩
              | unreceived hfound hreceive => cases hprogress
              | receiverGone hgone =>
                  cases hprogress
                  exact Or.inl ⟨rfl, hgone connection hconnection⟩
          · cases hreceived
      · cases hreceived
  | _ => cases hreceived

/-- A read fails only if nobody is, or will be, at the other end. -/
theorem Transition.failsReading
    {machine next : Machine} {record : Record} (hsound : machine.Sound)
    (htransition : machine.Transition record next) {number : Nat}
    (hfails : record.FailsReading number) {connection : Connection}
    (hconnection : machine.connections[number]? = some connection) :
    (machine.network.getEnd connection.endId.peer).isOpen = false ∧
      ∀ other ∈ machine.connections, other.endId ≠ connection.endId.peer := by
  obtain ⟨pending, fault, handle, rfl, haction⟩ := hfails
  generalize hreply : some (Reply.failed fault) = reply at htransition
  generalize hrecord : Record.advanced pending reply = record at htransition
  have hfailed :
      ∃ network amount other,
        machine.network.receive connection.endId connection.bufferSize amount =
          (network, .failed other) := by
    cases htransition with
    | @finished owner amount performed reply hpending hturn hperform =>
        cases hrecord
        cases hreply
        have hperformed := performed_of_perform hperform
        rw [haction] at hperformed
        generalize hprogress : Progress.finished (.failed fault) = progress at hperformed
        cases hperformed with
        | idle hlane hreply => cases hlane
        | blocked => cases hprogress
        | received hfound hraised hreceive => cases hprogress
        | unreceived hfound hreceive =>
            rw [hconnection] at hfound
            cases hfound
            exact ⟨_, _, _, hreceive⟩
        | receiverGone hgone => cases hprogress
    | continued hpending hturn hperform =>
        cases hrecord
        cases hreply
    | _ => cases hrecord
  obtain ⟨network, amount, other, hreceive⟩ := hfailed
  obtain ⟨-, hgoes, hfaulty⟩ := Network.receive_failed hreceive
  have hclosed := hsound.links.faultyClosed _ hfaulty
  refine ⟨hclosed, ?_⟩
  intro other hother hend
  rw [← hend] at hclosed
  have hended := hsound.links.closedEnded other hother hclosed
  rw [hend, EndId.peer_peer, hgoes] at hended
  cases hended

theorem Transition.failsReading_lt
    {machine next : Machine} {record : Record} (hsound : machine.Sound)
    (htransition : machine.Transition record next) {number : Nat}
    (hfails : record.FailsReading number) :
    number < machine.connections.length := by
  obtain ⟨pending, fault, handle, rfl, haction⟩ := hfails
  have hresource : pending.action.resource? = some (.connection number) := by
    rw [haction]
    rfl
  generalize hrecord : Record.advanced pending (some (.failed fault)) = record at htransition
  cases htransition with
  | finished hpending hturn hperform =>
      cases hrecord
      exact hsound.waiting.inRange pending (mem_of_pending? hpending) number hresource
  | _ => cases hrecord

theorem Transition.connections_back
    {machine next : Machine} {record : Record}
    (htransition : machine.Transition record next) {number : Nat} {later : Connection}
    (hlater : next.connections[number]? = some later) :
    (∃ connection, machine.connections[number]? = some connection ∧ Ages connection later) ∨
      (machine.connections.length ≤ number ∧ later.held = true) := by
  by_cases hnumber : number < machine.connections.length
  · left
    have hconnection := List.getElem?_eq_getElem hnumber
    obtain ⟨other, hother, hages⟩ := htransition.connections hconnection
    rw [hlater] at hother
    cases hother
    exact ⟨_, hconnection, hages⟩
  · right
    refine ⟨Nat.not_lt.mp hnumber, ?_⟩
    have hrebinds := htransition.rebinds
    generalize next.spaces = spaces at hrebinds
    generalize next.connections = connections at hrebinds hlater
    cases hrebinds with
    | same => exact absurd (List.getElem?_eq_some_iff.mp hlater).1 hnumber
    | binds hbinds =>
        obtain ⟨added, hadded, hheld⟩ := hbinds.connections
        rw [hadded, List.getElem?_append_right (Nat.not_lt.mp hnumber)] at hlater
        exact hheld later (List.mem_of_getElem? hlater)
    | unbinds hspace hbound =>
        have hlt := (List.getElem?_eq_some_iff.mp hlater).1
        rw [(machine.connections_unbind _ _ _).1] at hlt
        exact absurd hlt hnumber

/-- What holds of the reads on every connection at all times. -/
structure ReadingSound (machine : Machine) (log : List Record) : Prop where
  bounded :
    ∀ number connection, machine.connections[number]? = some connection →
      ∀ chunk ∈ chunksOn number log, chunk.length ≤ connection.bufferSize
  ended :
    ∀ number connection, machine.connections[number]? = some connection →
      0 < connection.bufferSize → connection.signal.raised = false →
        ∀ front back, chunksOn number log = front ++ [] :: back →
          machine.Finished connection.endId ∧ ∀ chunk ∈ back, chunk = []
  failedInRange :
    ∀ record ∈ log, ∀ number, record.FailsReading number → number < machine.connections.length
  failed :
    ∀ number connection, machine.connections[number]? = some connection →
      ∀ record ∈ log, record.FailsReading number →
        (machine.network.getEnd connection.endId.peer).isOpen = false ∧
          ∀ other ∈ machine.connections, other.endId ≠ connection.endId.peer

theorem readingSound_nil (machine : Machine) : machine.ReadingSound [] := by
  constructor
  · simp [chunksOn]
  · intro number connection hconnection hsize hraised front back hchunks
    simp [chunksOn] at hchunks
  · simp
  · simp

theorem chunkOn?_eq_some_iff {number : Nat} {record : Record} {chunk : Bytes} :
    record.chunkOn? number = some chunk ↔ record.received? = some (number, chunk) := by
  unfold Record.chunkOn?
  cases hreceived : record.received? with
  | none => simp
  | some parcel =>
      obtain ⟨other, data⟩ := parcel
      by_cases hother : other = number
      · simp [hother]
      · simp [hother]

theorem chunksOn_of_length_le
    {machine next : Machine} {log : List Record} {record : Record} (hsound : machine.Sound)
    (hrange : machine.ParcelsInRange log) (htransition : machine.Transition record next)
    {number : Nat} (hnumber : machine.connections.length ≤ number) :
    chunksOn number (log ++ [record]) = [] := by
  unfold chunksOn
  rw [List.filterMap_eq_nil_iff]
  intro other hother
  cases hchunk : other.chunkOn? number with
  | none => rfl
  | some chunk =>
      have hreceived := chunkOn?_eq_some_iff.mp hchunk
      have hlt : number < machine.connections.length := by
        rw [List.mem_append, List.mem_singleton] at hother
        rcases hother with hold | rfl
        · exact hrange.received (number, chunk) (List.mem_filterMap.mpr ⟨other, hold, hreceived⟩)
        · exact htransition.received?_lt hsound hreceived
      omega

/-- The reader's end of a stream stays finished, or becomes so by the empty chunk. -/
theorem ReadingSound.ended_transition
    {machine next : Machine} {log : List Record} {record : Record}
    (hreading : machine.ReadingSound log) (hsound : machine.Sound)
    (htransition : machine.Transition record next)
    {number : Nat} {connection : Connection}
    (hconnection : machine.connections[number]? = some connection)
    (hsize : 0 < connection.bufferSize) (hraised : connection.signal.raised = false)
    {front back : List Bytes} (hchunks : chunksOn number (log ++ [record]) = front ++ [] :: back) :
    next.Finished connection.endId ∧ ∀ chunk ∈ back, chunk = [] := by
  have hlink := hsound.links.inLinks connection (List.mem_of_getElem? hconnection)
  have hkeep : machine.Finished connection.endId → next.Finished connection.endId :=
    Finished.transition hsound htransition hlink
  rw [chunksOn_snoc] at hchunks
  cases hchunk : record.chunkOn? number with
  | none =>
      rw [hchunk, Option.toList_none, List.append_nil] at hchunks
      obtain ⟨hfinished, hback⟩ :=
        hreading.ended number connection hconnection hsize hraised front back hchunks
      exact ⟨hkeep hfinished, hback⟩
  | some data =>
      rw [hchunk, Option.toList_some] at hchunks
      have hmoved :
          ∃ network amount,
            machine.network.receive connection.endId connection.bufferSize amount =
              (network, .moved data) := by
        rcases htransition.received (chunkOn?_eq_some_iff.mp hchunk) hconnection with hgone | hmoved
        · rw [hraised] at hgone
          cases hgone.2
        · exact hmoved
      obtain ⟨network, amount, hreceive⟩ := hmoved
      obtain ⟨hsplit, -, -, hempty⟩ := Network.receive_moved hreceive
      rcases List.eq_nil_or_concat back with hnil | ⟨middle, last, hconcat⟩
      · -- This is the first empty chunk, and nothing waited for it.
        subst hnil
        obtain ⟨-, hlast⟩ := List.append_inj' hchunks rfl
        have hdata : data = [] := by simpa using hlast
        obtain ⟨hinbox, hended⟩ := hempty hdata hsize
        refine ⟨hkeep ⟨hinbox, ?_⟩, by simp⟩
        rcases hended with hended | hsevered
        · exact Or.inl hended
        · exact Or.inr (hsound.links.faultyClosed _ (Or.inr hsevered))
      · subst hconcat
        rw [List.concat_eq_append, ← List.cons_append, ← List.append_assoc] at hchunks
        obtain ⟨hfront, hlast⟩ := List.append_inj' hchunks rfl
        obtain ⟨hfinished, hmiddle⟩ :=
          hreading.ended number connection hconnection hsize hraised front middle hfront
        refine ⟨hkeep hfinished, ?_⟩
        intro chunk hmem
        rw [List.concat_eq_append, List.mem_append, List.mem_singleton] at hmem
        rcases hmem with hold | hself
        · exact hmiddle chunk hold
        · have hdata : data = last := by simpa using hlast
          rw [hfinished.1, List.append_eq_nil_iff] at hsplit
          rw [hself, ← hdata]
          exact hsplit.1

/-- Where nobody is and nobody will be, nobody comes. -/
theorem Transition.deserted
    {machine next : Machine} {record : Record} (hsound : machine.Sound)
    (htransition : machine.Transition record next) {id : EndId}
    (hlink : id.link < machine.network.links.length)
    (hclosed : (machine.network.getEnd id).isOpen = false)
    (hnobody : ∀ connection ∈ machine.connections, connection.endId ≠ id) :
    (next.network.getEnd id).isOpen = false ∧
      ∀ connection ∈ next.connections, connection.endId ≠ id := by
  have hstays : (next.network.getEnd id).isOpen = false := by
    by_contra hopen
    have hbefore := htransition.isOpen hlink (by simpa using hopen)
    rw [hclosed] at hbefore
    cases hbefore
  refine ⟨hstays, ?_⟩
  intro later hmem hend
  obtain ⟨number, hlater⟩ := List.mem_iff_getElem?.mp hmem
  rcases htransition.connections_back hlater with ⟨connection, hconnection, hages⟩ | ⟨-, hheld⟩
  · apply hnobody connection (List.mem_of_getElem? hconnection)
    rw [← hages.endId, hend]
  · have hopen := (htransition.sound hsound).links.heldOpen later hmem hheld
    rw [hend, hstays] at hopen
    cases hopen

theorem ReadingSound.transition
    {machine next : Machine} {log : List Record} {record : Record}
    (hreading : machine.ReadingSound log) (hsound : machine.Sound)
    (hrange : machine.ParcelsInRange log) (htransition : machine.Transition record next) :
    next.ReadingSound (log ++ [record]) := by
  constructor
  · intro number later hlater chunk hmem
    rcases htransition.connections_back hlater with ⟨connection, hconnection, hages⟩ | ⟨hnew, -⟩
    · rw [hages.bufferSize]
      rw [chunksOn_snoc, List.mem_append, Option.mem_toList] at hmem
      rcases hmem with hold | hself
      · exact hreading.bounded number connection hconnection chunk hold
      · rcases htransition.received (chunkOn?_eq_some_iff.mp hself) hconnection
          with hgone | ⟨network, amount, hreceive⟩
        · rw [hgone.1]
          exact Nat.zero_le _
        · exact (Network.receive_moved hreceive).2.2.1
    · rw [chunksOn_of_length_le hsound hrange htransition hnew] at hmem
      cases hmem
  · intro number later hlater hsize hraised front back hchunks
    rcases htransition.connections_back hlater with ⟨connection, hconnection, hages⟩ | ⟨hnew, -⟩
    · rw [hages.bufferSize] at hsize
      rw [hages.endId]
      exact hreading.ended_transition hsound htransition hconnection hsize
        (hages.raised hraised) hchunks
    · rw [chunksOn_of_length_le hsound hrange htransition hnew] at hchunks
      simp at hchunks
  · intro other hmem number hfails
    have hlength := htransition.length_connections
    rw [List.mem_append, List.mem_singleton] at hmem
    rcases hmem with hold | rfl
    · exact (hreading.failedInRange other hold number hfails).trans_le hlength
    · exact (htransition.failsReading_lt hsound hfails).trans_le hlength
  · intro number later hlater other hmem hfails
    have hfound :
        ∃ connection,
          machine.connections[number]? = some connection ∧ Ages connection later := by
      rcases htransition.connections_back hlater with hold | ⟨hnew, -⟩
      · exact hold
      · have hlt : number < machine.connections.length := by
          rw [List.mem_append, List.mem_singleton] at hmem
          rcases hmem with hold | rfl
          · exact hreading.failedInRange other hold number hfails
          · exact htransition.failsReading_lt hsound hfails
        omega
    obtain ⟨connection, hconnection, hages⟩ := hfound
    rw [hages.endId]
    have hlink : connection.endId.peer.link < machine.network.links.length :=
      hsound.links.inLinks connection (List.mem_of_getElem? hconnection)
    rw [List.mem_append, List.mem_singleton] at hmem
    rcases hmem with hold | rfl
    · obtain ⟨hclosed, hnobody⟩ := hreading.failed number connection hconnection other hold hfails
      exact htransition.deserted hsound hlink hclosed hnobody
    · obtain ⟨hclosed, hnobody⟩ := htransition.failsReading hsound hfails hconnection
      exact htransition.deserted hsound hlink hclosed hnobody

end Machine

end ResourceHandles
