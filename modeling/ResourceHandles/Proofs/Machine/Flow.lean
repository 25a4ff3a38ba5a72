import ResourceHandles.Proofs.Machine.Parcels

/-!
# The flow of bytes

Every transition takes the ledger of every end one step.  Starting a write adds to
what was written, receiving takes from what is under way, and sending moves bytes
from those that wait to those under way.  Bytes are sent in the order in which they
were written because a send is carried out only if it is the first that waits on
its connection.
-/

namespace ResourceHandles

namespace Machine

/-- What a transition does to the ledger of an end. -/
def LedgerStep (machine next : Machine) (log : List Record) (record : Record) (id : EndId) :
    Prop :=
  Ledger.Step (machine.Flows id) (next.Flows id) (machine.HasSender id)
    (Record.SendsAt machine id record) (Record.ReceivesAt machine id.peer record)
    (machine.ledger log id) (next.ledger (log ++ [record]) id)

/-! ## Steps of ledgers -/

section Steps

variable {machine next : Machine} {log : List Record} {record : Record}

theorem ledgerStep_fresh
    (hsound : machine.Sound) (hrange : machine.ParcelsInRange log)
    (htransition : machine.Transition record next) {id : EndId}
    (hmissing : machine.network.links.length ≤ id.link) :
    LedgerStep machine next log record id := by
  have hpeer : machine.network.links.length ≤ id.peer.link := hmissing
  have hnobody :
      ∀ (other : EndId) (parcels : List (Nat × Bytes)), other.link = id.link →
        bytesAt machine.connections other parcels = [] := by
    intro other parcels hother
    apply bytesAt_eq_nil
    intro parcel _ hend
    have hlt := link_lt_of_endOf? hsound.links hend
    omega
  have hwaits :
      bytesAt next.connections id (next.pending.filterMap Pending.load?) = [] := by
    rw [bytesAt_congr fun parcel hmem => htransition.endOf?_eq (htransition.load_lt hsound hmem)]
    exact hnobody id _ rfl
  have hbefore : machine.ledger log id = ⟨[], [], [], []⟩ := by
    unfold ledger
    rw [hnobody id _ rfl, hnobody id.peer _ rfl, hnobody id _ rfl,
      Network.getEnd_of_missing hpeer]
  unfold LedgerStep
  rw [ledger_snoc hsound hrange htransition, hbefore, hnobody id _ rfl, hnobody id.peer _ rfl,
    hwaits, htransition.inbox_fresh hpeer]
  exact Ledger.Step.fresh

theorem ledgerStep_quiet
    (hsound : machine.Sound) (hrange : machine.ParcelsInRange log)
    (htransition : machine.Transition record next) {id : EndId}
    (hlink : id.link < machine.network.links.length)
    (hwritten : bytesAt machine.connections id record.written?.toList = [])
    (hreceived : bytesAt machine.connections id.peer record.received?.toList = [])
    (hinbox :
      (next.network.getEnd id.peer).inbox = (machine.network.getEnd id.peer).inbox)
    (hwaiting :
      bytesAt next.connections id (next.pending.filterMap Pending.load?) =
        bytesAt machine.connections id (machine.pending.filterMap Pending.load?)) :
    LedgerStep machine next log record id := by
  unfold LedgerStep
  rw [ledger_snoc hsound hrange htransition, hwritten, hreceived, hinbox, hwaiting,
    List.append_nil, List.append_nil]
  exact Ledger.Step.quiet (htransition.flows hlink)

theorem ledgerStep_lose
    (hsound : machine.Sound) (hrange : machine.ParcelsInRange log)
    (htransition : machine.Transition record next) {id : EndId}
    (hwritten : bytesAt machine.connections id record.written?.toList = [])
    (hreceived : bytesAt machine.connections id.peer record.received?.toList = [])
    (hinbox :
      (next.network.getEnd id.peer).inbox = (machine.network.getEnd id.peer).inbox)
    (hlost : ¬next.Flows id) :
    LedgerStep machine next log record id := by
  unfold LedgerStep
  rw [ledger_snoc hsound hrange htransition, hwritten, hreceived, hinbox, List.append_nil,
    List.append_nil]
  exact Ledger.Step.lose hlost

theorem bytesAt_pending
    (hsound : machine.Sound) (htransition : machine.Transition record next) (id : EndId) :
    bytesAt next.connections id (machine.pending.filterMap Pending.load?) =
      bytesAt machine.connections id (machine.pending.filterMap Pending.load?) := by
  apply bytesAt_congr
  intro parcel hmem
  exact htransition.endOf?_eq (hsound.waiting.load_lt hmem)

theorem hasSender_of_lookup
    (hsound : machine.Sound) {space : Nat} {handle : Handle} {number : Nat} {id : EndId}
    (hlookup : machine.lookup space handle = some (.connection number))
    (hend : endOf? machine.connections number = some id) :
    machine.HasSender id := by
  obtain ⟨connection, hconnection, hheld, -⟩ := hsound.bindings.held space handle number hlookup
  have hmem := List.mem_of_getElem? hconnection
  refine ⟨connection, hmem, ?_, ?_⟩
  · exact (endOf?_eq_some_iff hconnection).mp hend
  · have hsignal := hsound.unheldRaised connection hmem
    rw [hheld] at hsignal
    simpa using hsignal

theorem ledgerStep_parked
    (hsound : machine.Sound) (hrange : machine.ParcelsInRange log)
    {space : Nat} {call : Call} {action : Action}
    (howner : space < machine.spaces.length)
    (hleads : call.LeadsTo (machine.found space call) action) {id : EndId}
    (hlink : id.link < machine.network.links.length) :
    LedgerStep machine (machine.park space action).1 log
      (.started space call (machine.found space call) (.waiting machine.nextTicket)) id := by
  have htransition := Transition.parked howner hleads
  have hload :
      (⟨machine.nextTicket, space, action⟩ : Pending).load? =
        (Record.started space call (machine.found space call)
          (.waiting machine.nextTicket)).written? :=
    load?_of_leadsTo hleads _ _ _
  unfold LedgerStep
  rw [ledger_snoc hsound hrange htransition, ← hload]
  have hpending :
      ((machine.park space action).1.pending.filterMap Pending.load?) =
        machine.pending.filterMap Pending.load? ++
          (⟨machine.nextTicket, space, action⟩ : Pending).load?.toList := by
    have hparked :
        (machine.park space action).1.pending =
          machine.pending ++ [⟨machine.nextTicket, space, action⟩] := rfl
    rw [hparked, List.filterMap_append]
    cases hparcel : (⟨machine.nextTicket, space, action⟩ : Pending).load? <;> simp [hparcel]
  rw [hpending, connections_park, bytesAt_append]
  have hnothing :
      bytesAt machine.connections id.peer
        (Record.started space call (machine.found space call)
          (.waiting machine.nextTicket)).received?.toList = [] := rfl
  rw [hnothing, List.append_nil]
  refine Ledger.Step.write ?_ (htransition.flows hlink)
  -- The handle is bound, so its connection is open.
  rw [hload]
  generalize hcall : call = started at hleads ⊢
  cases started with
  | write handle data =>
      cases hfound : machine.found space (.write handle data) with
      | none => exact Or.inl rfl
      | some resource =>
          cases resource with
          | file number => exact Or.inl rfl
          | listener number => exact Or.inl rfl
          | connection number =>
              by_cases hend : endOf? machine.connections number = some id
              · exact Or.inr (hasSender_of_lookup hsound hfound hend)
              · left
                simp [Record.written?, bytesAt_cons, hend]
  | _ => exact Or.inl rfl

theorem ledgerStep_unbound
    (hsound : machine.Sound) (hrange : machine.ParcelsInRange log)
    {space : Nat} {handle : Handle} {resource : Resource} {result : Started}
    (htransition :
      machine.Transition (.started space (.close handle) (some resource) result) next)
    {id : EndId} (hlink : id.link < machine.network.links.length)
    (hinbox :
      (next.network.getEnd id.peer).inbox = (machine.network.getEnd id.peer).inbox)
    (hpending :
      next.pending.filterMap Pending.load? = machine.pending.filterMap Pending.load?) :
    LedgerStep machine next log (.started space (.close handle) (some resource) result) id := by
  apply ledgerStep_quiet hsound hrange htransition hlink
  · rfl
  · rfl
  · exact hinbox
  · rw [hpending]
    exact bytesAt_pending hsound htransition id

/-! ## Receiving -/

theorem flows_of_sender
    (hsound : machine.Sound) {connection : Connection} (hmem : connection ∈ machine.connections)
    (hraised : connection.signal.raised = false)
    (hopen : (machine.network.getEnd connection.endId.peer).isOpen = true) :
    machine.Flows connection.endId := by
  refine ⟨hopen, ?_⟩
  intro other hother hend
  rw [List.inj_on_of_nodup_map hsound.links.distinct hother hmem hend]
  exact hraised

theorem ledgerStep_received
    (hsound : machine.Sound) (hrange : machine.ParcelsInRange log)
    {pending : Pending} {amount : Nat} {performed : Machine} {reply : Reply}
    (hpending : machine.pending? pending.ticket = some pending)
    (hturn : machine.inTurn pending = true)
    {handle : Handle} {number : Nat} (haction : pending.action = .receive handle number)
    (hperform :
      machine.perform pending.space amount pending.action = (performed, .finished reply))
    {id : EndId} (hlink : id.link < machine.network.links.length) :
    LedgerStep machine (performed.forget pending) log (.advanced pending (some reply)) id := by
  have htransition := Transition.finished hpending hturn hperform
  have hperformed := performed_of_perform hperform
  have hwaiting :
      bytesAt (performed.forget pending).connections id
          ((performed.forget pending).pending.filterMap Pending.load?) =
        bytesAt machine.connections id (machine.pending.filterMap Pending.load?) := by
    rw [forget_pending, hperformed.pending.1, bytesAt_forget hsound.waiting hpending]
    · exact bytesAt_pending hsound htransition id
    · intro parcel hload
      simp [Pending.load?, haction] at hload
  have hinbox :
      ((performed.forget pending).network.getEnd id.peer).inbox =
        (performed.network.getEnd id.peer).inbox :=
    (forget_winds performed pending).inbox id.peer
  generalize hnext : performed.forget pending = next at htransition hwaiting hinbox ⊢
  rw [haction] at hperformed
  generalize hprogress : Progress.finished reply = progress at hperformed
  cases hperformed with
  | idle hlane hreply => cases hlane
  | blocked => cases hprogress
  | @received _ _ connection network data hconnection hraised hreceive =>
      cases hprogress
      obtain ⟨hhere, hothers, -, -⟩ := Network.receive_moved hreceive
      have hend : endOf? machine.connections number = some id.peer ↔ connection.endId = id.peer :=
        endOf?_eq_some_iff hconnection
      have hrecord :
          (Record.advanced pending (some (.bytes data))).received? = some (number, data) := by
        simp [Record.received?, haction]
      by_cases hid : connection.endId = id.peer
      · unfold LedgerStep
        rw [ledger_snoc hsound hrange htransition, hrecord, hwaiting, hinbox]
        have hdata :
            bytesAt machine.connections id.peer (some (number, data)).toList = data := by
          rw [Option.toList_some, bytesAt_cons, if_pos (hend.mpr hid)]
          simp
        have hunderWay :
            (machine.ledger log id).underWay = data ++ (network.getEnd id.peer).inbox := by
          rw [← hid]
          have hledger :
              (machine.ledger log id).underWay = (machine.network.getEnd id.peer).inbox := rfl
          rw [hledger, ← hid]
          exact hhere.symm
        have hwritten :
            bytesAt machine.connections id
              (Record.advanced pending (some (.bytes data))).written?.toList = [] := rfl
        rw [hdata, hwritten, List.append_nil]
        have hledger :
            machine.ledger log id =
              ⟨(machine.ledger log id).written, (machine.ledger log id).received,
                data ++ (network.getEnd id.peer).inbox, (machine.ledger log id).waiting⟩ := by
          rw [← hunderWay]
        conv_lhs => rw [hledger]
        apply Ledger.Step.receive
        · exact ⟨pending, _, handle, number, rfl, haction, hend.mpr hid⟩
        · exact htransition.flows hlink
      · apply ledgerStep_quiet hsound hrange htransition hlink rfl
        · rw [hrecord, Option.toList_some, bytesAt_cons, if_neg fun hhere => hid (hend.mp hhere)]
          rfl
        · rw [hinbox]
          exact hothers id.peer (Ne.symm hid)
        · exact hwaiting
  | unreceived hconnection hreceive =>
      cases hprogress
      apply ledgerStep_quiet hsound hrange htransition hlink rfl rfl
      · rw [hinbox]
        exact (Network.receive_failed hreceive).1 id.peer
      · exact hwaiting
  | receiverGone hgone =>
      cases hprogress
      apply ledgerStep_quiet hsound hrange htransition hlink rfl
      · simp [Record.received?, haction, bytesAt]
      · exact hinbox
      · exact hwaiting

/-! ## Sending -/

/-- Sent bytes are the first that waited at their end. -/
theorem ledgerStep_sent
    (hsound : machine.Sound) (hrange : machine.ParcelsInRange log)
    {pending : Pending} {reply : Option Reply}
    (htransition : machine.Transition (.advanced pending reply) next)
    (hnothing : (Record.advanced pending reply).received? = none)
    {handle : Handle} {number : Nat} {data : Bytes} {connection : Connection}
    {network : Network} {count amount : Nat}
    (haction : pending.action = .send handle number data)
    (hconnection : machine.connections[number]? = some connection)
    (hraised : connection.signal.raised = false)
    (hsend : machine.network.send connection.endId data amount = (network, .moved count))
    (hinbox : ∀ other, (next.network.getEnd other).inbox = (network.getEnd other).inbox)
    (hopen :
      ∀ other, (next.network.getEnd other).isOpen = true →
        (network.getEnd other).isOpen = true)
    {id : EndId} (hlink : id.link < machine.network.links.length)
    (hhere :
      connection.endId = id →
        ∃ rest,
          bytesAt machine.connections id (machine.pending.filterMap Pending.load?) =
              data ++ rest ∧
            bytesAt next.connections id (next.pending.filterMap Pending.load?) =
              data.drop count ++ rest)
    (helsewhere :
      connection.endId ≠ id →
        bytesAt next.connections id (next.pending.filterMap Pending.load?) =
          bytesAt machine.connections id (machine.pending.filterMap Pending.load?)) :
    LedgerStep machine next log (.advanced pending reply) id := by
  obtain ⟨hothers, hpeer⟩ := Network.send_moved hsend
  have hmem := List.mem_of_getElem? hconnection
  have hmoves := Network.moves_of_send hsend
  by_cases hid : connection.endId = id
  · subst hid
    rcases hpeer with ⟨hpeerOpen, hdelivered⟩ | ⟨hpeerClosed, hlost⟩
    · obtain ⟨rest, hbefore, hafter⟩ := hhere rfl
      unfold LedgerStep
      rw [ledger_snoc hsound hrange htransition, hnothing, hafter, hinbox, hdelivered]
      have hledger :
          machine.ledger log connection.endId =
            ⟨(machine.ledger log connection.endId).written,
              (machine.ledger log connection.endId).received,
              (machine.network.getEnd connection.endId.peer).inbox,
              data.take count ++ (data.drop count ++ rest)⟩ := by
        rw [← List.append_assoc, List.take_append_drop, ← hbefore]
        rfl
      have hwritten :
          bytesAt machine.connections connection.endId
            (Record.advanced pending reply).written?.toList = [] := rfl
      have hreceived :
          bytesAt machine.connections connection.endId.peer
            (none : Option (Nat × Bytes)).toList = [] := rfl
      rw [hwritten, hreceived, List.append_nil, List.append_nil]
      conv_lhs => rw [hledger]
      apply Ledger.Step.send
      · exact ⟨pending, reply, handle, number, data, rfl, haction,
          (endOf?_eq_some_iff hconnection).mpr rfl⟩
      · exact ⟨connection, hmem, rfl, hraised⟩
      · exact flows_of_sender hsound hmem hraised hpeerOpen
    · apply ledgerStep_lose hsound hrange htransition rfl
      · rw [hnothing]
        rfl
      · rw [hinbox, hlost]
      · intro hflows
        have hstill := hopen _ hflows.1
        rw [hmoves.isOpen, hpeerClosed] at hstill
        cases hstill
  · apply ledgerStep_quiet hsound hrange htransition hlink rfl
    · rw [hnothing]
      rfl
    · rw [hinbox]
      apply hothers
      intro hsame
      apply hid
      rw [← EndId.peer_peer id, hsame, EndId.peer_peer]
    · exact helsewhere hid

theorem not_flows_of_raised
    (htransition : machine.Transition record next) {number : Nat} {connection : Connection}
    (hconnection : machine.connections[number]? = some connection)
    (hraised : connection.signal.raised = true) :
    ¬next.Flows connection.endId := by
  intro hflows
  obtain ⟨later, hlater, hages⟩ := htransition.connections hconnection
  have hlowered :=
    hages.raised (hflows.2 later (List.mem_of_getElem? hlater) hages.endId)
  rw [hraised] at hlowered
  cases hlowered

theorem received?_of_send
    {pending : Pending} {handle : Handle} {number : Nat} {data : Bytes}
    (haction : pending.action = .send handle number data) (reply : Option Reply) :
    (Record.advanced pending reply).received? = none := by
  unfold Record.received?
  split
  · next other bytes hrecord =>
      cases hrecord
      simp [haction]
  · rfl

theorem bytesAt_finishedSend
    (hsound : machine.Sound) {pending : Pending}
    (htransition : machine.Transition record next)
    (hpending : machine.pending? pending.ticket = some pending)
    (hforgotten :
      next.pending = machine.pending.filter fun other => other.ticket != pending.ticket)
    {number : Nat} {data : Bytes} (hload : pending.load? = some (number, data)) (id : EndId)
    (helsewhere : endOf? machine.connections number = some id → data = []) :
    bytesAt next.connections id (next.pending.filterMap Pending.load?) =
      bytesAt machine.connections id (machine.pending.filterMap Pending.load?) := by
  have hnumber := hsound.waiting.load_lt (List.mem_filterMap.mpr
    ⟨pending, mem_of_pending? hpending, hload⟩)
  rw [hforgotten, bytesAt_forget hsound.waiting hpending]
  · exact bytesAt_pending hsound htransition id
  · intro parcel hparcel hend
    rw [hload] at hparcel
    cases hparcel
    rw [htransition.endOf?_eq hnumber] at hend
    exact helsewhere hend

theorem ledgerStep_finishedSend
    (hsound : machine.Sound) (hrange : machine.ParcelsInRange log)
    {pending : Pending} {amount : Nat} {performed : Machine} {reply : Reply}
    (hpending : machine.pending? pending.ticket = some pending)
    (hturn : machine.inTurn pending = true)
    {handle : Handle} {number : Nat} {data : Bytes}
    (haction : pending.action = .send handle number data)
    (hperform :
      machine.perform pending.space amount pending.action = (performed, .finished reply))
    {id : EndId} (hlink : id.link < machine.network.links.length) :
    LedgerStep machine (performed.forget pending) log (.advanced pending (some reply)) id := by
  have htransition := Transition.finished hpending hturn hperform
  have hperformed := performed_of_perform hperform
  have hload : pending.load? = some (number, data) := by
    simp [Pending.load?, haction]
  have hnothing :
      bytesAt machine.connections id.peer
        (Record.advanced pending (some reply)).received?.toList = [] := by
    rw [received?_of_send haction]
    rfl
  have hforgotten :
      (performed.forget pending).pending =
        machine.pending.filter fun other => other.ticket != pending.ticket := by
    rw [forget_pending, hperformed.pending.1]
  have helsewhere :=
    bytesAt_finishedSend hsound htransition hpending hforgotten hload id
  have hinbox := (forget_winds performed pending).inbox
  have hopen := (forget_winds performed pending).isOpen
  generalize hnext : performed.forget pending = next
    at htransition hforgotten helsewhere hinbox hopen ⊢
  rw [haction] at hperformed
  generalize hprogress : Progress.finished reply = progress at hperformed
  cases hperformed with
  | idle hlane hreply => cases hlane
  | blocked => cases hprogress
  | @sent _ _ _ connection network count hconnection hraised hsend =>
      have hdone : data.drop count = [] := by
        split at hprogress
        · next hempty => simpa using hempty
        · cases hprogress
      have hend : endOf? machine.connections number = some id ↔ connection.endId = id :=
        endOf?_eq_some_iff hconnection
      apply ledgerStep_sent hsound hrange htransition (received?_of_send haction _) haction
        hconnection hraised hsend hinbox hopen hlink
      · intro hid
        obtain ⟨rest, hbefore, hafter, -⟩ :=
          bytesAt_inTurn hsound hpending hturn haction (hend.mpr hid)
        refine ⟨rest, hbefore, ?_⟩
        rw [hdone, List.nil_append, hforgotten, ← hafter]
        apply bytesAt_congr
        intro parcel hmem
        apply htransition.endOf?_eq
        apply htransition.load_lt hsound
        rwa [hforgotten]
      · intro hid
        exact helsewhere fun hhere => absurd (hend.mp hhere) hid
  | @unsent _ _ _ connection network fault hconnection hsend =>
      obtain ⟨hsame, hfaulty⟩ := Network.send_failed hsend
      have hend : endOf? machine.connections number = some id ↔ connection.endId = id :=
        endOf?_eq_some_iff hconnection
      have hstill := (hinbox id.peer).trans (hsame id.peer)
      by_cases hid : connection.endId = id
      · apply ledgerStep_lose hsound hrange htransition rfl hnothing hstill
        intro hflows
        have hbefore := (htransition.flows hlink hflows).1
        rw [← hid, hsound.links.faultyClosed _ hfaulty] at hbefore
        cases hbefore
      · apply ledgerStep_quiet hsound hrange htransition hlink rfl hnothing hstill
        exact helsewhere fun hhere => absurd (hend.mp hhere) hid
  | senderGone hgone =>
      rcases hgone with hnone | hgone
      · apply ledgerStep_quiet hsound hrange htransition hlink rfl hnothing (hinbox id.peer)
        exact helsewhere fun _ => hnone
      · by_cases hhere : endOf? machine.connections number = some id
        · apply ledgerStep_lose hsound hrange htransition rfl hnothing (hinbox id.peer)
          obtain ⟨connection, hconnection, hid⟩ := Option.map_eq_some_iff.mp hhere
          rw [← hid]
          exact not_flows_of_raised htransition hconnection (hgone connection hconnection)
        · apply ledgerStep_quiet hsound hrange htransition hlink rfl hnothing (hinbox id.peer)
          exact helsewhere fun hsame => absurd hsame hhere

theorem ledgerStep_continued
    (hsound : machine.Sound) (hrange : machine.ParcelsInRange log)
    {pending : Pending} {amount : Nat} {performed : Machine} {rest : Action}
    (hpending : machine.pending? pending.ticket = some pending)
    (hturn : machine.inTurn pending = true)
    (hperform :
      machine.perform pending.space amount pending.action = (performed, .continues rest))
    {id : EndId} (hlink : id.link < machine.network.links.length) :
    LedgerStep machine (performed.replace pending.ticket rest) log (.advanced pending none) id := by
  have htransition := Transition.continued hpending hturn hperform
  have hperformed := performed_of_perform hperform
  have hreplaced :
      (performed.replace pending.ticket rest).pending =
        (machine.replace pending.ticket rest).pending := by
    unfold Machine.replace
    rw [hperformed.pending.1]
  have hinbox :
      ∀ other,
        ((performed.replace pending.ticket rest).network.getEnd other).inbox =
          (performed.network.getEnd other).inbox := fun _ => rfl
  have hopen :
      ∀ other,
        ((performed.replace pending.ticket rest).network.getEnd other).isOpen = true →
          (performed.network.getEnd other).isOpen = true := fun _ hstill => hstill
  generalize hnext : performed.replace pending.ticket rest = next
    at htransition hreplaced hinbox hopen ⊢
  generalize haction : pending.action = action at hperformed
  generalize hprogress : Progress.continues rest = progress at hperformed
  cases hperformed with
  | @sent handle number data connection network count hconnection hraised hsend =>
      have hrest : rest = .send handle number (data.drop count) := by
        split at hprogress
        · cases hprogress
        · cases hprogress
          rfl
      rw [hrest] at hreplaced
      have hend : endOf? machine.connections number = some id ↔ connection.endId = id :=
        endOf?_eq_some_iff hconnection
      have hconnections :
          bytesAt next.connections id (next.pending.filterMap Pending.load?) =
            bytesAt machine.connections id (next.pending.filterMap Pending.load?) := by
        apply bytesAt_congr
        intro parcel hmem
        exact htransition.endOf?_eq (htransition.load_lt hsound hmem)
      apply ledgerStep_sent hsound hrange htransition rfl haction hconnection hraised hsend
        hinbox hopen hlink
      · intro hid
        obtain ⟨others, hbefore, -, hafter⟩ :=
          bytesAt_inTurn hsound hpending hturn haction (hend.mpr hid)
        refine ⟨others, hbefore, ?_⟩
        rw [hconnections, hreplaced]
        exact hafter (data.drop count)
      · intro hid
        rw [hconnections, hreplaced]
        apply bytesAt_replace hsound.waiting hpending haction
        intro hhere
        exact hid (hend.mp hhere)
  | _ => cases hprogress

theorem ledgerStep_abandoned
    (hsound : machine.Sound) (hrange : machine.ParcelsInRange log)
    {pending : Pending} (hpending : machine.pending? pending.ticket = some pending)
    {id : EndId} (hlink : id.link < machine.network.links.length)
    (hkept :
      ∀ number, (Record.abandoned pending).lostSend? = some number →
        endOf? machine.connections number ≠ some id) :
    LedgerStep machine (machine.forget pending) log (.abandoned pending) id := by
  have htransition := Transition.abandoned hpending
  apply ledgerStep_quiet hsound hrange htransition hlink rfl rfl
  · exact (forget_winds machine pending).inbox id.peer
  · rw [forget_pending, connections_forget, bytesAt_forget hsound.waiting hpending]
    intro parcel hload hend
    unfold Pending.load? at hload
    split at hload
    · next handle number data haction =>
        cases hload
        have hlost : (Record.abandoned pending).lostSend? = some number := by
          simp [Record.lostSend?, haction]
        exact absurd hend (hkept number hlost)
    · cases hload

theorem ledgerStep_finished
    (hsound : machine.Sound) (hrange : machine.ParcelsInRange log)
    {pending : Pending} {amount : Nat} {performed : Machine} {reply : Reply}
    (hpending : machine.pending? pending.ticket = some pending)
    (hturn : machine.inTurn pending = true)
    (hperform :
      machine.perform pending.space amount pending.action = (performed, .finished reply))
    {id : EndId} (hlink : id.link < machine.network.links.length) :
    LedgerStep machine (performed.forget pending) log (.advanced pending (some reply)) id := by
  by_cases hreceive : ∃ handle number, pending.action = .receive handle number
  · obtain ⟨handle, number, haction⟩ := hreceive
    exact ledgerStep_received hsound hrange hpending hturn haction hperform hlink
  · by_cases hsend : ∃ handle number data, pending.action = .send handle number data
    · obtain ⟨handle, number, data, haction⟩ := hsend
      exact ledgerStep_finishedSend hsound hrange hpending hturn haction hperform hlink
    · have htransition := Transition.finished hpending hturn hperform
      have hperformed := performed_of_perform hperform
      have hpeer : id.peer.link < machine.network.links.length := hlink
      apply ledgerStep_quiet hsound hrange htransition hlink rfl
      · have hnothing : (Record.advanced pending (some reply)).received? = none := by
          unfold Record.received?
          split
          · next other bytes hrecord =>
              cases hrecord
              split
              · next handle number haction => exact absurd ⟨handle, number, haction⟩ hreceive
              · rfl
          · rfl
        rw [hnothing]
        rfl
      · rw [(forget_winds performed pending).inbox]
        exact hperformed.stirs.inbox_eq (fun hmoves => hmoves.elim hreceive hsend) hpeer
      · rw [forget_pending, hperformed.pending.1, bytesAt_forget hsound.waiting hpending]
        · exact bytesAt_pending hsound htransition id
        · intro parcel hload
          unfold Pending.load? at hload
          split at hload
          · next handle number data haction => exact absurd ⟨handle, number, data, haction⟩ hsend
          · cases hload

/-- Every transition takes the ledger of every end one step, unless it gives up a
write there. -/
theorem Transition.ledgerStep
    (htransition : machine.Transition record next)
    (hsound : machine.Sound) (hrange : machine.ParcelsInRange log) {id : EndId}
    (hkept :
      ∀ number, record.lostSend? = some number →
        endOf? machine.connections number ≠ some id) :
    LedgerStep machine next log record id := by
  by_cases hmissing : machine.network.links.length ≤ id.link
  · exact ledgerStep_fresh hsound hrange htransition hmissing
  · have hlink : id.link < machine.network.links.length := Nat.not_le.mp hmissing
    have hpeer : id.peer.link < machine.network.links.length := hlink
    cases htransition with
    | @refused space call reply howner hfound hclose hreply =>
        have hnothing :
            (Record.started space call (machine.found space call)
              (.answered reply)).written? = none := by
          unfold Record.written?
          split
          · next owner handle data number result hrecord =>
              simp only [Record.started.injEq] at hrecord
              obtain ⟨-, rfl, hnumber, -⟩ := hrecord
              rw [hnumber] at hfound
              cases hfound
          · rfl
        apply ledgerStep_quiet hsound hrange (Transition.refused howner hfound hclose hreply)
          hlink
        · rw [hnothing]
          rfl
        · rfl
        · rfl
        · rfl
    | parked howner hleads => exact ledgerStep_parked hsound hrange howner hleads hlink
    | @performed space call action performed reply howner hcall hfree hperform =>
        have hperformed := performed_of_perform hperform
        have hfull := Transition.performed howner hcall hfree hperform
        apply ledgerStep_quiet hsound hrange hfull hlink
        · cases call with
          | write handle data => cases hcall
          | _ => rfl
        · rfl
        · apply hperformed.stirs.inbox_eq _ hpeer
          rintro (⟨handle, number, haction⟩ | ⟨handle, number, data, haction⟩)
          · rw [haction] at hfree
            cases hfree
          · rw [haction] at hfree
            cases hfree
        · rw [hperformed.pending.1]
          exact bytesAt_pending hsound hfull id
    | @closed space handle resource howner hbound =>
        apply ledgerStep_unbound hsound hrange (Transition.closed howner hbound) hlink
        · rw [(letGo_winds _ _).inbox, (unbind_frame _ _ _ _).1]
        · rw [(letGo_pending _ _).1, (unbind_frame _ _ _ _).2.1]
    | @closing space handle resource action howner hbound haction =>
        obtain ⟨hnetwork, hpending, -⟩ := machine.unbind_frame space handle resource
        apply ledgerStep_unbound hsound hrange (Transition.closing howner hbound haction) hlink
        · have hsame :
              ((machine.unbind space handle resource).network.getEnd id.peer).inbox =
                (machine.network.getEnd id.peer).inbox := by
            rw [hnetwork]
          exact hsame
        · have hparked :
              ((machine.unbind space handle resource).park space action).1.pending =
                (machine.unbind space handle resource).pending ++
                  [⟨(machine.unbind space handle resource).nextTicket, space, action⟩] := rfl
          rw [hparked, hpending, List.filterMap_append]
          cases resource with
          | file number =>
              cases haction
              exact List.append_nil _
          | listener number => cases haction
          | connection number =>
              cases haction
              exact List.append_nil _
    | finished hpending hturn hperform =>
        exact ledgerStep_finished hsound hrange hpending hturn hperform hlink
    | continued hpending hturn hperform =>
        exact ledgerStep_continued hsound hrange hpending hturn hperform hlink
    | abandoned hpending => exact ledgerStep_abandoned hsound hrange hpending hlink hkept
    | exhausted exhausted =>
        apply ledgerStep_quiet hsound hrange (Transition.exhausted exhausted) hlink rfl rfl
        · rfl
        · rfl

end Steps

end Machine

end ResourceHandles
