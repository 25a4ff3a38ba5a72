import ResourceHandles.Proofs.Machine.Delivery
import ResourceHandles.Proofs.Machine.Meetings

/-!
# Accepts and connects

The accepts of a listening socket take the links that reached it one by one, in the order
in which they reached it.  So each accept that succeeds belongs to one connect, and each
connect to one accept at most, however many listeners, runtimes and waiting calls there
are.  The two handles of a link are each other's peers, and what is read from a handle was
written to its peer.
-/

namespace ResourceHandles

/-- Two handles were handed out for the two ends of one link. -/
def Peers (meetings : List Meeting) (first second : Nat × Handle) : Prop :=
  ∃ meeting ∈ meetings, ∃ other ∈ meetings,
    meeting.handle = first ∧ other.handle = second ∧ other.id = meeting.id.peer

theorem reachedAt_snoc (socket : Nat) (meetings : List Meeting) (meeting : Meeting) :
    reachedAt socket (meetings ++ [meeting]) =
      reachedAt socket meetings ++ (meeting.linkAt? .caller socket).toList := by
  unfold reachedAt
  rw [List.filterMap_append]
  cases hlink : meeting.linkAt? .caller socket <;> simp [hlink]

theorem takenAt_snoc (socket : Nat) (meetings : List Meeting) (meeting : Meeting) :
    takenAt socket (meetings ++ [meeting]) =
      takenAt socket meetings ++ (meeting.linkAt? .answerer socket).toList := by
  unfold takenAt
  rw [List.filterMap_append]
  cases hlink : meeting.linkAt? .answerer socket <;> simp [hlink]

namespace History

/-- The meetings that some events bring about, in order. -/
def meetings (history : History) : List Event → List Meeting
  | [] => []
  | event :: events =>
    (history.machine.meeting? event).toList ++ (history.after event).meetings events

end History

namespace Machine

variable {machine next : Machine} {log : List Record} {record : Record}
  {meetings : List Meeting}

/-! ## Meetings along a run -/

/-- What holds of a machine, its log, and the meetings up to it, at every point of a run. -/
structure Acquainted (machine : Machine) (log : List Record) (meetings : List Meeting) :
    Prop where
  regular : machine.Regular log
  spaces : ∀ pending ∈ machine.pending, pending.space < machine.spaces.length
  complete : meetings.map Meeting.handle = log.filterMap Record.met?
  ends : machine.connections.map Connection.endId = meetings.map Meeting.id
  seats : ∀ meeting ∈ meetings, endOf? machine.connections meeting.party.number = some meeting.id
  owns : ∀ meeting ∈ meetings, machine.Owns log meeting.party
  handles : (meetings.map Meeting.handle).Nodup
  known : ∀ party, machine.Appears log party → ∃ meeting ∈ meetings, meeting.party = party
  backlogs :
    ∀ socket : Nat,
      Network.Backlog machine.network.sockets[socket]? (reachedAt socket meetings)
        (takenAt socket meetings)
  clean : ∀ id, (machine.ledger log id).Clean

theorem acquainted_boot
    (tree : FileTree) (routed : Bool) (capacity : Nat) (configurations : List Configuration) :
    (boot tree routed capacity configurations).Acquainted [] [] := by
  have hregular := regular_boot tree routed capacity configurations
  constructor
  · exact hregular
  · simp [boot]
  · rfl
  · rfl
  · simp
  · simp
  · exact List.nodup_nil
  · intro party happears
    cases happears with
    | bound hopen => exact absurd (hregular.sound.bindings.lt_length hopen) (Nat.not_lt_zero _)
    | waiting hmem hparty => cases hmem
    | logged hmem hparty => cases hmem
  · intro socket
    exact Network.Backlog.missing
  · intro id
    have hmissing :
        (boot tree routed capacity configurations).network.getEnd id.peer =
          { isOpen := false } :=
      Network.getEnd_of_missing (Nat.zero_le _)
    unfold Ledger.Clean ledger
    rw [hmissing]
    exact List.Sublist.refl _

/-- The actions that wait after a transition belong to spaces that exist. -/
theorem Transition.spaces_inRange
    (htransition : machine.Transition record next)
    (hspaces : ∀ pending ∈ machine.pending, pending.space < machine.spaces.length) :
    ∀ pending ∈ next.pending, pending.space < next.spaces.length := by
  rw [htransition.length_spaces]
  intro pending hmem
  cases htransition with
  | refused howner hfound hclose hreply => exact hspaces pending hmem
  | parked howner hleads =>
      rcases List.mem_append.mp hmem with hold | hnew
      · exact hspaces pending hold
      · rw [List.mem_singleton.mp hnew]
        exact howner
  | performed howner hcall hfree hperform =>
      rw [(performed_of_perform hperform).pending.1] at hmem
      exact hspaces pending hmem
  | closed howner hbound =>
      rw [(letGo_pending _ _).1, (unbind_frame _ _ _ _).2.1] at hmem
      exact hspaces pending hmem
  | @closing space handle resource action howner hbound haction =>
      rcases List.mem_append.mp hmem with hold | hnew
      · rw [(machine.unbind_frame space handle resource).2.1] at hold
        exact hspaces pending hold
      · rw [List.mem_singleton.mp hnew]
        exact howner
  | finished hpending hturn hperform =>
      rw [forget_pending, (performed_of_perform hperform).pending.1] at hmem
      exact hspaces pending (List.mem_filter.mp hmem).1
  | continued hpending hturn hperform =>
      obtain ⟨earlier, hearlier, hreplaced⟩ := List.mem_map.mp hmem
      rw [(performed_of_perform hperform).pending.1] at hearlier
      have hspace : pending.space = earlier.space := by
        rw [← hreplaced]
        split
        · rfl
        · rfl
      rw [hspace]
      exact hspaces earlier hearlier
  | abandoned hpending =>
      rw [forget_pending] at hmem
      exact hspaces pending (List.mem_filter.mp hmem).1
  | exhausted _ => exact hspaces pending hmem

theorem Acquainted.nobody
    (hacquainted : machine.Acquainted log meetings)
    (htransition : machine.Transition record next) (hmet : record.met? = none)
    (hquiet : machine.Quiet next) :
    next.Acquainted (log ++ [record]) meetings := by
  have hsound := hacquainted.regular.sound
  have hregular := hacquainted.regular.transition htransition
  constructor
  · exact hregular
  · exact htransition.spaces_inRange hacquainted.spaces
  · rw [filterMap_snoc, hmet, Option.toList_none, List.append_nil]
    exact hacquainted.complete
  · rw [hquiet.ends]
    exact hacquainted.ends
  · intro meeting hmem
    exact htransition.endOf?_of_eq (hacquainted.seats meeting hmem)
  · intro meeting hmem
    exact (hacquainted.owns meeting hmem).transition hsound htransition
  · exact hacquainted.handles
  · intro party happears
    obtain ⟨owner, hparties⟩ := htransition.appears hsound log
    rcases hparties party happears with hold | ⟨hnew, hopen⟩
    · exact hacquainted.known party hold
    · have hlt := hregular.sound.bindings.lt_length hopen
      have hlength := congrArg List.length hquiet.ends
      rw [List.length_map, List.length_map] at hlength
      rw [hnew, hlength] at hlt
      exact absurd hlt (lt_irrefl _)
  · intro socket
    exact (hacquainted.backlogs socket).relisted (hquiet.relists socket)
  · intro id
    exact htransition.clean hacquainted.regular (hacquainted.clean id)

theorem Acquainted.somebody
    (hacquainted : machine.Acquainted log meetings)
    (htransition : machine.Transition record next) {meeting : Meeting}
    (hmet : record.met? = some meeting.handle) (hcomes : machine.Comes next meeting) :
    next.Acquainted (log ++ [record]) (meetings ++ [meeting]) := by
  have hsound := hacquainted.regular.sound
  have hregular := hacquainted.regular.transition htransition
  have hends :
      next.connections.map Connection.endId = (meetings ++ [meeting]).map Meeting.id := by
    rw [hcomes.ends, hacquainted.ends, List.map_append]
    rfl
  constructor
  · exact hregular
  · exact htransition.spaces_inRange hacquainted.spaces
  · rw [filterMap_snoc, hmet, List.map_append, hacquainted.complete]
    rfl
  · exact hends
  · intro other hmem
    rcases List.mem_append.mp hmem with hold | hnew
    · exact htransition.endOf?_of_eq (hacquainted.seats other hold)
    · rw [List.mem_singleton.mp hnew]
      unfold endOf?
      rw [← List.getElem?_map, hcomes.ends, hcomes.number_eq]
      simp
  · intro other hmem
    rcases List.mem_append.mp hmem with hold | hnew
    · exact (hacquainted.owns other hold).transition hsound htransition
    · rw [List.mem_singleton.mp hnew]
      exact hregular.separate meeting.party (Appears.bound hcomes.isOpen)
  · rw [List.map_append, List.map_singleton, List.nodup_append_comm, List.singleton_append,
      List.nodup_cons]
    refine ⟨?_, hacquainted.handles⟩
    intro hmem
    obtain ⟨other, hother, hsame⟩ := List.mem_map.mp hmem
    simp only [Meeting.handle, Prod.mk.injEq] at hsame
    have hold := (hacquainted.owns other hother).handleOld
    rw [hsame.1, hsame.2, hcomes.handle_eq] at hold
    exact lt_irrefl _ hold
  · intro party happears
    obtain ⟨owner, hparties⟩ := htransition.appears hsound log
    rcases hparties party happears with hold | ⟨hnew, hopen⟩
    · obtain ⟨other, hother, hparty⟩ := hacquainted.known party hold
      exact ⟨other, List.mem_append_left _ hother, hparty⟩
    · refine ⟨meeting, by simp, ?_⟩
      have hnumber : party.number = meeting.party.number := by
        rw [hcomes.number_eq, hnew]
      exact
        (hregular.separate party happears).byConnection meeting.party
          (Appears.bound hcomes.isOpen) hnumber.symm
  · intro socket
    rw [reachedAt_snoc, takenAt_snoc]
    exact hcomes.backlogs socket _ _ (hacquainted.backlogs socket)
  · intro id
    exact htransition.clean hacquainted.regular (hacquainted.clean id)

theorem Acquainted.step
    (hacquainted : machine.Acquainted log meetings) {event : Event}
    (hstep : machine.step? event = some (next, record)) :
    next.Acquainted (log ++ [record]) (meetings ++ (machine.meeting? event).toList) := by
  have htransition := step?_transition hstep
  have hmeeting : machine.meeting? event = machine.meetingOf? next record := by
    unfold meeting?
    rw [hstep]
    rfl
  rw [hmeeting]
  cases step?_meets hacquainted.regular.sound hacquainted.spaces hstep with
  | nobody hnone hmet hquiet =>
      rw [hnone, Option.toList_none, List.append_nil]
      exact hacquainted.nobody htransition hmet hquiet
  | somebody hsome hmet hcomes =>
      rw [hsome, Option.toList_some]
      exact hacquainted.somebody htransition hmet hcomes

end Machine

namespace History

theorem acquainted_play
    {history : History} {meetings : List Meeting}
    (hacquainted : history.machine.Acquainted history.log meetings) (events : List Event) :
    (history.play events).machine.Acquainted (history.play events).log
      (meetings ++ history.meetings events) := by
  induction events generalizing history meetings with
  | nil =>
      unfold History.meetings
      rw [List.append_nil]
      exact hacquainted
  | cons event events ih =>
      unfold History.meetings
      rw [play_cons, ← List.append_assoc]
      apply ih
      cases hstep : history.machine.step? event with
      | none =>
          have hnobody : history.machine.meeting? event = none := by
            unfold Machine.meeting?
            rw [hstep]
            rfl
          have hskip : history.after event = history := by
            unfold after
            rw [hstep]
          rw [hnobody, hskip, Option.toList_none, List.append_nil]
          exact hacquainted
      | some result =>
          rw [after_of_step? hstep]
          exact hacquainted.step hstep

end History

/-! ## Pairs -/

/-- How the connects and the accepts of a run belong together. -/
structure PairedOneToOne (history : History) (meetings : List Meeting) : Prop where
  /-- All connects and accepts that succeeded are there, in order, with the handle that
  each of them was answered with. -/
  complete : meetings.map Meeting.handle = history.log.filterMap Record.met?
  /-- The accepts take the links from a socket in the order in which they reached it. -/
  inOrder : ∀ socket, takenAt socket meetings <+: reachedAt socket meetings
  /-- Every link has one connect, and one accept at most. -/
  once : (meetings.map Meeting.id).Nodup
  /-- An accept takes the link of one connect that reached its socket. -/
  matched :
    ∀ meeting ∈ meetings, meeting.id.side = .answerer →
      ∃! other, other ∈ meetings ∧ other.id = meeting.id.peer ∧ other.socket = meeting.socket
  /-- No handle of a handle space is handed out twice. -/
  distinct : (meetings.map Meeting.handle).Nodup
  symmetric : ∀ first second, Peers meetings first second → Peers meetings second first
  unique :
    ∀ first second other,
      Peers meetings first second → Peers meetings first other → second = other
  /-- What the reads on a handle were answered with was written to its peer, in this
  order, though some of it may have been lost. -/
  delivered :
    ∀ meeting ∈ meetings, ∀ other ∈ meetings, other.id = meeting.id.peer →
      (meeting.party.chunks history.log).flatten.Sublist (other.party.written history.log)
  /-- Reads on a handle without a peer return nothing. -/
  deserted :
    ∀ meeting ∈ meetings, (∀ other ∈ meetings, other.id ≠ meeting.id.peer) →
      (meeting.party.chunks history.log).flatten = []
  /-- Only these handles can read from connections. -/
  known :
    ∀ party : Party, party.chunks history.log ≠ [] →
      (party.space, party.handle) ∈ meetings.map Meeting.handle

namespace Machine

variable {machine : Machine} {log : List Record} {meetings : List Meeting}

theorem Acquainted.nodup_ids (hacquainted : machine.Acquainted log meetings) :
    (meetings.map Meeting.id).Nodup := by
  rw [← hacquainted.ends]
  exact hacquainted.regular.sound.links.distinct

theorem Acquainted.exists_caller
    (hacquainted : machine.Acquainted log meetings) {meeting : Meeting}
    (hmem : meeting ∈ meetings) (hside : meeting.id.side = .answerer) :
    ∃ other ∈ meetings, other.id = meeting.id.peer ∧ other.socket = meeting.socket := by
  have htaken : meeting.id.link ∈ takenAt meeting.socket meetings := by
    apply List.mem_filterMap.mpr
    refine ⟨meeting, hmem, ?_⟩
    unfold Meeting.linkAt?
    rw [if_pos ⟨hside, rfl⟩]
  have hreached := (hacquainted.backlogs meeting.socket).isPrefix.subset htaken
  obtain ⟨other, hother, hlink⟩ := List.mem_filterMap.mp hreached
  unfold Meeting.linkAt? at hlink
  split at hlink
  · next hfits =>
      refine ⟨other, hother, ?_, hfits.2⟩
      obtain ⟨⟨link, side⟩, socket, party⟩ := other
      obtain ⟨⟨otherLink, otherSide⟩, otherSocket, otherParty⟩ := meeting
      cases hside
      cases hfits.1
      cases hlink
      rfl
  · cases hlink

/-- Nothing is written where nobody sits. -/
theorem Acquainted.written_of_empty
    (hacquainted : machine.Acquainted log meetings) {id : EndId}
    (hempty : ∀ meeting ∈ meetings, meeting.id ≠ id) :
    (machine.ledger log id).written = [] := by
  apply bytesAt_eq_nil
  intro parcel _ hend
  obtain ⟨connection, hconnection, hid⟩ := Option.map_eq_some_iff.mp hend
  have hmem : id ∈ machine.connections.map Connection.endId :=
    List.mem_map.mpr ⟨connection, List.mem_of_getElem? hconnection, hid⟩
  rw [hacquainted.ends] at hmem
  obtain ⟨meeting, hmeeting, hsame⟩ := List.mem_map.mp hmem
  exact hempty meeting hmeeting hsame

theorem Acquainted.received_sublist
    (hacquainted : machine.Acquainted log meetings) {meeting : Meeting}
    (hmem : meeting ∈ meetings) :
    (meeting.party.chunks log).flatten.Sublist (machine.ledger log meeting.id.peer).written := by
  have hseat := hacquainted.seats meeting hmem
  rw [← EndId.peer_peer meeting.id] at hseat
  rw [(hacquainted.owns meeting hmem).received_eq hacquainted.regular.sound hseat]
  have hclean := hacquainted.clean meeting.id.peer
  unfold Ledger.Clean at hclean
  rw [List.append_assoc] at hclean
  exact (List.sublist_append_left _ _).trans hclean

theorem party?_of_chunk?
    {party : Party} {record : Record} {chunk : Bytes} (hchunk : party.chunk? record = some chunk) :
    ∃ number, record.party? = some ⟨party.space, party.handle, number⟩ := by
  unfold Party.chunk? at hchunk
  split at hchunk
  · next pending data =>
      split at hchunk
      · next handle number haction =>
          split at hchunk
          · next hfits =>
              refine ⟨number, ?_⟩
              rw [← hfits.1, ← hfits.2]
              exact party?_of_receive haction
          · cases hchunk
      · cases hchunk
  · cases hchunk

theorem Acquainted.pairedOneToOne
    (hacquainted : machine.Acquainted log meetings) :
    PairedOneToOne ⟨machine, log⟩ meetings := by
  have hsound := hacquainted.regular.sound
  have hids := hacquainted.nodup_ids
  constructor
  · exact hacquainted.complete
  · intro socket
    exact (hacquainted.backlogs socket).isPrefix
  · exact hids
  · intro meeting hmem hside
    obtain ⟨other, hother, hid, hsocket⟩ := hacquainted.exists_caller hmem hside
    refine ⟨other, ⟨hother, hid, hsocket⟩, ?_⟩
    rintro another ⟨hanother, hsame, -⟩
    exact List.inj_on_of_nodup_map hids hanother hother (hsame.trans hid.symm)
  · exact hacquainted.handles
  · rintro first second ⟨meeting, hmem, other, hother, rfl, rfl, hid⟩
    refine ⟨other, hother, meeting, hmem, rfl, rfl, ?_⟩
    rw [hid, EndId.peer_peer]
  · rintro first second another ⟨meeting, hmem, other, hother, rfl, rfl, hid⟩
      ⟨same, hsame, peer, hpeer, hhandle, rfl, hpeerId⟩
    have hone := List.inj_on_of_nodup_map hacquainted.handles hsame hmem hhandle
    subst hone
    rw [List.inj_on_of_nodup_map hids hother hpeer (hid.trans hpeerId.symm)]
  · intro meeting hmem other hother hid
    have hwritten :=
      (hacquainted.owns other hother).written_eq hsound (hacquainted.seats other hother)
    rw [hwritten, hid]
    exact hacquainted.received_sublist hmem
  · intro meeting hmem hempty
    have hreceived := hacquainted.received_sublist hmem
    rw [hacquainted.written_of_empty hempty] at hreceived
    exact List.sublist_nil.mp hreceived
  · intro party hchunks
    obtain ⟨chunk, hchunk⟩ := List.exists_mem_of_ne_nil _ hchunks
    obtain ⟨record, hrecord, hview⟩ := List.mem_filterMap.mp hchunk
    obtain ⟨number, hparty⟩ := party?_of_chunk? hview
    obtain ⟨meeting, hmem, hsame⟩ := hacquainted.known _ (Appears.logged hrecord hparty)
    refine List.mem_map.mpr ⟨meeting, hmem, ?_⟩
    unfold Meeting.handle
    rw [hsame]

end Machine

namespace History

/-- However many runtimes, listeners, connects and accepts there are and in whatever order
they are started, carried out, given up and closed: the accepts and the connects that
succeed belong together one to one. -/
theorem accepts_pair_with_connects
    (tree : FileTree) (routed : Bool) (capacity : Nat) (configurations : List Configuration)
    (events : List Event) :
    let start : History := ⟨Machine.boot tree routed capacity configurations, []⟩
    PairedOneToOne (start.play events) (start.meetings events) := by
  intro start
  have hstart : start.machine.Acquainted start.log [] :=
    Machine.acquainted_boot tree routed capacity configurations
  exact (acquainted_play hstart events).pairedOneToOne

/-- Two accepts wait on one listener.  Of three connects the first one is closed before
anybody accepts it, and the third is not accepted. -/
example :
    let start : History := ⟨Machine.boot {} true 16 [{ bufferSize := 4 }, { bufferSize := 4 }], []⟩
    let events : List Event :=
      [.start 0 (.listen "127.0.0.1:80"), .start 1 (.connect "127.0.0.1:80"), .advance 0 0,
        .start 1 (.write ⟨3⟩ [7, 8]), .advance 1 2, .start 1 (.close ⟨3⟩),
        .start 1 (.connect "127.0.0.1:80"), .start 1 (.connect "127.0.0.1:80"), .advance 3 0,
        .advance 2 0, .start 0 (.accept ⟨3⟩), .start 0 (.accept ⟨3⟩), .advance 5 0, .advance 4 0,
        .start 0 (.read ⟨4⟩), .advance 6 4]
    (start.meetings events).map (fun meeting => (meeting.id, meeting.handle)) =
        [(⟨0, .caller⟩, (1, ⟨3⟩)), (⟨1, .caller⟩, (1, ⟨4⟩)), (⟨2, .caller⟩, (1, ⟨5⟩)),
          (⟨0, .answerer⟩, (0, ⟨4⟩)), (⟨1, .answerer⟩, (0, ⟨5⟩))] ∧
      Party.chunks ⟨0, ⟨4⟩, 3⟩ (start.play events).log = [[7, 8]] := by
  decide +kernel

end History

end ResourceHandles
