import ResourceHandles.Proofs.Machine.Traffic

/-!
# Parcels along a run

What one transition does to the ends of links, to the bytes that wait to be sent, and
to the parcels that the log tells of.
-/

namespace ResourceHandles

namespace Machine

/-! ## Ends along a run -/

/-- A transition stirs the network at most once, and then winds it further down. -/
theorem Transition.stirs
    {machine next : Machine} {record : Record}
    (htransition : machine.Transition record next) :
    ∃ moving middle, machine.network.Stirs moving middle ∧ middle.Winds next.network := by
  have hperformed :
      ∀ {space amount action performed progress},
        machine.perform space amount action = (performed, progress) →
          ∃ moving, machine.network.Stirs moving performed.network :=
    fun hperform => ⟨_, (performed_of_perform hperform).stirs⟩
  cases htransition with
  | refused howner hfound hclose hreply =>
      exact ⟨False, _, Network.Stirs.still rfl, Network.Winds.refl _⟩
  | parked howner hleads => exact ⟨False, _, Network.Stirs.still rfl, Network.Winds.refl _⟩
  | performed howner hcall hfree hperform =>
      obtain ⟨moving, hstirs⟩ := hperformed hperform
      exact ⟨moving, _, hstirs, Network.Winds.refl _⟩
  | @closed space handle resource howner hbound =>
      have hlinks := congrArg Network.links (machine.unbind_frame space handle resource).1
      exact ⟨False, _, Network.Stirs.still hlinks, letGo_winds _ _⟩
  | @closing space handle resource action howner hbound haction =>
      have hlinks := congrArg Network.links (machine.unbind_frame space handle resource).1
      exact ⟨False, _, Network.Stirs.still hlinks, Network.Winds.refl _⟩
  | finished hpending hturn hperform =>
      obtain ⟨moving, hstirs⟩ := hperformed hperform
      exact ⟨moving, _, hstirs, forget_winds _ _⟩
  | continued hpending hturn hperform =>
      obtain ⟨moving, hstirs⟩ := hperformed hperform
      exact ⟨moving, _, hstirs, Network.Winds.refl _⟩
  | abandoned hpending => exact ⟨False, _, Network.Stirs.still rfl, forget_winds _ _⟩
  | exhausted exhausted =>
      exact ⟨False, (machine.exhaust exhausted).network, Network.Stirs.still rfl,
        Network.Winds.refl _⟩

theorem Transition.isOpen
    {machine next : Machine} {record : Record}
    (htransition : machine.Transition record next) {id : EndId}
    (hlink : id.link < machine.network.links.length)
    (hopen : (next.network.getEnd id).isOpen = true) :
    (machine.network.getEnd id).isOpen = true := by
  obtain ⟨moving, middle, hstirs, hwinds⟩ := htransition.stirs
  rw [← hstirs.isOpen hlink]
  exact hwinds.isOpen id hopen

theorem Transition.ended_of_ended
    {machine next : Machine} {record : Record}
    (htransition : machine.Transition record next) {id : EndId}
    (hended : (machine.network.getEnd id).ended = true) :
    (next.network.getEnd id).ended = true := by
  obtain ⟨moving, middle, hstirs, hwinds⟩ := htransition.stirs
  exact hwinds.ended id (hstirs.ended hended)

theorem Transition.inbox_fresh
    {machine next : Machine} {record : Record}
    (htransition : machine.Transition record next) {id : EndId}
    (hmissing : machine.network.links.length ≤ id.link) :
    (next.network.getEnd id).inbox = [] := by
  obtain ⟨moving, middle, hstirs, hwinds⟩ := htransition.stirs
  rw [hwinds.inbox, hstirs.inbox_fresh hmissing]

theorem Transition.flows
    {machine next : Machine} {record : Record}
    (htransition : machine.Transition record next) {id : EndId}
    (hlink : id.link < machine.network.links.length) (hflows : next.Flows id) :
    machine.Flows id := by
  have hpeer : id.peer.link < machine.network.links.length := hlink
  constructor
  · exact htransition.isOpen hpeer hflows.1
  · intro connection hmem hend
    obtain ⟨number, hnumber⟩ := List.mem_iff_getElem?.mp hmem
    obtain ⟨later, hlater, hages⟩ := htransition.connections hnumber
    apply hages.raised
    apply hflows.2 later (List.mem_of_getElem? hlater)
    rw [hages.endId, hend]

/-! ## Waiting bytes -/

/-- A waiting action among the others, with what is left when it is removed or
replaced.  If it is in turn, nothing before it needs the same half of a connection. -/
theorem WaitingSound.split
    {machine : Machine} (hsound : machine.WaitingSound none) {pending : Pending}
    (hpending : machine.pending? pending.ticket = some pending) :
    ∃ before after,
      machine.pending = before ++ pending :: after ∧
        (machine.pending.filter fun other => other.ticket != pending.ticket) = before ++ after ∧
        (∀ action,
          (machine.replace pending.ticket action).pending =
            before ++ { pending with action := action } :: after) ∧
        (machine.inTurn pending = true →
          ∀ lane, pending.action.lane? = some lane →
            ∀ other ∈ before, other.action.lane? ≠ some lane) := by
  obtain ⟨before, after, hsplit⟩ := List.append_of_mem (mem_of_pending? hpending)
  have htickets := hsound.tickets
  rw [hsplit, List.map_append, List.map_cons, List.nodup_middle, List.nodup_cons] at htickets
  have hne :
      ∀ other ∈ before ++ after, other.ticket ≠ pending.ticket := by
    intro other hother hticket
    apply htickets.1
    rw [← hticket, ← List.map_append]
    exact List.mem_map_of_mem hother
  refine ⟨before, after, hsplit, ?_, ?_, ?_⟩
  · rw [hsplit, List.filter_append, List.filter_cons_of_neg (by simp)]
    rw [List.filter_eq_self.mpr, List.filter_eq_self.mpr]
    · intro other hother
      simpa using hne other (List.mem_append_right _ hother)
    · intro other hother
      simpa using hne other (List.mem_append_left _ hother)
  · intro action
    unfold Machine.replace
    simp only [hsplit, List.map_append, List.map_cons, if_true]
    have hkeep :
        ∀ others : List Pending, (∀ other ∈ others, other.ticket ≠ pending.ticket) →
          (others.map fun other =>
            if other.ticket = pending.ticket then { other with action := action } else other) =
              others := by
      intro others hothers
      conv_rhs => rw [← List.map_id others]
      apply List.map_congr_left
      intro other hother
      exact if_neg (hothers other hother)
    rw [hkeep before, hkeep after]
    · intro other hother
      exact hne other (List.mem_append_right _ hother)
    · intro other hother
      exact hne other (List.mem_append_left _ hother)
  · intro hturn lane hlane other hother hsame
    unfold inTurn at hturn
    rw [hlane, hsplit] at hturn
    simp only [List.find?_append] at hturn
    cases hfirst : before.find? fun other => other.action.lane? == some lane with
    | none =>
        have hnone := List.find?_eq_none.mp hfirst other hother
        rw [hsame] at hnone
        simp at hnone
    | some first =>
        simp only [hfirst, Option.some_or, beq_iff_eq] at hturn
        exact hne first (List.mem_append_left _ (List.mem_of_find?_eq_some hfirst)) hturn

theorem WaitingSound.load_lt
    {machine : Machine} (hsound : machine.WaitingSound none)
    {parcel : Nat × Bytes} (hmem : parcel ∈ machine.pending.filterMap Pending.load?) :
    parcel.1 < machine.connections.length := by
  obtain ⟨pending, hpending, hload⟩ := List.mem_filterMap.mp hmem
  unfold Pending.load? at hload
  split at hload
  · next handle number data haction =>
      cases hload
      apply hsound.inRange pending hpending
      rw [haction]
      rfl
  · cases hload

theorem bytesAt_forget
    {machine : Machine} (hsound : machine.WaitingSound none) {pending : Pending}
    (hpending : machine.pending? pending.ticket = some pending)
    {connections : List Connection} {id : EndId}
    (helsewhere :
      ∀ parcel, pending.load? = some parcel → endOf? connections parcel.1 = some id →
        parcel.2 = []) :
    bytesAt connections id
        ((machine.pending.filter fun other =>
          other.ticket != pending.ticket).filterMap Pending.load?) =
      bytesAt connections id (machine.pending.filterMap Pending.load?) := by
  obtain ⟨before, after, hsplit, hfilter, -, -⟩ := hsound.split hpending
  rw [hfilter, hsplit, List.filterMap_append, List.filterMap_append, bytesAt_append,
    bytesAt_append]
  cases hload : pending.load? with
  | none => rw [List.filterMap_cons_none hload]
  | some parcel =>
      rw [List.filterMap_cons_some hload, bytesAt_cons]
      by_cases hend : endOf? connections parcel.1 = some id
      · rw [if_pos hend, helsewhere parcel hload hend, List.nil_append]
      · rw [if_neg hend, List.nil_append]

/-- The load of a send that is in turn comes first at its end. -/
theorem bytesAt_inTurn
    {machine : Machine} (hsound : machine.Sound) {pending : Pending}
    (hpending : machine.pending? pending.ticket = some pending)
    (hturn : machine.inTurn pending = true)
    {handle : Handle} {number : Nat} {data : Bytes}
    (haction : pending.action = .send handle number data) {id : EndId}
    (hend : endOf? machine.connections number = some id) :
    ∃ rest,
      bytesAt machine.connections id (machine.pending.filterMap Pending.load?) = data ++ rest ∧
        bytesAt machine.connections id
          ((machine.pending.filter fun other =>
            other.ticket != pending.ticket).filterMap Pending.load?) = rest ∧
        ∀ left,
          bytesAt machine.connections id
            ((machine.replace pending.ticket (.send handle number left)).pending.filterMap
              Pending.load?) = left ++ rest := by
  obtain ⟨before, after, hsplit, hfilter, hreplace, hfirst⟩ := hsound.waiting.split hpending
  have hlane : pending.action.lane? = some (.sending number) := by
    rw [haction]
    rfl
  have hbefore :
      bytesAt machine.connections id (before.filterMap Pending.load?) = [] := by
    apply bytesAt_eq_nil
    intro parcel hmem hparcel
    obtain ⟨other, hother, hload⟩ := List.mem_filterMap.mp hmem
    apply hfirst hturn _ hlane other hother
    unfold Pending.load? at hload
    split at hload
    · next otherHandle otherNumber otherData hotherAction =>
        cases hload
        rw [hotherAction, eq_of_endOf? hsound hend hparcel]
        rfl
    · cases hload
  have hload :
      ∀ left, ({ pending with action := .send handle number left } : Pending).load? =
        some (number, left) := fun _ => rfl
  have hself : pending = { pending with action := .send handle number data } := by
    rw [← haction]
  refine ⟨bytesAt machine.connections id (after.filterMap Pending.load?), ?_, ?_, ?_⟩
  · rw [hsplit, hself, List.filterMap_append, List.filterMap_cons_some (hload data),
      bytesAt_append, hbefore, bytesAt_cons, if_pos hend, List.nil_append]
  · rw [hfilter, List.filterMap_append, bytesAt_append, hbefore, List.nil_append]
  · intro left
    rw [hreplace, List.filterMap_append, List.filterMap_cons_some (hload left), bytesAt_append,
      hbefore, bytesAt_cons, if_pos hend, List.nil_append]

theorem bytesAt_replace
    {machine : Machine} (hsound : machine.WaitingSound none) {pending : Pending}
    (hpending : machine.pending? pending.ticket = some pending)
    {handle : Handle} {number : Nat} {data : Bytes}
    (haction : pending.action = .send handle number data)
    {connections : List Connection} {id : EndId}
    (helsewhere : endOf? connections number ≠ some id) (left : Bytes) :
    bytesAt connections id
        ((machine.replace pending.ticket (.send handle number left)).pending.filterMap
          Pending.load?) =
      bytesAt connections id (machine.pending.filterMap Pending.load?) := by
  obtain ⟨before, after, hsplit, -, hreplace, -⟩ := hsound.split hpending
  have hload :
      ∀ left, ({ pending with action := .send handle number left } : Pending).load? =
        some (number, left) := fun _ => rfl
  have hself : pending = { pending with action := .send handle number data } := by
    rw [← haction]
  rw [hreplace, hsplit, List.filterMap_append, List.filterMap_append, bytesAt_append,
    bytesAt_append, List.filterMap_cons_some (hload left)]
  conv_rhs => rw [hself, List.filterMap_cons_some (hload data)]
  rw [bytesAt_cons, bytesAt_cons, if_neg helsewhere, if_neg helsewhere]

/-! ## Parcels in range -/

theorem Sound.written?_lt
    {machine : Machine} (hsound : machine.Sound) {space : Nat} {call : Call} {result : Started}
    {parcel : Nat × Bytes}
    (hwritten :
      (Record.started space call (machine.found space call) result).written? = some parcel) :
    parcel.1 < machine.connections.length := by
  unfold Record.written? at hwritten
  split at hwritten
  · next owner handle data number started hrecord =>
      cases hwritten
      simp only [Record.started.injEq] at hrecord
      obtain ⟨-, -, hfound, -⟩ := hrecord
      obtain ⟨other, -, hlookup⟩ := lookup_of_found hfound
      exact hsound.bindings.lt_length hlookup
  · cases hwritten

theorem Transition.written?_lt
    {machine next : Machine} {record : Record} (hsound : machine.Sound)
    (htransition : machine.Transition record next) {parcel : Nat × Bytes}
    (hwritten : record.written? = some parcel) :
    parcel.1 < machine.connections.length := by
  cases htransition with
  | refused howner hfound hclose hreply => exact hsound.written?_lt hwritten
  | parked howner hleads => exact hsound.written?_lt hwritten
  | performed howner hcall hfree hperform => exact hsound.written?_lt hwritten
  | _ => cases hwritten

theorem load?_of_leadsTo
    {call : Call} {found : Option Resource} {action : Action}
    (hleads : call.LeadsTo found action) (ticket space : Nat) (result : Started) :
    (⟨ticket, space, action⟩ : Pending).load? =
      (Record.started space call found result).written? := by
  rcases hleads with ⟨hcall, hfree⟩ | hfits
  · have hnone : (⟨ticket, space, action⟩ : Pending).load? = none := by
      unfold Pending.load?
      split
      · next handle number data haction =>
          simp only at haction
          rw [haction] at hfree
          cases hfree
      · rfl
    rw [hnone]
    cases call with
    | write handle data => cases hcall
    | _ => rfl
  · unfold Call.actionOn? at hfits
    split at hfits
    all_goals first | (cases hfits; rfl) | cases hfits

theorem Transition.load_lt
    {machine next : Machine} {record : Record} (hsound : machine.Sound)
    (htransition : machine.Transition record next) {parcel : Nat × Bytes}
    (hmem : parcel ∈ next.pending.filterMap Pending.load?) :
    parcel.1 < machine.connections.length := by
  obtain ⟨pending, hpending, hload⟩ := List.mem_filterMap.mp hmem
  cases htransition.origin hsound hpending with
  | waited hold => exact hsound.waiting.load_lt (List.mem_filterMap.mpr ⟨pending, hold, hload⟩)
  | @parked call hleads =>
      rw [show pending.load? = _ from load?_of_leadsTo hleads _ _ (.waiting 0)] at hload
      exact hsound.written?_lt hload
  | closing haction =>
      unfold Pending.load? at hload
      rcases closingAction_cases haction with ⟨file, hfile⟩ | ⟨number, hend⟩
      · rw [hfile] at hload
        cases hload
      · rw [hend] at hload
        cases hload
  | @continued earlier handle number count data hold hsend hrest =>
      subst hrest
      cases hload
      apply hsound.waiting.inRange earlier hold
      rw [hsend]
      rfl

theorem Transition.received?_lt
    {machine next : Machine} {record : Record} (hsound : machine.Sound)
    (htransition : machine.Transition record next) {parcel : Nat × Bytes}
    (hreceived : record.received? = some parcel) :
    parcel.1 < machine.connections.length := by
  have hpendings :
      ∀ {pending : Pending} {handle number},
        machine.pending? pending.ticket = some pending →
          pending.action = .receive handle number → number < machine.connections.length := by
    intro pending handle number hpending haction
    apply hsound.waiting.inRange pending (mem_of_pending? hpending)
    rw [haction]
    rfl
  cases htransition with
  | @finished pending amount performed reply hpending hturn hperform =>
      unfold Record.received? at hreceived
      split at hreceived
      · next other data hrecord =>
          cases hrecord
          split at hreceived
          · next handle number haction =>
              cases hreceived
              exact hpendings hpending haction
          · cases hreceived
      · cases hreceived
  | continued hpending hturn hperform => cases hreceived
  | abandoned hpending => cases hreceived
  | refused howner hfound hclose hreply => cases hreceived
  | parked howner hleads => cases hreceived
  | performed howner hcall hfree hperform => cases hreceived
  | closed howner hbound => cases hreceived
  | closing howner hbound haction => cases hreceived
  | exhausted _ => cases hreceived

theorem parcelsInRange_snoc
    {machine next : Machine} {log : List Record} {record : Record} (hsound : machine.Sound)
    (hrange : machine.ParcelsInRange log) (htransition : machine.Transition record next) :
    next.ParcelsInRange (log ++ [record]) := by
  have hlength := htransition.length_connections
  constructor
  · intro parcel hmem
    rw [filterMap_snoc, List.mem_append, Option.mem_toList] at hmem
    rcases hmem with hold | hnew
    · exact (hrange.written parcel hold).trans_le hlength
    · exact (htransition.written?_lt hsound hnew).trans_le hlength
  · intro parcel hmem
    rw [filterMap_snoc, List.mem_append, Option.mem_toList] at hmem
    rcases hmem with hold | hnew
    · exact (hrange.received parcel hold).trans_le hlength
    · exact (htransition.received?_lt hsound hnew).trans_le hlength

theorem ledger_snoc
    {machine next : Machine} {log : List Record} {record : Record} (hsound : machine.Sound)
    (hrange : machine.ParcelsInRange log) (htransition : machine.Transition record next)
    (id : EndId) :
    next.ledger (log ++ [record]) id =
      ⟨(machine.ledger log id).written ++
          bytesAt machine.connections id record.written?.toList,
        (machine.ledger log id).received ++
          bytesAt machine.connections id.peer record.received?.toList,
        (next.network.getEnd id.peer).inbox,
        bytesAt next.connections id (next.pending.filterMap Pending.load?)⟩ := by
  have hwritten :
      bytesAt next.connections id ((log ++ [record]).filterMap Record.written?) =
        bytesAt machine.connections id ((log ++ [record]).filterMap Record.written?) := by
    apply bytesAt_congr
    intro parcel hmem
    apply htransition.endOf?_eq
    rw [filterMap_snoc, List.mem_append, Option.mem_toList] at hmem
    rcases hmem with hold | hnew
    · exact hrange.written parcel hold
    · exact htransition.written?_lt hsound hnew
  have hreceived :
      bytesAt next.connections id.peer ((log ++ [record]).filterMap Record.received?) =
        bytesAt machine.connections id.peer ((log ++ [record]).filterMap Record.received?) := by
    apply bytesAt_congr
    intro parcel hmem
    apply htransition.endOf?_eq
    rw [filterMap_snoc, List.mem_append, Option.mem_toList] at hmem
    rcases hmem with hold | hnew
    · exact hrange.received parcel hold
    · exact htransition.received?_lt hsound hnew
  unfold ledger
  rw [hwritten, hreceived, filterMap_snoc, filterMap_snoc, bytesAt_append, bytesAt_append]

end Machine

end ResourceHandles
