import ResourceHandles.Proofs.Machine.ByteStream
import ResourceHandles.Proofs.Machine.Tickets

/-!
# Concurrent writes

Any number of writes may wait on one connection.  They queue for its sending half in
the order in which they were started, and only the first of them is ever carried out,
part by part.  So what has left the sender is all the bytes of the writes that were
answered, and after them the beginning of one write that was not.

When the handle is closed the write at the front stops where it is, and nothing leaves
the sender any more.
-/

namespace ResourceHandles

/-! ## Writes -/

/-- A write with the ticket under which it waits. -/
structure Write where
  ticket : Nat
  data : Bytes
  deriving Repr, DecidableEq

/-- The write on a connection that a record tells of. -/
def Record.write? (number : Nat) : Record → Option Write
  | .started _ (.write _ data) (some (.connection other)) (.waiting ticket) =>
    if other = number then some ⟨ticket, data⟩ else none
  | _ => none

/-- What is left of a write on a connection. -/
def Pending.write? (number : Nat) (pending : Pending) : Option Write :=
  match pending.action with
  | .send _ other data => if other = number then some ⟨pending.ticket, data⟩ else none
  | _ => none

/-- The ticket of a call that is answered after it has waited. -/
def Record.answered? : Record → Option Nat
  | .advanced pending (some _) => some pending.ticket
  | _ => none

/-- The writes on a connection, in the order in which they were started. -/
def writesOn (number : Nat) (log : List Record) : List Write :=
  log.filterMap (Record.write? number)

/-- What is left of the first writes is what waits: of the one at the front perhaps
only the end, of the others everything. -/
inductive Remains : List Write → List Write → Prop where
  | nothing : Remains [] []
  | partly {ticket : Nat} {sent left : Bytes} {later : List Write} :
      Remains (⟨ticket, sent ++ left⟩ :: later) (⟨ticket, left⟩ :: later)

theorem Remains.refl (writes : List Write) : Remains writes writes := by
  cases writes with
  | nil => exact Remains.nothing
  | cons write later => exact @Remains.partly write.ticket [] write.data later

theorem Remains.append
    {writes left : List Write} (hremains : Remains writes left) (write : Write) :
    Remains (writes ++ [write]) (left ++ [write]) := by
  cases hremains with
  | nothing => exact Remains.refl [write]
  | partly => exact Remains.partly

theorem Remains.tickets
    {writes left : List Write} (hremains : Remains writes left) :
    writes.map Write.ticket = left.map Write.ticket := by
  cases hremains with
  | nothing => rfl
  | partly => rfl

/-- The bytes that are no longer there belong to the write at the front. -/
theorem Remains.exists_part
    {writes left : List Write} (hremains : Remains writes left) :
    ∃ part,
      part <+: (writes.map Write.data).headD [] ∧
        writes.flatMap Write.data = part ++ left.flatMap Write.data := by
  cases hremains with
  | nothing => exact ⟨[], List.nil_prefix, rfl⟩
  | @partly ticket sent left later =>
      refine ⟨sent, List.prefix_append _ _, ?_⟩
      rw [List.flatMap_cons, List.flatMap_cons, List.append_assoc]

namespace Machine

variable {machine next : Machine} {log : List Record} {record : Record} {number : Nat}

/-- What is left of the writes that wait on a connection. -/
def unsent (machine : Machine) (number : Nat) : List Write :=
  machine.pending.filterMap (Pending.write? number)

/-! ## One transition -/

/-- What a transition does to the writes on a connection. -/
inductive Writing (machine next : Machine) (record : Record) (number : Nat) : Prop where
  | quiet (hwrite : record.write? number = none)
      (hunsent : next.unsent number = machine.unsent number)
  | starts {write : Write} (hwrite : record.write? number = some write)
      (hunsent : next.unsent number = machine.unsent number ++ [write])
  | sends {ticket : Nat} {sent left : Bytes} {later : List Write}
      (hwrite : record.write? number = none)
      (hbefore : machine.unsent number = ⟨ticket, sent ++ left⟩ :: later)
      (hafter : next.unsent number = ⟨ticket, left⟩ :: later)
  | answers {write : Write} (hwrite : record.write? number = none)
      (hanswer : record.answered? = some write.ticket)
      (hunsent : machine.unsent number = write :: next.unsent number)
  | loses (hlost : record.lostSend? = some number)
      (hunsent : (next.unsent number).Sublist (machine.unsent number))

theorem write?_of_send
    {pending : Pending} {handle : Handle} {data : Bytes}
    (haction : pending.action = .send handle number data) :
    pending.write? number = some ⟨pending.ticket, data⟩ := by
  unfold Pending.write?
  rw [haction]
  exact if_pos rfl

theorem send_of_write?
    {pending : Pending} {write : Write} (hwrite : pending.write? number = some write) :
    ∃ handle, pending.action = .send handle number write.data ∧ write.ticket = pending.ticket := by
  unfold Pending.write? at hwrite
  split at hwrite
  · next handle other data haction =>
      split at hwrite
      · next hnumber =>
          cases hwrite
          subst hnumber
          exact ⟨handle, haction, rfl⟩
      · cases hwrite
  · cases hwrite

theorem write?_of_answered
    (space : Nat) (call : Call) (found : Option Resource) (reply : Reply) (number : Nat) :
    (Record.started space call found (.answered reply)).write? number = none := by
  unfold Record.write?
  split
  · next hrecord => cases hrecord
  · rfl

theorem write?_of_leadsTo
    {call : Call} {found : Option Resource} {action : Action}
    (hleads : call.LeadsTo found action) (space ticket number : Nat) :
    (⟨ticket, space, action⟩ : Pending).write? number =
      (Record.started space call found (.waiting ticket)).write? number := by
  rcases hleads with ⟨hcall, hfree⟩ | hfits
  · have hnone : (⟨ticket, space, action⟩ : Pending).write? number = none := by
      cases action with
      | send handle other data => cases hfree
      | _ => rfl
    rw [hnone]
    cases call with
    | write handle data => cases hcall
    | _ => rfl
  · unfold Call.actionOn? at hfits
    split at hfits
    all_goals first | (cases hfits; rfl) | cases hfits

theorem unsent_park
    (machine : Machine) (space : Nat) (action : Action) (number : Nat) :
    (machine.park space action).1.unsent number =
      machine.unsent number ++
        ((⟨machine.nextTicket, space, action⟩ : Pending).write? number).toList := by
  unfold unsent park
  rw [List.filterMap_append]
  cases hwrite : (⟨machine.nextTicket, space, action⟩ : Pending).write? number with
  | none => rw [List.filterMap_cons_none hwrite, List.filterMap_nil, Option.toList_none]
  | some write => rw [List.filterMap_cons_some hwrite, List.filterMap_nil, Option.toList_some]

theorem unsent_congr
    (hpending : next.pending = machine.pending) (number : Nat) :
    next.unsent number = machine.unsent number := by
  unfold unsent
  rw [hpending]

theorem unsent_of_filter
    (hsound : machine.WaitingSound none) {pending : Pending}
    (hpending : machine.pending? pending.ticket = some pending)
    (hforgotten :
      next.pending = machine.pending.filter fun other => other.ticket != pending.ticket)
    (hwrite : pending.write? number = none) :
    next.unsent number = machine.unsent number := by
  obtain ⟨before, after, hsplit, hfilter, -, -⟩ := hsound.split hpending
  unfold unsent
  rw [hforgotten, hfilter, hsplit, List.filterMap_append, List.filterMap_append,
    List.filterMap_cons_none hwrite]

/-- A write that is in turn is at the front of those that wait. -/
theorem unsent_inTurn
    (hsound : machine.WaitingSound none) {pending : Pending}
    (hpending : machine.pending? pending.ticket = some pending)
    (hturn : machine.inTurn pending = true) {write : Write}
    (hwrite : pending.write? number = some write) :
    ∃ later,
      machine.unsent number = write :: later ∧
        (machine.pending.filter fun other => other.ticket != pending.ticket).filterMap
            (Pending.write? number) = later ∧
        ∀ handle left,
          (machine.replace pending.ticket (.send handle number left)).unsent number =
            ⟨write.ticket, left⟩ :: later := by
  obtain ⟨handle, haction, hticket⟩ := send_of_write? hwrite
  obtain ⟨before, after, hsplit, hfilter, hreplace, hfirst⟩ := hsound.split hpending
  have hlane : pending.action.lane? = some (.sending number) := by
    rw [haction]
    rfl
  have hbefore : before.filterMap (Pending.write? number) = [] := by
    rw [List.filterMap_eq_nil_iff]
    intro other hother
    cases hsome : other.write? number with
    | none => rfl
    | some earlier =>
        obtain ⟨otherHandle, hotherAction, -⟩ := send_of_write? hsome
        apply absurd _ (hfirst hturn _ hlane other hother)
        rw [hotherAction]
        rfl
  refine ⟨after.filterMap (Pending.write? number), ?_, ?_, ?_⟩
  · unfold unsent
    rw [hsplit, List.filterMap_append, hbefore, List.filterMap_cons_some hwrite, List.nil_append]
  · rw [hfilter, List.filterMap_append, hbefore, List.nil_append]
  · intro other left
    have hleft :
        ({ pending with action := .send other number left } : Pending).write? number =
          some ⟨write.ticket, left⟩ := by
      rw [hticket]
      exact write?_of_send rfl
    unfold unsent
    rw [hreplace, List.filterMap_append, hbefore, List.filterMap_cons_some hleft,
      List.nil_append]

theorem unsent_replace_of_ne
    (hsound : machine.WaitingSound none) {pending : Pending}
    (hpending : machine.pending? pending.ticket = some pending) {rest : Action}
    (hwrite : pending.write? number = none)
    (hrest : ({ pending with action := rest } : Pending).write? number = none) :
    (machine.replace pending.ticket rest).unsent number = machine.unsent number := by
  obtain ⟨before, after, hsplit, -, hreplace, -⟩ := hsound.split hpending
  unfold unsent
  rw [hreplace, hsplit, List.filterMap_append, List.filterMap_append,
    List.filterMap_cons_none hwrite, List.filterMap_cons_none hrest]

theorem writing_finished
    (hsound : machine.WaitingSound none) {pending : Pending} {reply : Reply}
    (hpending : machine.pending? pending.ticket = some pending)
    (hturn : machine.inTurn pending = true)
    (hforgotten :
      next.pending = machine.pending.filter fun other => other.ticket != pending.ticket)
    (number : Nat) :
    machine.Writing next (.advanced pending (some reply)) number := by
  cases hwrite : pending.write? number with
  | none => exact Writing.quiet rfl (unsent_of_filter hsound hpending hforgotten hwrite)
  | some write =>
      obtain ⟨later, hbefore, hafter, -⟩ := unsent_inTurn hsound hpending hturn hwrite
      obtain ⟨handle, -, hticket⟩ := send_of_write? hwrite
      have hnext : next.unsent number = later := by
        unfold unsent
        rw [hforgotten, hafter]
      have hanswer : (Record.advanced pending (some reply)).answered? = some write.ticket := by
        rw [hticket]
        rfl
      apply Writing.answers rfl hanswer
      rw [hnext]
      exact hbefore

theorem writing_continued
    (hsound : machine.WaitingSound none) {pending : Pending} {amount : Nat}
    {performed : Machine} {rest : Action}
    (hpending : machine.pending? pending.ticket = some pending)
    (hturn : machine.inTurn pending = true)
    (hperform :
      machine.perform pending.space amount pending.action = (performed, .continues rest))
    (number : Nat) :
    machine.Writing (performed.replace pending.ticket rest) (.advanced pending none) number := by
  have hperformed := performed_of_perform hperform
  have hunsent :
      (performed.replace pending.ticket rest).unsent number =
        (machine.replace pending.ticket rest).unsent number := by
    unfold unsent replace
    rw [hperformed.pending.1]
  generalize haction : pending.action = action at hperformed
  generalize hprogress : Progress.continues rest = progress at hperformed
  cases hperformed with
  | @sent handle other data connection network count hconnection hraised hsend =>
      have hrest : rest = .send handle other (data.drop count) := by
        split at hprogress
        · cases hprogress
        · cases hprogress
          rfl
      subst hrest
      by_cases hnumber : other = number
      · subst hnumber
        obtain ⟨later, hbefore, -, hafter⟩ :=
          unsent_inTurn hsound hpending hturn (write?_of_send haction)
        rw [← List.take_append_drop count data] at hbefore
        apply Writing.sends rfl hbefore
        rw [hunsent]
        exact hafter handle (data.drop count)
      · apply Writing.quiet rfl
        rw [hunsent]
        apply unsent_replace_of_ne hsound hpending
        · simp [Pending.write?, haction, hnumber]
        · simp [Pending.write?, hnumber]
  | _ => cases hprogress

/-- Every transition starts a write on a connection, sends a part of the first one that
waits there, answers that one, gives one up, or leaves the writes there alone. -/
theorem Transition.writing
    (htransition : machine.Transition record next) (hsound : machine.WaitingSound none)
    (number : Nat) :
    machine.Writing next record number := by
  cases htransition with
  | refused howner hfound hclose hreply => exact Writing.quiet (write?_of_answered _ _ _ _ _) rfl
  | @parked space call action howner hleads =>
      have hrecord := write?_of_leadsTo hleads space machine.nextTicket number
      have hunsent := machine.unsent_park space action number
      cases hwrite : (⟨machine.nextTicket, space, action⟩ : Pending).write? number with
      | none =>
          rw [hwrite, Option.toList_none, List.append_nil] at hunsent
          exact Writing.quiet (hrecord.symm.trans hwrite) hunsent
      | some write =>
          rw [hwrite, Option.toList_some] at hunsent
          exact Writing.starts (hrecord.symm.trans hwrite) hunsent
  | performed howner hcall hfree hperform =>
      apply Writing.quiet
      · exact write?_of_answered _ _ _ _ _
      · exact unsent_congr (performed_of_perform hperform).pending.1 number
  | closed howner hbound =>
      apply Writing.quiet rfl
      apply unsent_congr
      rw [(letGo_pending _ _).1, (unbind_frame _ _ _ _).2.1]
  | @closing space handle resource action howner hbound haction =>
      apply Writing.quiet rfl
      have hnone : ∀ ticket, (⟨ticket, space, action⟩ : Pending).write? number = none := by
        intro ticket
        rcases closingAction_cases haction with ⟨file, hfile⟩ | ⟨other, hend⟩
        · rw [hfile]
          rfl
        · rw [hend]
          rfl
      rw [unsent_park, hnone, Option.toList_none, List.append_nil]
      exact unsent_congr (machine.unbind_frame space handle resource).2.1 number
  | @finished pending amount performed reply hpending hturn hperform =>
      apply writing_finished hsound hpending hturn
      rw [forget_pending, (performed_of_perform hperform).pending.1]
  | continued hpending hturn hperform =>
      exact writing_continued hsound hpending hturn hperform number
  | @abandoned pending hpending =>
      cases hwrite : pending.write? number with
      | none =>
          apply Writing.quiet rfl
          exact unsent_of_filter hsound hpending (forget_pending machine pending) hwrite
      | some write =>
          obtain ⟨handle, haction, -⟩ := send_of_write? hwrite
          apply Writing.loses
          · simp [Record.lostSend?, haction]
          · unfold unsent
            rw [forget_pending]
            exact List.filter_sublist.filterMap _
  | exhausted _ => exact Writing.quiet rfl rfl

/-! ## Writes along a run -/

theorem Transition.answered?_gone
    (htransition : machine.Transition record next) (hsound : machine.WaitingSound none)
    {ticket : Nat} (hanswer : record.answered? = some ticket) :
    ticket < machine.nextTicket ∧ ticket ∉ next.tickets := by
  cases htransition with
  | @finished pending amount performed reply hpending hturn hperform =>
      cases hanswer
      refine ⟨hsound.ticketsOld pending (mem_of_pending? hpending), ?_⟩
      intro hmem
      obtain ⟨other, hother, hticket⟩ := List.mem_map.mp hmem
      rw [forget_pending] at hother
      simp [hticket] at hother
  | _ => cases hanswer

/-- Every write on a connection waits. -/
theorem Transition.written?_eq
    (htransition : machine.Transition record next) (number : Nat) :
    (record.written?.bind fun parcel => if parcel.1 = number then some parcel.2 else none) =
      (record.write? number).map Write.data := by
  cases htransition with
  | @refused space call reply howner hfound hclose hreply =>
      rw [write?_of_answered]
      cases call with
      | write handle data =>
          cases hresource : machine.found space (.write handle data) with
          | none => rfl
          | some resource =>
              rw [hresource] at hfound
              cases resource with
              | connection other => cases hfound
              | _ => rfl
      | _ => rfl
  | @parked space call action howner hleads =>
      cases call with
      | write handle data =>
          cases machine.found space (.write handle data) with
          | none => rfl
          | some resource =>
              cases resource with
              | connection other =>
                  by_cases hnumber : other = number
                  · simp [Record.written?, Record.write?, hnumber]
                  · simp [Record.written?, Record.write?, hnumber]
              | _ => rfl
      | _ => rfl
  | @performed space call action performed reply howner hcall hfree hperform =>
      rw [write?_of_answered]
      cases call with
      | write handle data => cases hcall
      | _ => rfl
  | _ => rfl

/-- The writes on a connection are answered in the order in which they were started,
and those that are not answered wait. -/
structure WritesInOrder (machine : Machine) (log : List Record) (number : Nat) : Prop where
  answersOld :
    ∀ ticket ∈ log.filterMap Record.answered?,
      ticket < machine.nextTicket ∧ ticket ∉ machine.tickets
  written :
    ∀ record ∈ log,
      (record.written?.bind fun parcel => if parcel.1 = number then some parcel.2 else none) =
        (record.write? number).map Write.data
  queued :
    number ∉ log.filterMap Record.lostSend? →
      ∃ finished rest,
        writesOn number log = finished ++ rest ∧
          (∀ write ∈ finished, write.ticket ∈ log.filterMap Record.answered?) ∧
          Remains rest (machine.unsent number)

theorem writesInOrder_boot
    (tree : FileTree) (routed : Bool) (capacity : Nat) (configurations : List Configuration)
    (number : Nat) :
    (boot tree routed capacity configurations).WritesInOrder [] number := by
  constructor
  · simp
  · simp
  · intro _
    exact ⟨[], [], rfl, by simp, Remains.nothing⟩

theorem WritesInOrder.transition
    (hordered : machine.WritesInOrder log number) (hsound : machine.Sound)
    (htransition : machine.Transition record next) :
    next.WritesInOrder (log ++ [record]) number := by
  have hnextTicket := htransition.nextTicket_le
  constructor
  · intro ticket hmem
    rw [filterMap_snoc, List.mem_append, Option.mem_toList] at hmem
    rcases hmem with hold | hnew
    · obtain ⟨hlt, hgone⟩ := hordered.answersOld ticket hold
      refine ⟨hlt.trans_le hnextTicket, ?_⟩
      intro hback
      rcases htransition.tickets with hdropped | hadded
      · exact hgone (hdropped.subset hback)
      · rw [hadded, List.mem_append, List.mem_singleton] at hback
        rcases hback with hstill | hfresh
        · exact hgone hstill
        · omega
    · obtain ⟨hlt, hgone⟩ := htransition.answered?_gone hsound.waiting hnew
      exact ⟨hlt.trans_le hnextTicket, hgone⟩
  · intro other hmem
    rw [List.mem_append, List.mem_singleton] at hmem
    rcases hmem with hold | rfl
    · exact hordered.written other hold
    · exact htransition.written?_eq number
  · intro hkept
    unfold writesOn
    rw [filterMap_snoc, List.mem_append, not_or] at hkept
    obtain ⟨finished, rest, hwrites, hfinished, hremains⟩ := hordered.queued hkept.1
    unfold writesOn at hwrites
    have hstill :
        ∀ write ∈ finished, write.ticket ∈ (log ++ [record]).filterMap Record.answered? := by
      intro write hmem
      rw [filterMap_snoc]
      exact List.mem_append_left _ (hfinished write hmem)
    rw [filterMap_snoc, hwrites]
    cases htransition.writing hsound.waiting number with
    | quiet hwrite hunsent =>
        refine ⟨finished, rest, ?_, hstill, ?_⟩
        · rw [hwrite, Option.toList_none, List.append_nil]
        · rw [hunsent]
          exact hremains
    | @starts write hwrite hunsent =>
        refine ⟨finished, rest ++ [write], ?_, hstill, ?_⟩
        · rw [hwrite, Option.toList_some, List.append_assoc]
        · rw [hunsent]
          exact hremains.append write
    | @sends ticket sent left later hwrite hbefore hafter =>
        refine ⟨finished, rest, ?_, hstill, ?_⟩
        · rw [hwrite, Option.toList_none, List.append_nil]
        · rw [hbefore] at hremains
          rw [hafter]
          cases hremains with
          | @partly _ gone =>
              rw [← List.append_assoc]
              exact Remains.partly
    | @answers write hwrite hanswer hunsent =>
        rw [hunsent] at hremains
        cases hremains with
        | @partly ticket sent left later =>
            refine ⟨finished ++ [⟨ticket, sent ++ left⟩], next.unsent number, ?_, ?_, ?_⟩
            · rw [hwrite, Option.toList_none, List.append_nil, List.append_assoc]
              rfl
            · intro other hmem
              rw [List.mem_append, List.mem_singleton] at hmem
              rcases hmem with hold | rfl
              · exact hstill other hold
              · rw [filterMap_snoc, hanswer]
                simp
            · exact Remains.refl _
    | loses hlost hunsent =>
        rw [hlost] at hkept
        simp at hkept

/-! ## The bytes of the writes -/

/-- The bytes that wait at an end are those of the writes that wait. -/
theorem Sound.waiting_eq
    (hsound : machine.Sound) {id : EndId} (hend : endOf? machine.connections number = some id)
    (log : List Record) :
    (machine.ledger log id).waiting = (machine.unsent number).flatMap Write.data := by
  have hwaiting := hsound.flatten_of_number hend Pending.load? machine.pending
  have hviews :
      ∀ pending ∈ machine.pending,
        (pending.load?.bind fun parcel => if parcel.1 = number then some parcel.2 else none) =
          (pending.write? number).map Write.data := by
    intro pending _
    unfold Pending.load? Pending.write?
    cases pending.action with
    | send handle other data =>
        by_cases hnumber : other = number
        · simp [hnumber]
        · simp [hnumber]
    | _ => rfl
  rw [List.filterMap_congr hviews] at hwaiting
  unfold unsent
  rw [List.flatMap_def, List.map_filterMap]
  exact hwaiting.symm

/-- The bytes that were written at an end are those of the writes that were started. -/
theorem WritesInOrder.written_eq
    (hordered : machine.WritesInOrder log number) (hsound : machine.Sound) {id : EndId}
    (hend : endOf? machine.connections number = some id) :
    (machine.ledger log id).written = (writesOn number log).flatMap Write.data := by
  have hwritten := hsound.flatten_of_number hend Record.written? log
  rw [List.filterMap_congr hordered.written] at hwritten
  unfold writesOn
  rw [List.flatMap_def, List.map_filterMap]
  exact hwritten.symm

end Machine

/-! ## The writes of a party -/

namespace Party

/-- The write of a party that a record tells of. -/
def write? (party : Party) : Record → Option Write
  | .started space (.write handle data) (some (.connection _)) (.waiting ticket) =>
    if space = party.space ∧ handle = party.handle then some ⟨ticket, data⟩ else none
  | _ => none

/-- The writes of a party, in the order in which they were started. -/
def writes (party : Party) (log : List Record) : List Write :=
  log.filterMap party.write?

end Party

/-- A write is finished once it was answered. -/
def Write.IsFinished (write : Write) (log : List Record) : Prop :=
  write.ticket ∈ log.filterMap Record.answered?

/-- Bytes are those of all finished writes, one write after the other, and then the
beginning of one write that is not finished. -/
def Unmixed (log : List Record) (writes : List Write) (bytes : Bytes) : Prop :=
  ∃ finished rest part,
    writes = finished ++ rest ∧
      (∀ write ∈ finished, write.IsFinished log) ∧
        (∀ write ∈ rest, ¬write.IsFinished log) ∧
          bytes = finished.flatMap Write.data ++ part ∧
            part <+: (rest.map Write.data).headD []

namespace Machine

theorem Owns.writes_eq
    {machine : Machine} {log : List Record} {party : Party} (howns : machine.Owns log party) :
    party.writes log = writesOn party.number log := by
  unfold Party.writes writesOn
  apply List.filterMap_congr
  intro record hmem
  cases record with
  | started space call found result =>
      cases call with
      | write handle data =>
          cases found with
          | none => rfl
          | some resource =>
              cases resource with
              | connection number =>
                  have happears : machine.Appears log ⟨space, handle, number⟩ :=
                    Appears.logged hmem rfl
                  cases result with
                  | answered reply => rfl
                  | waiting ticket =>
                      simp [Party.write?, Record.write?, howns.handle_iff_number happears]
              | _ => rfl
      | _ => rfl
  | _ => rfl

variable {machine next : Machine} {log : List Record} {record : Record} {party : Party}
  {id : EndId}

/-- While both ends are open, what has left the sender is unmixed. -/
theorem WritesInOrder.unmixed
    (hordered : machine.WritesInOrder log party.number) (hregular : machine.Regular log)
    (hseated : machine.Seated log party id) (hopen : party.IsOpen machine)
    (hpeer : (machine.network.getEnd id.peer).isOpen = true)
    (hkept : ∀ record ∈ log, ¬party.GivesUpWriting record) :
    Unmixed log (party.writes log) (machine.ledger log id).carried := by
  have hsound := hregular.sound
  have hend := hseated.endOf?_eq
  have huninterrupted := hseated.owns.uninterrupted hsound hend hkept
  obtain ⟨connection, hconnection, rfl, -, hraised, -⟩ := hseated.of_isOpen hsound hopen
  have hflows := flows_of_sender hsound (List.mem_of_getElem? hconnection) hraised hpeer
  have hcomplete := (hregular.accounted.balanced _ huninterrupted).complete hflows
  have hwritten := hordered.written_eq hsound hend
  have hwaiting := hsound.waiting_eq hend log
  obtain ⟨finished, rest, hwrites, hfinished, hremains⟩ :=
    hordered.queued fun hlost => huninterrupted _ hlost hend
  obtain ⟨part, hpart, hrest⟩ := hremains.exists_part
  refine ⟨finished, rest, part, ?_, hfinished, ?_, ?_, hpart⟩
  · rw [hseated.owns.writes_eq, hwrites]
  · intro write hmem hanswered
    -- The tickets of the others are among those that wait.
    apply (hordered.answersOld _ hanswered).2
    have hticket : write.ticket ∈ (machine.unsent party.number).map Write.ticket := by
      rw [← hremains.tickets]
      exact List.mem_map_of_mem hmem
    obtain ⟨left, hleft, hsame⟩ := List.mem_map.mp hticket
    obtain ⟨pending, hpending, hload⟩ := List.mem_filterMap.mp hleft
    obtain ⟨handle, -, hpendingTicket⟩ := send_of_write? hload
    rw [← hsame, hpendingTicket]
    exact List.mem_map_of_mem hpending
  · have hequal :
        (machine.ledger log connection.endId).carried ++
            (machine.unsent party.number).flatMap Write.data =
          (finished.flatMap Write.data ++ part) ++
            (machine.unsent party.number).flatMap Write.data := by
      calc (machine.ledger log connection.endId).carried ++
              (machine.unsent party.number).flatMap Write.data
          = (machine.ledger log connection.endId).written := by rw [hcomplete, hwaiting]; rfl
        _ = (finished ++ rest).flatMap Write.data := by rw [hwritten, hwrites]
        _ = (finished.flatMap Write.data ++ part) ++
              (machine.unsent party.number).flatMap Write.data := by
            rw [List.flatMap_append, hrest, List.append_assoc]
    exact List.append_cancel_right hequal

/-- What has left the sender stays as it is if no action is carried out. -/
theorem Regular.carried_of_silent
    (hregular : machine.Regular log) (htransition : machine.Transition record next)
    (hsilent : ∀ pending reply, record ≠ .advanced pending reply) (id : EndId) :
    (next.ledger (log ++ [record]) id).carried = (machine.ledger log id).carried := by
  have hreceived : record.received? = none := by
    cases record with
    | advanced pending reply => exact absurd rfl (hsilent pending reply)
    | _ => rfl
  unfold Ledger.carried
  rw [ledger_snoc hregular.sound hregular.accounted.inRange htransition, hreceived,
    htransition.inbox_of_silent hregular.sound hsilent]
  simp only [Option.toList_none, bytesAt_nil, List.append_nil]
  rfl

/-- Nothing leaves a sender that is closed. -/
theorem Seated.carried_transition
    (hseated : machine.Seated log party id) (hregular : machine.Regular log)
    (hclosed : ¬party.IsOpen machine) (htransition : machine.Transition record next) :
    (next.ledger (log ++ [record]) id).carried = (machine.ledger log id).carried := by
  have hsender := hseated.not_hasSender hregular.sound hclosed
  cases hlost : record.lostSend? with
  | none =>
      have hstep : LedgerStep machine next log record id := by
        apply htransition.ledgerStep hregular.sound hregular.accounted.inRange
        intro number hsome
        rw [hlost] at hsome
        cases hsome
      exact Ledger.carried_eq_of_step hsender hstep
  | some number =>
      cases record with
      | abandoned pending => exact hregular.carried_of_silent htransition (by simp) id
      | _ => cases hlost

end Machine

namespace History

theorem writesInOrder_play
    (tree : FileTree) (routed : Bool) (capacity : Nat) (configurations : List Configuration)
    (events : List Event) (number : Nat) :
    let history := play ⟨Machine.boot tree routed capacity configurations, []⟩ events
    history.machine.Regular history.log ∧ history.machine.WritesInOrder history.log number := by
  apply play_invariant
    (P := fun machine log => machine.Regular log ∧ machine.WritesInOrder log number)
  · intro machine log record next hmachine htransition
    obtain ⟨hregular, hordered⟩ := hmachine
    exact
      ⟨hregular.transition htransition, hordered.transition hregular.sound htransition⟩
  · constructor
    · exact Machine.regular_boot tree routed capacity configurations
    · exact Machine.writesInOrder_boot tree routed capacity configurations number

variable {history : History} {party : Party} {id : EndId}

theorem carried_play
    (hregular : history.machine.Regular history.log)
    (hseated : history.machine.Seated history.log party id)
    (hclosed : ¬party.IsOpen history.machine) (events : List Event) :
    ((history.play events).machine.ledger (history.play events).log id).carried =
      (history.machine.ledger history.log id).carried := by
  have hall :
      (history.play events).machine.Regular (history.play events).log ∧
        (history.play events).machine.Seated (history.play events).log party id ∧
          ¬party.IsOpen (history.play events).machine ∧
            ((history.play events).machine.ledger (history.play events).log id).carried =
              (history.machine.ledger history.log id).carried := by
    apply play_invariant
      (P := fun machine log =>
        machine.Regular log ∧ machine.Seated log party id ∧ ¬party.IsOpen machine ∧
          (machine.ledger log id).carried = (history.machine.ledger history.log id).carried)
    · intro machine log record next hmachine htransition
      obtain ⟨hregular, hseated, hclosed, hcarried⟩ := hmachine
      refine ⟨hregular.transition htransition, ?_, ?_, ?_⟩
      · exact hseated.transition hregular.sound htransition
      · exact hseated.not_isOpen_transition hregular.sound htransition hclosed
      · rw [hseated.carried_transition hregular hclosed htransition, hcarried]
    · exact ⟨hregular, hseated, hclosed, rfl⟩
  exact hall.2.2.2

theorem not_givesUpWriting
    {log : List Record} (hkept : log.filterMap Record.lostSend? = []) (party : Party) :
    ∀ record ∈ log, ¬party.GivesUpWriting record := by
  intro record hmem hgivesUp
  obtain ⟨pending, number, data, rfl, -, haction⟩ := hgivesUp
  have hlost := List.filterMap_eq_nil_iff.mp hkept _ hmem
  simp [Record.lostSend?, haction] at hlost

theorem carried_close
    (hregular : history.machine.Regular history.log)
    (hseated : history.machine.Seated history.log party id) (hopen : party.IsOpen history.machine)
    (later : List Event) :
    let closed := history.play (.start party.space (.close party.handle) :: later)
    (closed.machine.ledger closed.log id).carried =
      (history.machine.ledger history.log id).carried := by
  have hstep :=
    history.machine.step?_start (Machine.lt_length_of_lookup hopen) (.close party.handle)
  have htransition := Machine.step?_transition hstep
  have hstart := hregular.carried_of_silent htransition (by simp) id
  have hnext := hregular.transition htransition
  have hseatedNext := hseated.transition hregular.sound htransition
  have hclosed := htransition.not_isOpen_of_close hregular.sound
  rw [play_cons, after_of_step? hstep]
  have hlater := @carried_play ⟨_, _⟩ party id hnext hseatedNext hclosed later
  exact hlater.trans hstart

/-- However many writes wait on a connection and however they are carried out, what has
left the sender while both ends are open is all the bytes of the finished writes and the
beginning of one more.  When the sender closes, it stays at that for ever. -/
theorem writes_never_mix
    (tree : FileTree) (routed : Bool) (capacity : Nat) (configurations : List Configuration)
    (events : List Event) :
    let history := play ⟨Machine.boot tree routed capacity configurations, []⟩ events
    ∀ (writer : Party) (id : EndId),
      writer.IsOpen history.machine →
      endOf? history.machine.connections writer.number = some id →
      (history.machine.network.getEnd id.peer).isOpen = true →
      (∀ record ∈ history.log, ¬writer.GivesUpWriting record) →
        Unmixed history.log (writer.writes history.log)
            (history.machine.ledger history.log id).carried ∧
          ∀ later,
            let closed := history.play (.start writer.space (.close writer.handle) :: later)
            (closed.machine.ledger closed.log id).carried =
              (history.machine.ledger history.log id).carried := by
  intro history writer id hopen hend hpeer hkept
  obtain ⟨hregular, hordered⟩ :=
    writesInOrder_play tree routed capacity configurations events writer.number
  have hseated : history.machine.Seated history.log writer id := hregular.seated hopen hend
  constructor
  · exact hordered.unmixed hregular hseated hopen hpeer hkept
  · exact carried_close hregular hseated hopen

/-- Two writes wait at the same time.  The first is sent in two parts, the second is cut
short after one byte when the handle is closed. -/
theorem crowded_writes_never_mix :
    let configurations : List Configuration := [{}, {}]
    let history :=
      play ⟨Machine.boot {} true 16 configurations, []⟩
        [.start 0 (.listen "127.0.0.1:80"), .start 1 (.connect "127.0.0.1:80"), .advance 0 0,
          .start 1 (.write ⟨3⟩ [1, 2, 3]), .start 1 (.write ⟨3⟩ [4, 5]), .advance 1 2,
          .advance 2 2, .advance 1 2, .advance 2 1]
    let closed :=
      history.play [.start 1 (.close ⟨3⟩), .advance 2 1, .start 1 (.write ⟨3⟩ [6])]
    Unmixed history.log [⟨1, [1, 2, 3]⟩, ⟨2, [4, 5]⟩]
        (history.machine.ledger history.log ⟨0, .caller⟩).carried ∧
      (history.machine.ledger history.log ⟨0, .caller⟩).carried = [1, 2, 3, 4] ∧
        (closed.machine.ledger closed.log ⟨0, .caller⟩).carried = [1, 2, 3, 4] := by
  intro configurations history closed
  have hnever :=
    writes_never_mix {} true 16 configurations
      [.start 0 (.listen "127.0.0.1:80"), .start 1 (.connect "127.0.0.1:80"), .advance 0 0,
        .start 1 (.write ⟨3⟩ [1, 2, 3]), .start 1 (.write ⟨3⟩ [4, 5]), .advance 1 2,
        .advance 2 2, .advance 1 2, .advance 2 1]
      ⟨1, ⟨3⟩, 0⟩ ⟨0, .caller⟩ (by decide +kernel +zetaReduce) (by decide +kernel +zetaReduce)
      (by decide +kernel +zetaReduce)
      (not_givesUpWriting (by decide +kernel +zetaReduce) _)
  have hwrites : Party.writes ⟨1, ⟨3⟩, 0⟩ history.log = [⟨1, [1, 2, 3]⟩, ⟨2, [4, 5]⟩] := by
    decide +kernel +zetaReduce
  have hcarried : (history.machine.ledger history.log ⟨0, .caller⟩).carried = [1, 2, 3, 4] := by
    decide +kernel +zetaReduce
  obtain ⟨hunmixed, hstays⟩ := hnever
  refine ⟨?_, hcarried, ?_⟩
  · rw [← hwrites]
    exact hunmixed
  · rw [← hcarried]
    exact hstays [.advance 2 1, .start 1 (.write ⟨3⟩ [6])]

end History

end ResourceHandles
