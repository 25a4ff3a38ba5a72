import ResourceHandles.Proofs.Machine.LifeCycle
import ResourceHandles.Proofs.Machine.Shut

/-!
# Winding up a handle

When a handle is closed, the calls that wait on it are wound up: each of them ends the
next time it is carried out, with the reply for a closed handle, and hands out nothing.
None of them waits for another party any more.  Those that queue for the same half of a
connection end in the order of their tickets, so a schedule that leaves out nobody who
can advance ends them all.
-/

namespace ResourceHandles

namespace Machine

variable {machine next : Machine} {log : List Record} {record : Record} {resource : Resource}

/-- What waits under a ticket can advance: it is in turn and not blocked. -/
def Ready (machine : Machine) (ticket : Nat) : Prop :=
  ∃ amount, (machine.advance? ticket amount).isSome = true

/-! ## A resource that winds up -/

/-- A sound machine on which a resource is shut. -/
structure Winding (machine : Machine) (resource : Resource) : Prop where
  sound : machine.Sound
  ordered : machine.tickets.Pairwise (· < ·)
  shut : machine.Shut resource

theorem Winding.transition
    (hwinding : machine.Winding resource) (htransition : machine.Transition record next) :
    next.Winding resource := by
  constructor
  · exact htransition.sound hwinding.sound
  · exact htransition.tickets_ordered hwinding.sound hwinding.ordered
  · exact htransition.shut hwinding.shut

/-- No action on a resource waits under a ticket below a bound. -/
def FreeBelow (machine : Machine) (resource : Resource) (bound : Nat) : Prop :=
  ∀ pending ∈ machine.pending,
    pending.action.resource? = some resource → bound ≤ pending.ticket

theorem FreeBelow.transition
    {bound : Nat} (hfree : machine.FreeBelow resource bound) (hbound : bound ≤ machine.nextTicket)
    (hsound : machine.Sound) (htransition : machine.Transition record next) :
    next.FreeBelow resource bound := by
  intro pending hmem haction
  rcases htransition.waited hsound hmem with ⟨earlier, hearlier, hcontinues⟩ | hleft
  · rw [hcontinues.ticket]
    rw [hcontinues.resource] at haction
    exact hfree earlier hearlier haction
  · rw [hleft.1]
    exact hbound

theorem FreeBelow.succ
    {bound : Nat} (hfree : machine.FreeBelow resource bound)
    (hnone :
      ∀ pending ∈ machine.pending,
        pending.action.resource? = some resource → pending.ticket ≠ bound) :
    machine.FreeBelow resource (bound + 1) := by
  intro pending hmem haction
  exact Nat.lt_of_le_of_ne (hfree pending hmem haction) (hnone pending hmem haction).symm

/-- The oldest action on a shut resource ends whenever it is carried out. -/
theorem Winding.step?_oldest
    (hwinding : machine.Winding resource) {pending : Pending}
    (hfree : machine.FreeBelow resource pending.ticket) (hmem : pending ∈ machine.pending)
    (haction : pending.action.resource? = some resource) (amount : Nat) :
    ∃ performed : Machine,
      machine.step? (.advance pending.ticket amount) =
          some (performed.forget pending,
            .advanced pending (some pending.action.closedReply)) ∧
        performed.pending = machine.pending := by
  have hturn : machine.inTurn pending = true := by
    apply inTurn_of_oldest hwinding.ordered hmem
    intro other hother hsame
    rw [haction] at hsame
    exact hfree other hother hsame
  exact step?_of_shut hwinding.sound hwinding.shut hmem haction hturn amount

theorem ready_of_step?
    {ticket amount : Nat} {result : Machine × Record}
    (hstep : machine.step? (.advance ticket amount) = some result) :
    machine.Ready ticket := by
  refine ⟨amount, ?_⟩
  simp only [step?] at hstep
  split at hstep
  · next hadvance =>
      rw [hadvance]
      rfl
  · cases hstep

/-- As long as an action waits on a shut resource, one of them can advance. -/
theorem Winding.exists_ready
    (hwinding : machine.Winding resource) {pending : Pending}
    (hmem : pending ∈ machine.pending) (haction : pending.action.resource? = some resource) :
    ∃ ticket, machine.Ready ticket := by
  classical
  have hsome :
      ∃ ticket, ∃ other ∈ machine.pending,
        other.action.resource? = some resource ∧ other.ticket = ticket :=
    ⟨pending.ticket, pending, hmem, haction, rfl⟩
  obtain ⟨oldest, holdest, hresource, hticket⟩ := Nat.find_spec hsome
  have hfree : machine.FreeBelow resource oldest.ticket := by
    intro other hother hsame
    rw [hticket]
    exact Nat.find_min' hsome ⟨other, hother, hsame, rfl⟩
  obtain ⟨performed, hstep, -⟩ := hwinding.step?_oldest hfree holdest hresource 0
  exact ⟨oldest.ticket, ready_of_step? hstep⟩

/-! ## A call that ends -/

/-- A call waits under a ticket on a resource that winds up, or has waited there. -/
structure Ending (machine : Machine) (resource : Resource) (ticket : Nat) (reply : Reply) :
    Prop where
  winding : machine.Winding resource
  ticketOld : ticket < machine.nextTicket
  serves :
    ∀ pending ∈ machine.pending, pending.ticket = ticket →
      pending.action.resource? = some resource ∧ pending.action.closedReply = reply

theorem Ending.transition
    {ticket : Nat} {reply : Reply} (hending : machine.Ending resource ticket reply)
    (htransition : machine.Transition record next) :
    next.Ending resource ticket reply := by
  constructor
  · exact hending.winding.transition htransition
  · exact hending.ticketOld.trans_le htransition.nextTicket_le
  · intro pending hmem hticket
    rcases htransition.waited hending.winding.sound hmem with
      ⟨earlier, hearlier, hcontinues⟩ | hleft
    · rw [hcontinues.resource, hcontinues.reply]
      exact hending.serves earlier hearlier (hcontinues.ticket.symm.trans hticket)
    · have hold := hending.ticketOld
      rw [← hticket, hleft.1] at hold
      exact absurd hold (lt_irrefl _)

/-- The call ends the next time it is carried out. -/
theorem Ending.ends
    {ticket amount : Nat} {reply : Reply} (hending : machine.Ending resource ticket reply)
    (hstep : machine.step? (.advance ticket amount) = some (next, record)) :
    (∃ pending, pending.ticket = ticket ∧ record = .advanced pending (some reply)) ∧
      next.spaces = machine.spaces := by
  simp only [step?] at hstep
  split at hstep
  · next pending advanced answer hpending hadvance =>
      cases hstep
      have hticket := pending?_ticket hpending
      obtain ⟨haction, hreply⟩ := hending.serves pending (mem_of_pending? hpending) hticket
      obtain ⟨performed, hperform, hspaces⟩ :=
        perform_of_shut hending.winding.shut haction pending.space amount
      simp only [advance?, hpending, hperform] at hadvance
      split at hadvance
      · cases hadvance
      · cases hadvance
        refine ⟨⟨pending, hticket, by rw [hreply]⟩, ?_⟩
        rw [spaces_forget]
        exact hspaces
  · cases hstep

end Machine

namespace History

variable {history : History} {resource : Resource}

/-! ## Schedules -/

/-- The history after the first events of a schedule. -/
def playUntil (history : History) (schedule : Nat → Event) (time : Nat) : History :=
  history.play ((List.range time).map schedule)

/-- A schedule leaves out nobody: what can advance is carried out, then or later. -/
def Fair (history : History) (schedule : Nat → Event) : Prop :=
  ∀ time ticket,
    (history.playUntil schedule time).machine.Ready ticket →
      ∃ later amount, time ≤ later ∧ schedule later = .advance ticket amount

/-- A call waits under a ticket. -/
def Waits (history : History) (ticket : Nat) : Prop :=
  ∃ pending ∈ history.machine.pending, pending.ticket = ticket

instance (history : History) (ticket : Nat) : Decidable (history.Waits ticket) :=
  inferInstanceAs (Decidable (∃ pending ∈ history.machine.pending, pending.ticket = ticket))

/-- The call under a ticket was answered. -/
def Answered (history : History) (ticket : Nat) (reply : Reply) : Prop :=
  ∃ pending, pending.ticket = ticket ∧ .advanced pending (some reply) ∈ history.log

theorem playUntil_succ (history : History) (schedule : Nat → Event) (time : Nat) :
    history.playUntil schedule (time + 1) =
      (history.playUntil schedule time).after (schedule time) := by
  unfold playUntil
  rw [List.range_succ, List.map_append, play_append]
  rfl

/-- What every transition preserves holds at all later times of a schedule. -/
theorem playUntil_invariant
    {P : Machine → Prop}
    (hstep :
      ∀ machine record next, P machine → machine.Transition record next → P next)
    {schedule : Nat → Event} {time later : Nat} (hle : time ≤ later)
    (hstart : P (history.playUntil schedule time).machine) :
    P (history.playUntil schedule later).machine := by
  induction later, hle using Nat.le_induction with
  | base => exact hstart
  | succ later _ ih =>
      rw [playUntil_succ]
      rcases (history.playUntil schedule later).after_cases (schedule later)
        with hskip | ⟨machine, record, hpossible, hafter⟩
      · rw [hskip]
        exact ih
      · rw [hafter]
        exact hstep _ record _ ih (Machine.step?_transition hpossible)

/-- A schedule that goes through all tickets again and again leaves out nobody. -/
theorem fair_roundRobin (history : History) :
    history.Fair fun time => .advance time.unpair.1 0 := by
  intro time ticket _
  exact ⟨Nat.pair ticket time, 0, Nat.right_le_pair ticket time, by simp⟩

/-! ## All calls on a shut resource end -/

theorem freeBelow_after
    {bound amount : Nat} (hwinding : history.machine.Winding resource)
    (hbound : bound < history.machine.nextTicket)
    (hfree : history.machine.FreeBelow resource bound) :
    (history.after (.advance bound amount)).machine.FreeBelow resource (bound + 1) := by
  by_cases hwaits :
      ∃ pending ∈ history.machine.pending,
        pending.action.resource? = some resource ∧ pending.ticket = bound
  · obtain ⟨pending, hmem, haction, rfl⟩ := hwaits
    obtain ⟨performed, hstep, hpending⟩ := hwinding.step?_oldest hfree hmem haction amount
    rw [after_of_step? hstep]
    intro other hother hsame
    rw [Machine.forget_pending, hpending] at hother
    obtain ⟨hold, hticket⟩ := List.mem_filter.mp hother
    have hle := hfree other hold hsame
    have hne : other.ticket ≠ pending.ticket := by simpa using hticket
    omega
  · have hnone : history.machine.FreeBelow resource (bound + 1) := by
      apply hfree.succ
      intro pending hmem haction hticket
      exact hwaits ⟨pending, hmem, haction, hticket⟩
    rcases history.after_cases (.advance bound amount)
      with hskip | ⟨machine, record, hpossible, hafter⟩
    · rw [hskip]
      exact hnone
    · rw [hafter]
      exact hnone.transition hbound hwinding.sound (Machine.step?_transition hpossible)

theorem winding_later
    {schedule : Nat → Event} {time later : Nat} (hle : time ≤ later)
    (hwinding : (history.playUntil schedule time).machine.Winding resource) :
    (history.playUntil schedule later).machine.Winding resource ∧
      (history.playUntil schedule time).machine.nextTicket ≤
        (history.playUntil schedule later).machine.nextTicket := by
  apply playUntil_invariant
    (P := fun machine =>
      machine.Winding resource ∧
        (history.playUntil schedule time).machine.nextTicket ≤ machine.nextTicket) _ hle
  · exact ⟨hwinding, Nat.le_refl _⟩
  · intro machine record next hmachine htransition
    exact ⟨hmachine.1.transition htransition, hmachine.2.trans htransition.nextTicket_le⟩

theorem freeBelow_later
    {schedule : Nat → Event} {bound time later : Nat} (hle : time ≤ later)
    (hwinding : (history.playUntil schedule time).machine.Winding resource)
    (hbound : bound ≤ (history.playUntil schedule time).machine.nextTicket)
    (hfree : (history.playUntil schedule time).machine.FreeBelow resource bound) :
    (history.playUntil schedule later).machine.FreeBelow resource bound := by
  have hall :
      (history.playUntil schedule later).machine.Sound ∧
        bound ≤ (history.playUntil schedule later).machine.nextTicket ∧
          (history.playUntil schedule later).machine.FreeBelow resource bound := by
    apply playUntil_invariant
      (P := fun machine =>
        machine.Sound ∧ bound ≤ machine.nextTicket ∧ machine.FreeBelow resource bound) _ hle
    · exact ⟨hwinding.sound, hbound, hfree⟩
    · rintro machine record next ⟨hsound, hold, hmachine⟩ htransition
      refine ⟨htransition.sound hsound, hold.trans htransition.nextTicket_le, ?_⟩
      exact hmachine.transition hold hsound htransition
  exact hall.2.2

/-- Under a fair schedule the tickets on a shut resource run out one after the other. -/
theorem Fair.exists_freeBelow
    {schedule : Nat → Event} (hfair : history.Fair schedule) {bound time : Nat}
    (hwinding : (history.playUntil schedule time).machine.Winding resource)
    (hbound : bound ≤ (history.playUntil schedule time).machine.nextTicket) :
    ∃ later, time ≤ later ∧
      (history.playUntil schedule later).machine.FreeBelow resource bound := by
  induction bound with
  | zero => exact ⟨time, Nat.le_refl _, fun _ _ _ => Nat.zero_le _⟩
  | succ bound ih =>
      obtain ⟨middle, hmiddle, hfree⟩ := ih (Nat.le_of_succ_le hbound)
      obtain ⟨hthere, hnext⟩ := winding_later hmiddle hwinding
      by_cases hclear :
          (history.playUntil schedule middle).machine.FreeBelow resource (bound + 1)
      · exact ⟨middle, hmiddle, hclear⟩
      · -- The oldest action is in turn from now on, so it is over once it was polled.
        obtain ⟨pending, hmem, haction, rfl⟩ :
            ∃ pending ∈ (history.playUntil schedule middle).machine.pending,
              pending.action.resource? = some resource ∧ pending.ticket = bound := by
          by_contra hnone
          apply hclear
          apply hfree.succ
          intro pending hmem haction hticket
          exact hnone ⟨pending, hmem, haction, hticket⟩
        obtain ⟨performed, hstep, -⟩ := hthere.step?_oldest hfree hmem haction 0
        obtain ⟨later, amount, hlater, hpolled⟩ :=
          hfair middle pending.ticket (Machine.ready_of_step? hstep)
        obtain ⟨hstill, hold⟩ := winding_later hlater hthere
        refine ⟨later + 1, by omega, ?_⟩
        rw [playUntil_succ, hpolled]
        apply freeBelow_after hstill (by omega)
        exact freeBelow_later hlater hthere (by omega) hfree

/-! ## What becomes of one call -/

/-- What becomes of a call that waits when its handle is closed, in every run that goes on
from there. -/
structure WoundUp (closed : History) (call : Call) (ticket : Nat) : Prop where
  /-- The next step of the call is its last one: it is answered as a call on a closed
  handle, and no handle is bound. -/
  ends :
    ∀ later amount next record,
      (closed.play later).machine.step? (.advance ticket amount) = some (next, record) →
        (∃ pending, pending.ticket = ticket ∧
            record = .advanced pending (some call.closedReply)) ∧
          next.spaces = (closed.play later).machine.spaces
  /-- It waits only as long as somebody can advance. -/
  settles :
    ∀ later,
      (∀ other, ¬(closed.play later).machine.Ready other) → ¬(closed.play later).Waits ticket
  /-- It is answered under every fair schedule, unless its caller gives it up. -/
  completes :
    ∀ schedule, closed.Fair schedule → (∀ time, schedule time ≠ .abandon ticket) →
      ∃ time, (closed.playUntil schedule time).Answered ticket call.closedReply

theorem ending_play
    {ticket : Nat} {reply : Reply} (hending : history.machine.Ending resource ticket reply)
    (events : List Event) :
    (history.play events).machine.Ending resource ticket reply := by
  apply play_invariant (P := fun machine _ => machine.Ending resource ticket reply)
  · intro machine log record next hmachine htransition
    exact hmachine.transition htransition
  · exact hending

/-- A call that is not given up waits until it was answered. -/
theorem waits_or_answered
    {ticket : Nat} {reply : Reply} {schedule : Nat → Event}
    (hending : history.machine.Ending resource ticket reply) (hwaits : history.Waits ticket)
    (hkept : ∀ time, schedule time ≠ .abandon ticket) (time : Nat) :
    (history.playUntil schedule time).Waits ticket ∨
      (history.playUntil schedule time).Answered ticket reply := by
  induction time with
  | zero => exact Or.inl hwaits
  | succ time ih =>
      have hthere := ending_play hending ((List.range time).map schedule)
      rw [playUntil_succ]
      rcases (history.playUntil schedule time).after_cases (schedule time)
        with hskip | ⟨machine, record, hpossible, hafter⟩
      · rw [hskip]
        exact ih
      · rw [hafter]
        rcases ih with ⟨pending, hmem, hticket⟩ | ⟨pending, hticket, hlogged⟩
        · rcases (Machine.step?_transition hpossible).leaves hthere.winding.sound hmem
            with ⟨later, hlater, hcontinues⟩ | ⟨answer, hrecord⟩ | hrecord
          · exact Or.inl ⟨later, hlater, hcontinues.ticket.trans hticket⟩
          · right
            subst hrecord
            obtain ⟨amount, hevent⟩ := Machine.event_of_advanced hpossible
            rw [hevent, hticket] at hpossible
            obtain ⟨⟨other, -, hother⟩, -⟩ := hthere.ends hpossible
            refine ⟨pending, hticket, ?_⟩
            cases hother
            exact List.mem_append_right _ (List.mem_singleton_self _)
          · subst hrecord
            have hevent := Machine.event_of_abandoned hpossible
            rw [hticket] at hevent
            exact absurd hevent (hkept time)
        · exact Or.inr ⟨pending, hticket, List.mem_append_left _ hlogged⟩

theorem woundUp_of_ending
    {call : Call} {ticket : Nat}
    (hending : history.machine.Ending resource ticket call.closedReply)
    (hwaits : history.Waits ticket) :
    history.WoundUp call ticket := by
  constructor
  · intro later amount next record hstep
    exact (ending_play hending later).ends hstep
  · rintro later hidle ⟨pending, hmem, hticket⟩
    have hthere := ending_play hending later
    obtain ⟨other, hready⟩ :=
      hthere.winding.exists_ready hmem (hthere.serves pending hmem hticket).1
    exact hidle other hready
  · intro schedule hfair hkept
    have hstart : (history.playUntil schedule 0).machine.Winding resource := hending.winding
    obtain ⟨later, -, hfree⟩ := hfair.exists_freeBelow hstart hending.ticketOld
    refine ⟨later, ?_⟩
    rcases waits_or_answered hending hwaits hkept later
      with ⟨pending, hmem, hticket⟩ | hanswered
    · have hthere := ending_play hending ((List.range later).map schedule)
      have hlt := hfree pending hmem (hthere.serves pending hmem hticket).1
      omega
    · exact hanswered

end History

namespace Machine

variable {machine next : Machine} {log : List Record} {space : Nat} {handle : Handle}
  {found : Option Resource} {result : Started} {resource : Resource}

/-- What holds of a machine and its log at every point of a run, as far as it tells which
call an action is left of. -/
structure Traceable (machine : Machine) (log : List Record) : Prop where
  sound : machine.Sound
  traced : machine.Traced log
  listeners : machine.ListenersBound

theorem traceable_boot
    (tree : FileTree) (routed : Bool) (capacity : Nat) (configurations : List Configuration) :
    (boot tree routed capacity configurations).Traceable [] := by
  constructor
  · exact sound_boot tree routed capacity configurations
  · exact traced_boot tree routed capacity configurations
  · exact listenersBound_boot tree routed capacity configurations

theorem Traceable.transition
    {record : Record} (htraceable : machine.Traceable log)
    (htransition : machine.Transition record next) :
    next.Traceable (log ++ [record]) := by
  obtain ⟨hsound, htraced, hlisteners⟩ := htraceable
  constructor
  · exact htransition.sound hsound
  · exact htraced.transition hsound htransition
  · exact hlisteners.transition hsound htransition

/-- A call on a handle that waits when the handle is closed is about to end. -/
theorem Traceable.ending_of_close
    (htraceable : machine.Traceable log)
    (htransition :
      machine.Transition (.started space (.close handle) found result) next)
    (hbound : machine.lookup space handle = some resource)
    (hsocket : ∀ number, resource ≠ .file number)
    {call : Call} {seen : Option Resource} {ticket : Nat}
    (hlogged : .started space call seen (.waiting ticket) ∈ log)
    (hhandle : call.handle? = some handle) :
    next.Ending resource ticket call.closedReply := by
  obtain ⟨hsound, htraced, hlisteners⟩ := htraceable
  obtain ⟨other, -, hlookup, hserves⟩ :=
    htraced.calls space call handle seen ticket hlogged hhandle
  obtain rfl := hlookup resource hbound
  have hold := htraced.ticketOld space call seen ticket hlogged
  constructor
  · constructor
    · exact htransition.sound hsound
    · exact htransition.tickets_ordered hsound htraced.ordered
    · exact (htransition.shut_of_close hsound hlisteners hbound hsocket).1
  · exact hold.trans_le htransition.nextTicket_le
  · intro pending hmem hticket
    rcases htransition.waited hsound hmem with ⟨earlier, hearlier, hcontinues⟩ | hleft
    · have hsame := hcontinues.serves
        (hserves earlier hearlier (hcontinues.ticket.symm.trans hticket))
      exact ⟨hsame.resource_eq, hsame.reply_eq⟩
    · rw [← hticket, hleft.1] at hold
      exact absurd hold (lt_irrefl _)

/-- A close that waits is about to end itself. -/
theorem Traceable.ending_close
    (htraceable : machine.Traceable log)
    (htransition :
      machine.Transition (.started space (.close handle) found result) next)
    (hbound : machine.lookup space handle = some resource)
    (hsocket : ∀ number, resource ≠ .file number) :
    result = .answered .done ∨
      ∃ pending ∈ next.pending, result = .waiting pending.ticket ∧
        next.Ending resource pending.ticket (Call.close handle).closedReply := by
  obtain ⟨hsound, htraced, hlisteners⟩ := htraceable
  have hnext := htransition.sound hsound
  obtain ⟨hshut, hdone | ⟨pending, hmem, hresult, hserves⟩⟩ :=
    htransition.shut_of_close hsound hlisteners hbound hsocket
  · exact Or.inl hdone
  · refine Or.inr ⟨pending, hmem, hresult, ?_⟩
    constructor
    · constructor
      · exact hnext
      · exact htransition.tickets_ordered hsound htraced.ordered
      · exact hshut
    · exact hnext.waiting.ticketsOld pending hmem
    · intro other hother hticket
      rw [hnext.waiting.eq_of_ticket hother hmem hticket]
      exact ⟨hserves.resource_eq, hserves.reply_eq⟩

end Machine

namespace History

theorem traceable_play
    (tree : FileTree) (routed : Bool) (capacity : Nat) (configurations : List Configuration)
    (events : List Event) :
    let history := play ⟨Machine.boot tree routed capacity configurations, []⟩ events
    history.machine.Traceable history.log := by
  apply play_invariant (P := Machine.Traceable)
  · intro machine log record next htraceable htransition
    exact htraceable.transition htransition
  · exact Machine.traceable_boot tree routed capacity configurations

/-- Whatever has happened and whatever happens next, closing the handle of a listener or
of a connection winds up every call that waits on the handle, and the close itself. -/
theorem close_winds_up
    (tree : FileTree) (routed : Bool) (capacity : Nat) (configurations : List Configuration)
    (earlier : List Event) (space : Nat) (handle : Handle)
    (hkind :
      let history := History.play ⟨Machine.boot tree routed capacity configurations, []⟩ earlier
      (history.machine.space space).table.classify handle = .listener ∨
        (history.machine.space space).table.classify handle = .connection) :
    let history := History.play ⟨Machine.boot tree routed capacity configurations, []⟩ earlier
    let closed := history.after (.start space (.close handle))
    (∃ found result,
        closed.log = history.log ++ [.started space (.close handle) found result] ∧
          (result = .answered .done ∨
            ∃ ticket, result = .waiting ticket ∧ closed.WoundUp (.close handle) ticket)) ∧
      ∀ call found ticket,
        .started space call found (.waiting ticket) ∈ history.log →
          call.handle? = some handle → history.Waits ticket → closed.WoundUp call ticket := by
  intro history closed
  have htraceable := traceable_play tree routed capacity configurations earlier
  obtain ⟨resource, hbound, hsocket⟩ :
      ∃ resource, history.machine.lookup space handle = some resource ∧
        ∀ number, resource ≠ .file number := by
    rcases hkind with hlistener | hconnection
    · obtain ⟨resource, hbound, hresource⟩ := Machine.get?_of_classify hlistener (by simp)
      refine ⟨resource, hbound, ?_⟩
      rintro number rfl
      cases hresource
    · obtain ⟨resource, hbound, hresource⟩ := Machine.get?_of_classify hconnection (by simp)
      refine ⟨resource, hbound, ?_⟩
      rintro number rfl
      cases hresource
  have hstep :=
    history.machine.step?_start (Machine.lt_length_of_lookup hbound) (.close handle)
  have htransition := Machine.step?_transition hstep
  have hclosed := after_of_step? hstep
  constructor
  · refine ⟨_, _, congrArg History.log hclosed, ?_⟩
    rcases htraceable.ending_close htransition hbound hsocket
      with hdone | ⟨pending, hmem, hresult, hending⟩
    · exact Or.inl hdone
    · refine Or.inr ⟨pending.ticket, hresult, ?_⟩
      show (history.after (.start space (.close handle))).WoundUp _ _
      rw [hclosed]
      exact woundUp_of_ending hending ⟨pending, hmem, rfl⟩
  · intro call found ticket hlogged hhandle hwaits
    have hending := htraceable.ending_of_close htransition hbound hsocket hlogged hhandle
    show (history.after (.start space (.close handle))).WoundUp _ _
    rw [hclosed]
    apply woundUp_of_ending hending
    obtain ⟨pending, hmem, hticket⟩ := hwaits
    rcases htransition.leaves htraceable.sound hmem
      with ⟨later, hlater, hcontinues⟩ | ⟨answer, hrecord⟩ | hrecord
    · exact ⟨later, hlater, hcontinues.ticket.trans hticket⟩
    · cases hrecord
    · cases hrecord

/-- Two reads, a write that is stuck halfway and a write behind it wait on a connection
when its handle is closed. -/
theorem crowded_close_winds_up :
    let configuration : Configuration := { mode := .deferred, bufferSize := 4 }
    let earlier : List Event :=
      [.start 0 (.listen "127.0.0.1:80"), .advance 0 0,
        .start 1 (.connect "127.0.0.1:80"), .advance 1 0,
        .start 0 (.accept ⟨3⟩), .advance 2 0,
        .start 0 (.read ⟨4⟩), .start 0 (.read ⟨4⟩),
        .start 0 (.write ⟨4⟩ [7, 8, 9]), .advance 5 2, .start 0 (.write ⟨4⟩ [6])]
    let history :=
      History.play ⟨Machine.boot {} true 2 [configuration, configuration], []⟩ earlier
    let closed := history.after (.start 0 (.close ⟨4⟩))
    (history.machine.space 0).table.classify ⟨4⟩ = .connection ∧
      closed.WoundUp (.read ⟨4⟩) 3 ∧ closed.WoundUp (.read ⟨4⟩) 4 ∧
        closed.WoundUp (.write ⟨4⟩ [7, 8, 9]) 5 ∧ closed.WoundUp (.write ⟨4⟩ [6]) 6 := by
  intro configuration earlier history closed
  have hkind : (history.machine.space 0).table.classify ⟨4⟩ = .connection := by
    decide +kernel +zetaReduce
  obtain ⟨-, hcalls⟩ :=
    close_winds_up {} true 2 [configuration, configuration] earlier 0 ⟨4⟩ (Or.inr hkind)
  refine ⟨hkind, ?_, ?_, ?_, ?_⟩
  · exact hcalls (.read ⟨4⟩) (some (.connection 1)) 3 (by decide +kernel +zetaReduce) rfl
      (by decide +kernel +zetaReduce)
  · exact hcalls (.read ⟨4⟩) (some (.connection 1)) 4 (by decide +kernel +zetaReduce) rfl
      (by decide +kernel +zetaReduce)
  · exact hcalls (.write ⟨4⟩ [7, 8, 9]) (some (.connection 1)) 5
      (by decide +kernel +zetaReduce) rfl (by decide +kernel +zetaReduce)
  · exact hcalls (.write ⟨4⟩ [6]) (some (.connection 1)) 6 (by decide +kernel +zetaReduce) rfl
      (by decide +kernel +zetaReduce)

end History

end ResourceHandles
