import ResourceHandles.Proofs.Machine.Draining

/-!
# Tickets and calls

A ticket belongs to one call for the whole run.  The log tells which call that is,
so it tells of every waiting action on which handle the call was made and how the
call is answered once that handle is closed.  The waiting actions stand in the order
of their tickets.
-/

namespace ResourceHandles

/-- What a call is answered with once its handle is closed. -/
def Call.closedReply : Call → Reply
  | .accept _ => .handle .invalid
  | .read _ => .bytes []
  | _ => .done

/-- What an action ends with once its resource is closed. -/
def Action.closedReply : Action → Reply
  | .accept _ => .handle .invalid
  | .readFile _ _ => .bytes []
  | .receive _ _ => .bytes []
  | _ => .done

/-- The connection that a lane is a half of. -/
def Lane.connection : Lane → Nat
  | .receiving number => number
  | .sending number => number

/-- An action is left of a call that found a resource. -/
structure Action.Serves (action : Action) (call : Call) (resource : Resource) : Prop where
  resource_eq : action.resource? = some resource
  reply_eq : action.closedReply = call.closedReply

theorem serves_of_actionOn?
    {call : Call} {found : Option Resource} {action : Action}
    (haction : call.actionOn? found = some action) :
    ∃ resource, found = some resource ∧ action.Serves call resource := by
  unfold Call.actionOn? at haction
  split at haction
  all_goals first | (cases haction; exact ⟨_, rfl, rfl, rfl⟩) | cases haction

theorem serves_of_leadsTo
    {call : Call} {found : Option Resource} {action : Action} {handle : Handle}
    (hleads : call.LeadsTo found action) (hhandle : call.handle? = some handle) :
    ∃ resource, found = some resource ∧ action.Serves call resource := by
  rcases hleads with ⟨hnone, -⟩ | hfits
  · rw [hnone] at hhandle
    cases hhandle
  · exact serves_of_actionOn? hfits

theorem serves_of_closingAction
    {resource : Resource} {action : Action} (handle : Handle)
    (haction : Machine.closingAction resource = some action) :
    action.Serves (.close handle) resource := by
  cases resource with
  | file number =>
      cases haction
      exact ⟨rfl, rfl⟩
  | listener number => cases haction
  | connection number =>
      cases haction
      exact ⟨rfl, rfl⟩

namespace Machine

/-! ## Where tickets come from -/

/-- An action waits under the ticket of another one, is about the same resource, and
would end in the same way. -/
structure Continues (later earlier : Pending) : Prop where
  ticket : later.ticket = earlier.ticket
  resource : later.action.resource? = earlier.action.resource?
  reply : later.action.closedReply = earlier.action.closedReply

theorem Continues.refl (pending : Pending) : Continues pending pending :=
  ⟨rfl, rfl, rfl⟩

variable {machine next : Machine} {log : List Record} {record : Record}

/-- What is left of an action stands for it. -/
theorem Performed.continues_rest
    {pending : Pending} {amount : Nat} {rest : Action}
    (hperformed :
      machine.Performed pending.space amount pending.action next (.continues rest)) :
    Continues { pending with action := rest } pending := by
  obtain ⟨handle, number, data, count, haction, hrest⟩ := hperformed.continues
  constructor
  · rfl
  · rw [haction, hrest]
    rfl
  · rw [haction, hrest]
    rfl

/-- The record of a call that was left waiting. -/
def LeftBy (machine : Machine) (record : Record) (pending : Pending) : Prop :=
  pending.ticket = machine.nextTicket ∧
    ∃ call, record =
        .started pending.space call (machine.found pending.space call)
          (.waiting machine.nextTicket) ∧
      ∀ handle, call.handle? = some handle →
        ∃ resource, machine.lookup pending.space handle = some resource ∧
          pending.action.Serves call resource

theorem found_of_handle?
    {call : Call} {handle : Handle} (hhandle : call.handle? = some handle) (space : Nat) :
    machine.found space call = machine.lookup space handle := by
  unfold found lookup
  rw [hhandle]
  rfl

/-- Every action that waits after a transition waited before, or was left by the call
of the transition. -/
theorem Transition.waited
    (hsound : machine.Sound) (htransition : machine.Transition record next)
    {pending : Pending} (hmem : pending ∈ next.pending) :
    (∃ earlier ∈ machine.pending, Continues pending earlier) ∨
      machine.LeftBy record pending := by
  cases htransition with
  | refused howner hfound hclose hreply => exact Or.inl ⟨pending, hmem, Continues.refl _⟩
  | @parked space call action howner hleads =>
      rcases List.mem_append.mp hmem with hold | hnew
      · exact Or.inl ⟨pending, hold, Continues.refl _⟩
      · rw [List.mem_singleton] at hnew
        subst hnew
        refine Or.inr ⟨rfl, call, rfl, ?_⟩
        intro handle hhandle
        obtain ⟨resource, hfound, hserves⟩ := serves_of_leadsTo hleads hhandle
        rw [found_of_handle? hhandle] at hfound
        exact ⟨resource, hfound, hserves⟩
  | performed howner hcall hfree hperform =>
      rw [(performed_of_perform hperform).pending.1] at hmem
      exact Or.inl ⟨pending, hmem, Continues.refl _⟩
  | closed howner hbound =>
      rw [(letGo_pending _ _).1, (unbind_frame _ _ _ _).2.1] at hmem
      exact Or.inl ⟨pending, hmem, Continues.refl _⟩
  | @closing space handle resource action howner hbound haction =>
      obtain ⟨-, hpending, hticket⟩ := machine.unbind_frame space handle resource
      rcases List.mem_append.mp hmem with hold | hnew
      · rw [hpending] at hold
        exact Or.inl ⟨pending, hold, Continues.refl _⟩
      · rw [List.mem_singleton, hticket] at hnew
        subst hnew
        refine Or.inr ⟨rfl, .close handle, ?_, ?_⟩
        · have hfound : machine.found space (.close handle) = some resource := hbound
          rw [hfound]
        · intro other hother
          cases hother
          exact ⟨resource, hbound, serves_of_closingAction handle haction⟩
  | finished hpending hturn hperform =>
      rw [forget_pending, (performed_of_perform hperform).pending.1] at hmem
      exact Or.inl ⟨pending, List.mem_of_mem_filter hmem, Continues.refl _⟩
  | @continued earlier amount performed rest hpending hturn hperform =>
      have hperformed := performed_of_perform hperform
      unfold Machine.replace at hmem
      rw [hperformed.pending.1] at hmem
      obtain ⟨other, hother, hreplaced⟩ := List.mem_map.mp hmem
      split at hreplaced
      · next hticket =>
          have hsame := hsound.waiting.eq_of_ticket hother (mem_of_pending? hpending) hticket
          subst hsame
          refine Or.inl ⟨other, hother, ?_⟩
          rw [← hreplaced]
          exact hperformed.continues_rest
      · subst hreplaced
        exact Or.inl ⟨other, hother, Continues.refl _⟩
  | abandoned hpending =>
      rw [forget_pending] at hmem
      exact Or.inl ⟨pending, List.mem_of_mem_filter hmem, Continues.refl _⟩
  | exhausted _ => exact Or.inl ⟨pending, hmem, Continues.refl _⟩

theorem mem_forget
    {pending other : Pending} (hmem : pending ∈ machine.pending)
    (hticket : pending.ticket ≠ other.ticket) :
    pending ∈ (machine.forget other).pending := by
  rw [forget_pending, List.mem_filter]
  exact ⟨hmem, by simpa using hticket⟩

/-- Every action that waits before a transition waits on, or its record says what became
of it. -/
theorem Transition.leaves
    (hsound : machine.Sound) (htransition : machine.Transition record next)
    {pending : Pending} (hmem : pending ∈ machine.pending) :
    (∃ later ∈ next.pending, Continues later pending) ∨
      (∃ reply, record = .advanced pending (some reply)) ∨ record = .abandoned pending := by
  have hticket :
      ∀ {other : Pending}, machine.pending? other.ticket = some other → pending ≠ other →
        pending.ticket ≠ other.ticket := by
    intro other hother hne hsame
    exact hne (hsound.waiting.eq_of_ticket hmem (mem_of_pending? hother) hsame)
  cases htransition with
  | refused howner hfound hclose hreply => exact Or.inl ⟨pending, hmem, Continues.refl _⟩
  | parked howner hleads =>
      exact Or.inl ⟨pending, List.mem_append_left _ hmem, Continues.refl _⟩
  | performed howner hcall hfree hperform =>
      rw [← (performed_of_perform hperform).pending.1] at hmem
      exact Or.inl ⟨pending, hmem, Continues.refl _⟩
  | closed howner hbound =>
      rw [← (unbind_frame _ _ _ _).2.1, ← (letGo_pending _ _).1] at hmem
      exact Or.inl ⟨pending, hmem, Continues.refl _⟩
  | closing howner hbound haction =>
      rw [← (unbind_frame _ _ _ _).2.1] at hmem
      exact Or.inl ⟨pending, List.mem_append_left _ hmem, Continues.refl _⟩
  | @finished other amount performed reply hpending hturn hperform =>
      by_cases hsame : pending = other
      · subst hsame
        exact Or.inr (Or.inl ⟨reply, rfl⟩)
      · rw [← (performed_of_perform hperform).pending.1] at hmem
        exact Or.inl ⟨pending, mem_forget hmem (hticket hpending hsame), Continues.refl _⟩
  | @continued other amount performed rest hpending hturn hperform =>
      have hperformed := performed_of_perform hperform
      rw [← hperformed.pending.1] at hmem
      have hmapped := List.mem_map_of_mem
        (f := fun pending : Pending =>
          if pending.ticket = other.ticket then { pending with action := rest } else pending)
        hmem
      left
      by_cases hsame : pending = other
      · subst hsame
        refine ⟨{ pending with action := rest }, ?_, hperformed.continues_rest⟩
        simpa [Machine.replace] using hmapped
      · refine ⟨pending, ?_, Continues.refl _⟩
        simpa [Machine.replace, hticket hpending hsame] using hmapped
  | @abandoned other hpending =>
      by_cases hsame : pending = other
      · subst hsame
        exact Or.inr (Or.inr rfl)
      · exact Or.inl ⟨pending, mem_forget hmem (hticket hpending hsame), Continues.refl _⟩
  | exhausted _ => exact Or.inl ⟨pending, hmem, Continues.refl _⟩

theorem nextTicket_park_unbind
    (machine : Machine) (space : Nat) (handle : Handle) (resource : Resource) (action : Action) :
    ((machine.unbind space handle resource).park space action).1.nextTicket =
      machine.nextTicket + 1 :=
  congrArg Nat.succ (machine.unbind_frame space handle resource).2.2

theorem Change.nextTicket_le (hchange : machine.Change next) :
    machine.nextTicket ≤ next.nextTicket := by
  cases hchange with
  | same => exact Nat.le_refl _
  | parked hleads => exact Nat.le_succ _
  | performed hfree hperform => exact (performed_of_perform hperform).pending.2.ge
  | closed hbound => rw [(letGo_pending _ _).2, (unbind_frame _ _ _ _).2.2]
  | closing hbound haction =>
      rw [nextTicket_park_unbind]
      exact Nat.le_succ _
  | finished hpending hperform =>
      rw [forget_nextTicket]
      exact (performed_of_perform hperform).pending.2.ge
  | continued hpending hperform => exact (performed_of_perform hperform).pending.2.ge
  | abandoned hpending => rw [forget_nextTicket]
  | exhausted _ => exact Nat.le_refl _

theorem Transition.nextTicket_le
    (htransition : machine.Transition record next) :
    machine.nextTicket ≤ next.nextTicket :=
  htransition.change.nextTicket_le

/-- A ticket is used up by the call that is left under it. -/
theorem Transition.nextTicket_of_waiting
    {space ticket : Nat} {call : Call} {found : Option Resource}
    (htransition : machine.Transition record next)
    (hrecord : record = .started space call found (.waiting ticket)) :
    ticket = machine.nextTicket ∧ next.nextTicket = machine.nextTicket + 1 := by
  cases htransition with
  | parked howner hleads =>
      cases hrecord
      exact ⟨rfl, rfl⟩
  | closing howner hbound haction =>
      cases hrecord
      exact ⟨rfl, nextTicket_park_unbind _ _ _ _ _⟩
  | _ => cases hrecord

/-- A call is left waiting only if its handle is bound. -/
theorem Transition.lookup_of_waiting
    {space ticket : Nat} {call : Call} {found : Option Resource} {handle : Handle}
    (htransition : machine.Transition record next)
    (hrecord : record = .started space call found (.waiting ticket))
    (hhandle : call.handle? = some handle) :
    ∃ resource, machine.lookup space handle = some resource := by
  cases htransition with
  | parked howner hleads =>
      cases hrecord
      obtain ⟨resource, hfound, -⟩ := serves_of_leadsTo hleads hhandle
      rw [found_of_handle? hhandle] at hfound
      exact ⟨resource, hfound⟩
  | closing howner hbound haction =>
      cases hrecord
      cases hhandle
      exact ⟨_, hbound⟩
  | _ => cases hrecord

/-! ## The order of tickets -/

/-- The tickets of the waiting actions. -/
def tickets (machine : Machine) : List Nat :=
  machine.pending.map Pending.ticket

theorem tickets_forget (machine : Machine) (pending : Pending) :
    (machine.forget pending).tickets.Sublist machine.tickets := by
  unfold tickets
  rw [forget_pending]
  exact List.filter_sublist.map Pending.ticket

theorem tickets_replace (machine : Machine) (ticket : Nat) (action : Action) :
    (machine.replace ticket action).tickets = machine.tickets := by
  unfold tickets replace
  rw [List.map_map]
  apply List.map_congr_left
  intro pending _
  simp only [Function.comp_apply]
  split
  · rfl
  · rfl

/-- A transition drops tickets or uses up a new one, which is added at the end. -/
theorem Transition.uses_ticket
    (htransition : machine.Transition record next) :
    next.tickets.Sublist machine.tickets ∨
      (next.tickets = machine.tickets ++ [machine.nextTicket] ∧
        next.nextTicket = machine.nextTicket + 1) := by
  have hperformed :
      ∀ {performed : Machine} {space amount : Nat} {action : Action} {progress : Progress},
        machine.perform space amount action = (performed, progress) →
          performed.tickets = machine.tickets := by
    intro performed space amount action progress hperform
    unfold Machine.tickets
    rw [(performed_of_perform hperform).pending.1]
  cases htransition with
  | refused howner hfound hclose hreply => exact Or.inl (List.Sublist.refl _)
  | parked howner hleads =>
      refine Or.inr ⟨?_, rfl⟩
      unfold Machine.tickets Machine.park
      rw [List.map_append]
      rfl
  | performed howner hcall hfree hperform =>
      rw [hperformed hperform]
      exact Or.inl (List.Sublist.refl _)
  | closed howner hbound =>
      left
      unfold Machine.tickets
      rw [(letGo_pending _ _).1, (unbind_frame _ _ _ _).2.1]
  | @closing space handle resource action howner hbound haction =>
      obtain ⟨-, hpending, hticket⟩ := machine.unbind_frame space handle resource
      refine Or.inr ⟨?_, machine.nextTicket_park_unbind space handle resource action⟩
      unfold Machine.tickets Machine.park
      rw [List.map_append, hpending, hticket]
      rfl
  | @finished pending amount performed reply hpending hturn hperform =>
      rw [← hperformed hperform]
      exact Or.inl (tickets_forget performed pending)
  | @continued pending amount performed rest hpending hturn hperform =>
      rw [tickets_replace, hperformed hperform]
      exact Or.inl (List.Sublist.refl _)
  | @abandoned pending hpending => exact Or.inl (tickets_forget machine pending)
  | exhausted _ => exact Or.inl (List.Sublist.refl _)

/-- A transition drops tickets or adds a new one at the end. -/
theorem Transition.tickets
    (htransition : machine.Transition record next) :
    next.tickets.Sublist machine.tickets ∨
      next.tickets = machine.tickets ++ [machine.nextTicket] :=
  htransition.uses_ticket.imp_right And.left

theorem TicketsOld.transition
    (hold : machine.TicketsOld) (htransition : machine.Transition record next) :
    next.TicketsOld := by
  intro pending hmem
  have hticket : pending.ticket ∈ next.tickets := List.mem_map_of_mem hmem
  have hbefore : ∀ ticket ∈ machine.tickets, ticket < machine.nextTicket := by
    intro ticket hused
    obtain ⟨other, hother, rfl⟩ := List.mem_map.mp hused
    exact hold other hother
  rcases htransition.uses_ticket with hdropped | ⟨hadded, hnext⟩
  · exact (hbefore _ (hdropped.subset hticket)).trans_le htransition.nextTicket_le
  · rw [hadded, List.mem_append, List.mem_singleton] at hticket
    rcases hticket with hused | hnew
    · have hlt := hbefore _ hused
      omega
    · omega

theorem Transition.tickets_ordered
    (hsound : machine.Sound) (htransition : machine.Transition record next)
    (hordered : machine.tickets.Pairwise (· < ·)) :
    next.tickets.Pairwise (· < ·) := by
  rcases htransition.tickets with hdropped | hadded
  · exact hordered.sublist hdropped
  · rw [hadded, List.pairwise_append]
    refine ⟨hordered, List.pairwise_singleton _ _, ?_⟩
    intro ticket hticket new hnew
    obtain ⟨pending, hmem, rfl⟩ := List.mem_map.mp hticket
    rw [List.mem_singleton] at hnew
    rw [hnew]
    exact hsound.waiting.ticketsOld pending hmem

theorem resource?_of_lane?
    {action : Action} {lane : Lane} (hlane : action.lane? = some lane) :
    action.resource? = some (.connection lane.connection) := by
  cases action with
  | receive handle connection =>
      cases hlane
      rfl
  | send handle connection data =>
      cases hlane
      rfl
  | endSending connection =>
      cases hlane
      rfl
  | _ => cases hlane

/-- An action is in turn if no older ticket is about the same resource. -/
theorem inTurn_of_oldest
    (hordered : machine.tickets.Pairwise (· < ·)) {pending : Pending}
    (hmem : pending ∈ machine.pending)
    (holdest :
      ∀ other ∈ machine.pending, other.action.resource? = pending.action.resource? →
        pending.ticket ≤ other.ticket) :
    machine.inTurn pending = true := by
  unfold inTurn
  split
  · rfl
  · next lane hlane =>
      split
      · rfl
      · next first hfind =>
          obtain ⟨hfirst, front, back, hsplit, hnone⟩ := List.find?_eq_some_iff_append.mp hfind
          rw [beq_iff_eq] at hfirst
          have hsame : first.action.resource? = pending.action.resource? := by
            rw [resource?_of_lane? hfirst, resource?_of_lane? hlane]
          have hle := holdest first (by rw [hsplit]; simp) hsame
          have hge : first.ticket ≤ pending.ticket := by
            rw [hsplit, List.mem_append, List.mem_cons] at hmem
            rcases hmem with hfront | rfl | hback
            · have hbefore := hnone pending hfront
              simp [hlane] at hbefore
            · exact Nat.le_refl _
            · unfold Machine.tickets at hordered
              rw [hsplit, List.map_append, List.pairwise_append, List.map_cons,
                List.pairwise_cons] at hordered
              exact (hordered.2.1.1 _ (List.mem_map_of_mem hback)).le
          rw [beq_iff_eq]
          exact Nat.le_antisymm hge hle

/-! ## The log and the waiting actions -/

/-- The log tells which call every waiting action is left of. -/
structure Traced (machine : Machine) (log : List Record) : Prop where
  ordered : machine.tickets.Pairwise (· < ·)
  ticketOld :
    ∀ space call found ticket,
      .started space call found (.waiting ticket) ∈ log → ticket < machine.nextTicket
  calls :
    ∀ space call handle found ticket,
      .started space call found (.waiting ticket) ∈ log → call.handle? = some handle →
        ∃ resource,
          handle.raw < (machine.space space).table.next ∧
            (∀ other, machine.lookup space handle = some other → other = resource) ∧
              ∀ pending ∈ machine.pending, pending.ticket = ticket →
                pending.action.Serves call resource

theorem traced_boot
    (tree : FileTree) (routed : Bool) (capacity : Nat) (configurations : List Configuration) :
    (boot tree routed capacity configurations).Traced [] := by
  constructor
  · exact List.Pairwise.nil
  · simp
  · simp

/-- An old handle that is bound was bound to the same resource before. -/
theorem Rebinds.lookup_old
    {connections : List Connection} (hrebinds : machine.Rebinds next.spaces connections)
    (htables : ∀ space, (machine.space space).table.WellFormed)
    {space : Nat} {handle : Handle} {resource : Resource}
    (hold : handle.raw < (machine.space space).table.next)
    (hlookup : next.lookup space handle = some resource) :
    machine.lookup space handle = some resource := by
  unfold Machine.lookup at hlookup ⊢
  rcases hrebinds.table space with hsame | ⟨added, hinserted⟩ | ⟨removed, hremoved⟩
  · rw [hsame] at hlookup
    exact hlookup
  · have hne : handle ≠ ⟨(machine.space space).table.next⟩ := by
      intro hnew
      rw [hnew] at hold
      exact lt_irrefl _ hold
    rw [hinserted, HandleTable.get?_insert_of_ne _ _ hne] at hlookup
    exact hlookup
  · rw [hremoved] at hlookup
    by_cases hself : handle = removed
    · subst hself
      rw [(htables space).get?_remove_self] at hlookup
      cases hlookup
    · rw [HandleTable.get?_remove_of_ne _ hself] at hlookup
      exact hlookup

theorem raw_lt_next_of_lookup
    (hsound : machine.BindingsSound) {space : Nat} {handle : Handle} {resource : Resource}
    (hlookup : machine.lookup space handle = some resource) :
    handle.raw < (machine.space space).table.next := by
  apply (hsound.tables space).lt_next
  rw [← HandleTable.get?_isSome_iff]
  unfold lookup at hlookup
  rw [hlookup]
  rfl

theorem Continues.serves
    {call : Call} {resource : Resource} {later earlier : Pending}
    (hcontinues : Continues later earlier) (hserves : earlier.action.Serves call resource) :
    later.action.Serves call resource := by
  constructor
  · rw [hcontinues.resource]
    exact hserves.resource_eq
  · rw [hcontinues.reply]
    exact hserves.reply_eq

theorem Traced.transition
    (htraced : machine.Traced log) (hsound : machine.Sound)
    (htransition : machine.Transition record next) :
    next.Traced (log ++ [record]) := by
  have hrebinds := htransition.rebinds
  have htables := hsound.bindings.tables
  constructor
  · exact htransition.tickets_ordered hsound htraced.ordered
  · intro space call found ticket hmem
    rw [List.mem_append, List.mem_singleton] at hmem
    rcases hmem with hold | hrecord
    · exact (htraced.ticketOld space call found ticket hold).trans_le htransition.nextTicket_le
    · obtain ⟨hticket, hnext⟩ := htransition.nextTicket_of_waiting hrecord.symm
      omega
  · intro space call handle found ticket hmem hhandle
    rw [List.mem_append, List.mem_singleton] at hmem
    rcases hmem with hold | hrecord
    · obtain ⟨resource, hraw, hlookup, hserves⟩ :=
        htraced.calls space call handle found ticket hold hhandle
      refine ⟨resource, hraw.trans_le (hrebinds.next_le space), ?_, ?_⟩
      · intro other hother
        exact hlookup other (hrebinds.lookup_old htables hraw hother)
      · intro pending hpending hticket
        rcases htransition.waited hsound hpending with ⟨earlier, hearlier, hcontinues⟩ | hleft
        · have hsame : earlier.ticket = ticket := hcontinues.ticket.symm.trans hticket
          exact hcontinues.serves (hserves earlier hearlier hsame)
        · have hlt := htraced.ticketOld space call found ticket hold
          have hfresh := hleft.1
          omega
    · -- The call of the transition: it found what its handle is bound to.
      obtain ⟨hticket, -⟩ := htransition.nextTicket_of_waiting hrecord.symm
      obtain ⟨resource, hlookup⟩ := htransition.lookup_of_waiting hrecord.symm hhandle
      have hraw := raw_lt_next_of_lookup hsound.bindings hlookup
      refine ⟨resource, hraw.trans_le (hrebinds.next_le space), ?_, ?_⟩
      · intro other hother
        have hbefore := hrebinds.lookup_old htables hraw hother
        rw [hlookup, Option.some.injEq] at hbefore
        exact hbefore.symm
      · intro pending hpending hsame
        rcases htransition.waited hsound hpending with
          ⟨earlier, hearlier, hcontinues⟩ | ⟨-, called, hcalled, hserves⟩
        · have hlt := hsound.waiting.ticketsOld earlier hearlier
          have hcontinued := hcontinues.ticket
          omega
        · rw [← hrecord] at hcalled
          simp only [Record.started.injEq] at hcalled
          obtain ⟨rfl, rfl, -, -⟩ := hcalled
          obtain ⟨other, hother, hotherServes⟩ := hserves handle hhandle
          rw [hlookup, Option.some.injEq] at hother
          subst hother
          exact hotherServes

end Machine

end ResourceHandles
