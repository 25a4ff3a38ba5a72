import ResourceHandles.Session.Task
import ResourceHandles.Proofs.Machine.Answers
import ResourceHandles.Proofs.Machine.LifeCycle
import ResourceHandles.Proofs.Machine.Tickets

/-!
# A task beside others

While a task runs on a handle space, others go on too: other tasks of the same runtime,
other runtimes, and whoever sits at the far ends of its connections.  What they do to the
machine is left open, but for two things that no one else has a hand in: the call that the
task waits for, and which handle comes next in the table of its space.

A step of the task starts a call, lets it go on, or takes its reply.  The handles that such
steps bind are noted; they are what the task has opened.
-/

namespace ResourceHandles

/-! ## Changes of a table -/

namespace Machine.TableChange

variable {table later : HandleTable Nat Nat Nat} {handed taken : Option Handle} {handle : Handle}

theorem wellFormed
    (hchange : TableChange table later handed taken) (htable : table.WellFormed) :
    later.WellFormed := by
  cases hchange with
  | same => exact htable
  | bound resource => exact htable.insert resource
  | unbound hbound => exact htable.remove _

theorem next_le (hchange : TableChange table later handed taken) : table.next ≤ later.next := by
  cases hchange with
  | same => exact le_rfl
  | bound resource =>
      rw [HandleTable.insert_next]
      omega
  | unbound hbound => rw [HandleTable.remove_next]

/-- A change leaves all handles alone but the one that it hands out and the one that it
takes. -/
theorem get?_eq
    (hchange : TableChange table later handed taken) (hhanded : handed ≠ some handle)
    (htaken : taken ≠ some handle) : later.get? handle = table.get? handle := by
  cases hchange with
  | same => rfl
  | bound resource =>
      apply HandleTable.get?_insert_of_ne
      rintro rfl
      exact hhanded rfl
  | unbound hbound =>
      apply HandleTable.get?_remove_of_ne
      rintro rfl
      exact htaken rfl

theorem handed_eq (hchange : TableChange table later (some handle) taken) :
    handle = ⟨table.next⟩ ∧ later.next = table.next + 1 := by
  cases hchange with
  | bound resource => exact ⟨rfl, HandleTable.insert_next table resource⟩

theorem get?_handed
    (hchange : TableChange table later (some handle) taken) (htable : table.WellFormed) :
    table.get? handle = none ∧ later.get? handle ≠ none := by
  cases hchange with
  | bound resource =>
      refine ⟨(HandleTable.get?_eq_none_iff _ _).mpr htable.next_notMem, ?_⟩
      rw [htable.get?_insert_self]
      exact Option.some_ne_none resource

theorem get?_taken
    (hchange : TableChange table later handed (some handle)) (htable : table.WellFormed) :
    later.get? handle = none := by
  cases hchange with
  | unbound hbound => exact htable.get?_remove_self handle

/-- A handle that was handed out before is bound after a change only if it was before. -/
theorem get?_of_older
    (hchange : TableChange table later handed taken) (htable : table.WellFormed)
    (holder : handle.raw < table.next) (hunbound : table.get? handle = none) :
    later.get? handle = none := by
  by_cases htaken : taken = some handle
  · subst htaken
    exact hchange.get?_taken htable
  · rw [hchange.get?_eq ?_ htaken]
    · exact hunbound
    · rintro rfl
      have hnext := congrArg Handle.raw hchange.handed_eq.1
      simp only at hnext
      omega

end Machine.TableChange

/-! ## A machine that a task can use -/

namespace Machine

/-- A handle space is there, no handle is bound twice in it, and no ticket is to be used
again. -/
structure Usable (machine : Machine) (space : Nat) : Prop where
  inRange : space < machine.spaces.length
  table : (machine.space space).table.WellFormed
  tickets : machine.TicketsOld

/-- The spaces of a machine that is in order can be used. -/
theorem Orderly.usable
    {machine : Machine} {space : Nat} (horderly : machine.Orderly)
    (hspace : space < machine.spaces.length) : machine.Usable space :=
  ⟨hspace, horderly.bindings.tables space, horderly.waiting.ticketsOld⟩

theorem Usable.transition
    {machine next : Machine} {space : Nat} {record : Record} (husable : machine.Usable space)
    (htransition : machine.Transition record next) : next.Usable space where
  inRange := by
    rw [htransition.length_spaces]
    exact husable.inRange
  table := (htransition.tableChange husable.inRange husable.table).wellFormed husable.table
  tickets := husable.tickets.transition htransition

/-- What others may do while a task runs on a space: whatever they like, with one handle of
that space at a time, which has to be a shared one, and without touching the call that the
task waits for. -/
structure Elsewhere
    (space : Nat) (shared : Set Handle) (waiting : Option Nat) (machine next : Machine) :
    Prop where
  inRange : space < next.spaces.length
  table :
    ∃ handed taken,
      TableChange (machine.space space).table (next.space space).table handed taken
  aside : ∀ handle, handle ∉ shared → next.lookup space handle = machine.lookup space handle
  tickets : next.TicketsOld
  call : ∀ ticket, waiting = some ticket → next.pending? ticket = machine.pending? ticket

theorem Usable.elsewhere
    {machine next : Machine} {space : Nat} {shared : Set Handle} {waiting : Option Nat}
    (husable : machine.Usable space)
    (helsewhere : Elsewhere space shared waiting machine next) : next.Usable space := by
  obtain ⟨handed, taken, hchange⟩ := helsewhere.table
  exact ⟨helsewhere.inRange, hchange.wellFormed husable.table, helsewhere.tickets⟩

/-- What waits under a ticket stays as it is until its ticket is called up. -/
theorem Transition.pending?_eq
    {machine next : Machine} {record : Record} {pending : Pending}
    (htransition : machine.Transition record next)
    (hpending : machine.pending? pending.ticket = some pending)
    (hadvanced : ∀ other reply, record = .advanced other reply → other.ticket ≠ pending.ticket)
    (habandoned : ∀ other, record = .abandoned other → other.ticket ≠ pending.ticket) :
    next.pending? pending.ticket = some pending := by
  have hgrown :
      ∀ {grown : Machine} {others : List Pending},
        grown.pending = machine.pending ++ others →
          grown.pending? pending.ticket = some pending := by
    intro grown others hgrown
    have hfind : machine.pending.find? (fun other => other.ticket == pending.ticket) =
        some pending := hpending
    unfold pending?
    rw [hgrown, List.find?_append, hfind]
    rfl
  have hforgotten :
      ∀ {before : Machine} {other : Pending}, before.pending = machine.pending →
        other.ticket ≠ pending.ticket →
          (before.forget other).pending? pending.ticket = some pending := by
    intro before other hbefore hne
    have hsame :
        (fun waiting : Pending =>
            decide ((waiting.ticket != other.ticket) = true ∧
              (waiting.ticket == pending.ticket) = true)) =
          fun waiting => waiting.ticket == pending.ticket := by
      funext waiting
      by_cases hticket : waiting.ticket = pending.ticket
      · simp [hticket, hne.symm]
      · simp [hticket]
    unfold pending?
    rw [forget_pending, List.find?_filter, hsame, hbefore]
    exact hpending
  cases htransition with
  | refused hspace hfound hclose hreply => exact hpending
  | parked hspace hleads => exact hgrown rfl
  | performed hspace hcall hfree hperform =>
      unfold pending?
      rw [(performed_of_perform hperform).pending.1]
      exact hpending
  | @closed space handle resource hspace hbound =>
      unfold pending?
      rw [(letGo_pending _ _).1, (unbind_frame _ _ _ _).2.1]
      exact hpending
  | @closing space handle resource action hspace hbound haction =>
      obtain ⟨-, hkept, -⟩ := machine.unbind_frame space handle resource
      apply hgrown
      rw [← hkept]
      rfl
  | finished hother hturn hperform =>
      exact hforgotten (performed_of_perform hperform).pending.1 (hadvanced _ _ rfl)
  | @continued other amount performed rest hother hturn hperform =>
      have hne := hadvanced _ _ rfl
      have hkept : performed.pending? pending.ticket = some pending := by
        unfold pending?
        rw [(performed_of_perform hperform).pending.1]
        exact hpending
      rw [pending?_replace, hkept, Option.map_some, if_neg hne.symm]
  | abandoned hother => exact hforgotten rfl (habandoned _ rfl)
  | exhausted _ => exact hpending

/-- Every event that is not about the call of a task is something that others do. -/
theorem Usable.elsewhere_of_step?
    {machine next : Machine} {space : Nat} {shared : Set Handle} {waiting : Option Nat}
    {event : Event} {record : Record} (husable : machine.Usable space)
    (hwaiting : ∀ ticket, waiting = some ticket → machine.pending? ticket ≠ none)
    (hstep : machine.step? event = some (next, record))
    (haside : ∀ handle, handle ∉ shared → next.lookup space handle = machine.lookup space handle)
    (hadvance : ∀ ticket amount, event = .advance ticket amount → waiting ≠ some ticket)
    (habandon : ∀ ticket, event = .abandon ticket → waiting ≠ some ticket) :
    Elsewhere space shared waiting machine next := by
  have htransition := step?_transition hstep
  have hafter := husable.transition htransition
  refine ⟨hafter.inRange, ⟨_, _, htransition.tableChange husable.inRange husable.table⟩, haside,
    hafter.tickets, ?_⟩
  rintro ticket rfl
  obtain ⟨pending, hpending⟩ := Option.ne_none_iff_exists'.mp (hwaiting ticket rfl)
  cases pending?_ticket hpending
  rw [hpending]
  apply htransition.pending?_eq hpending
  · rintro other reply rfl hticket
    obtain ⟨amount, hevent⟩ := event_of_advanced hstep
    exact hadvance _ amount hevent (congrArg some hticket.symm)
  · rintro other rfl hticket
    exact habandon _ (event_of_abandoned hstep) (congrArg some hticket.symm)

end Machine

/-! ## Steps of a task -/

namespace Task

variable {machine next : Machine} {task later : Task} {ticket : Nat} {call : Call}

/-- What a task waits for is left of the call of its script.  A close has taken its handle
by then. -/
def Waits (task : Task) (machine : Machine) : Prop :=
  ∀ ticket, task.waiting = some ticket →
    ∃ call pending,
      task.script.turn = .call call ∧ machine.pending? ticket = some pending ∧
        pending.space = task.space ∧ call.Leaves pending.action ∧
          ∀ handle, call = .close handle →
            handle.raw < (machine.space task.space).table.next ∧
              machine.lookup task.space handle = none

/-- What a step of a task is: its call waits, or goes on waiting, or has its reply.  A reply
that opens a handle has bound it, a call that closes one has taken it, and no other handle
is touched. -/
inductive Stepped (machine : Machine) (task : Task) : Machine → Task → Prop where
  | pauses {next : Machine} {ticket : Nat} {call : Call} {taken : Option Handle}
      (hturn : task.script.turn = .call call)
      (hchange :
        Machine.TableChange (machine.space task.space).table (next.space task.space).table
          none taken)
      (htaken : ∀ handle, taken = some handle → call = .close handle)
      (hwaits : Waits { task with waiting := some ticket } next) :
      Stepped machine task next { task with waiting := some ticket }
  | replied {next : Machine} {call : Call} {reply : Reply} {taken : Option Handle}
      (hturn : task.script.turn = .call call) (hexpects : call.Expects reply)
      (hchange :
        Machine.TableChange (machine.space task.space).table (next.space task.space).table
          reply.newHandle? taken)
      (htaken : ∀ handle, taken = some handle → call = .close handle)
      (hclosed : ∀ handle, call = .close handle → next.lookup task.space handle = none) :
      Stepped machine task next (task.resume reply)

theorem close_of_taken?
    {space owner : Nat} {found : Option Resource} {result : Started} {handle : Handle}
    (htaken : (Record.started owner call found result).taken? space = some handle) :
    call = .close handle := by
  unfold Record.taken? at htaken
  split at htaken
  · next heq =>
      cases heq
      split at htaken
      all_goals cases htaken
      rfl
  · cases htaken

/-- A close takes its handle at once, if there is one to take. -/
theorem lookup_of_close
    {space : Nat} {handle : Handle} (husable : machine.Usable space) :
    (machine.start space (.close handle)).1.lookup space handle = none := by
  cases hlookup : machine.lookup space handle with
  | none =>
      rw [(Machine.inert_of_unbound hlookup).close]
      exact hlookup
  | some resource =>
      have hchange :=
        (machine.start_transition (.close handle) husable.inRange).tableChange husable.inRange
          husable.table
      have hfound : machine.found space (.close handle) = some resource := hlookup
      rw [hfound] at hchange
      simp only [Record.taken?, if_true] at hchange
      exact hchange.get?_taken husable.table

theorem waits_of_start
    (husable : machine.Usable task.space) (hturn : task.script.turn = .call call)
    (hstart : machine.start task.space call = (next, .waiting ticket)) :
    Waits { task with waiting := some ticket } next := by
  have htransition := machine.start_transition call husable.inRange
  have hchange := htransition.tableChange husable.inRange husable.table
  obtain ⟨hticket, action, hleaves, hpending⟩ := Machine.leaves_of_start hstart
  rintro waiting ⟨⟩
  refine ⟨call, ⟨ticket, task.space, action⟩, hturn, ?_, rfl, hleaves, ?_⟩
  · exact husable.tickets.pending?_of_append hticket hpending
  · rintro handle rfl
    have hclosed := @lookup_of_close machine task.space handle husable
    rw [hstart] at htransition hchange hclosed
    refine ⟨?_, hclosed⟩
    obtain ⟨resource, hlookup⟩ := htransition.lookup_of_waiting rfl rfl
    have hkey : handle ∈ (machine.space task.space).table.keys := by
      rw [← HandleTable.get?_isSome_iff]
      exact Option.isSome_of_eq_some hlookup
    exact (husable.table.lt_next handle hkey).trans_le hchange.next_le

/-- A step of a task is one of the two, and the space can be used after it as before. -/
theorem stepped
    (husable : machine.Usable task.space) (hwaits : task.Waits machine)
    (hstep : task.step? machine = some (next, later)) :
    Stepped machine task next later ∧ next.Usable task.space := by
  unfold step? at hstep
  split at hstep
  · next ticket hticket =>
      obtain ⟨call, pending, hturn, hpending, hspace, hleaves, hclosing⟩ := hwaits ticket hticket
      have htransition :
          ∀ {advanced answer},
            machine.advance? ticket machine.network.capacity = some (advanced, answer) →
              machine.Transition (.advanced pending answer) advanced := by
        intro advanced answer hadvance
        have hevent :
            machine.step? (.advance ticket machine.network.capacity) =
              some (advanced, .advanced pending answer) := by
          simp only [Machine.step?, hpending, hadvance]
        exact Machine.step?_transition hevent
      have hclosed :
          ∀ {advanced answer},
            machine.advance? ticket machine.network.capacity = some (advanced, answer) →
              ∀ handle, call = .close handle →
                handle.raw < (advanced.space task.space).table.next ∧
                  advanced.lookup task.space handle = none := by
        intro advanced answer hadvance handle hcall
        obtain ⟨holder, hunbound⟩ := hclosing handle hcall
        have hchange := (htransition hadvance).tableChange husable.inRange husable.table
        exact ⟨holder.trans_le hchange.next_le,
          hchange.get?_of_older husable.table holder hunbound⟩
      split at hstep
      · cases hstep
      · next advanced hadvance =>
          cases hstep
          have hchange := (htransition hadvance).tableChange husable.inRange husable.table
          obtain ⟨rest, hrest, hkept⟩ := Machine.leaves_of_advance hpending hleaves hadvance
          refine ⟨?_, husable.transition (htransition hadvance)⟩
          have hsame : { task with waiting := some ticket } = task := by rw [← hticket]
          rw [← hsame]
          refine .pauses hturn hchange (by simp [Record.taken?]) ?_
          rintro waiting ⟨⟩
          exact ⟨call, _, hturn, hkept, hspace, hrest, hclosed hadvance⟩
      · next advanced reply hadvance =>
          cases hstep
          have hchange := (htransition hadvance).tableChange husable.inRange husable.table
          simp only [Record.handedOut?, hspace, if_true] at hchange
          rw [← hspace] at husable
          have hexpects := Machine.expects_of_advance hpending husable.table hleaves hadvance
          rw [hspace] at husable
          exact ⟨.replied hturn hexpects hchange (by simp [Record.taken?])
              fun handle hcall => (hclosed hadvance handle hcall).2,
            husable.transition (htransition hadvance)⟩
  · split at hstep
    · cases hstep
    · cases hstep
    · next call hturn =>
        have htransition := machine.start_transition call husable.inRange
        have hchange := htransition.tableChange husable.inRange husable.table
        have hafter := husable.transition htransition
        split at hstep
        · next started reply hstart =>
            cases hstep
            rw [hstart] at hchange hafter
            simp only [Record.handedOut?, if_true] at hchange
            refine ⟨.replied hturn (Machine.expects_of_start husable.table hstart) hchange
              (fun _ => close_of_taken?) ?_, hafter⟩
            rintro handle rfl
            have hclosed := @lookup_of_close machine task.space handle husable
            rwa [hstart] at hclosed
        · next started ticket hstart =>
            cases hstep
            have hwaits := waits_of_start husable hturn hstart
            rw [hstart] at hchange hafter
            exact ⟨.pauses hturn hchange (fun _ => close_of_taken?) hwaits, hafter⟩

theorem space_of_step? (hstep : task.step? machine = some (next, later)) :
    later.space = task.space := by
  unfold step? at hstep
  repeat' split at hstep
  all_goals cases hstep
  all_goals rfl

end Task

/-! ## Courses -/

/-- The handles of a space that are bound and were not before. -/
def Machine.gained (before after : Machine) (space : Nat) : List Handle :=
  (after.space space).table.keys.filter fun handle => (before.lookup space handle).isNone

theorem Machine.mem_gained
    {before after : Machine} {space : Nat} {handle : Handle} :
    handle ∈ before.gained after space ↔
      before.lookup space handle = none ∧ after.lookup space handle ≠ none := by
  unfold gained
  rw [List.mem_filter, ← HandleTable.get?_isSome_iff, Option.isSome_iff_ne_none,
    Option.isNone_iff_eq_none, and_comm]
  exact Iff.rfl

theorem Machine.TableChange.mem_gained_iff
    {before after : Machine} {space : Nat} {handed taken : Option Handle} {handle : Handle}
    (hchange :
      TableChange (before.space space).table (after.space space).table handed taken)
    (htable : (before.space space).table.WellFormed) :
    handle ∈ before.gained after space ↔ handed = some handle := by
  rw [mem_gained]
  constructor
  · rintro ⟨hunbound, hbound⟩
    by_contra hhanded
    apply hbound
    by_cases htaken : taken = some handle
    · subst htaken
      exact hchange.get?_taken htable
    · exact (hchange.get?_eq hhanded htaken).trans hunbound
  · rintro rfl
    exact hchange.get?_handed htable

/-- A task at work on a machine, with the handles that it has opened. -/
structure Work where
  machine : Machine
  task : Task
  opened : List Handle := []
  deriving Repr, DecidableEq

namespace Work

def start (machine : Machine) (space : Nat) (script : Script) : Work :=
  { machine := machine, task := { space := space, script := script } }

/-- The work after a step of the task. -/
def step? (work : Work) : Option Work :=
  match work.task.step? work.machine with
  | none => none
  | some (machine, task) =>
    some ⟨machine, task, work.opened ++ work.machine.gained machine work.task.space⟩

/-- How the work goes on: by a step of the task, or by what others do, who may change the
shared handles of its space. -/
inductive Passes (shared : Set Handle) : Work → Work → Prop where
  | step {work later : Work} (hstep : work.step? = some later) : Passes shared work later
  | others {work : Work} {next : Machine}
      (helsewhere :
        Machine.Elsewhere work.task.space shared work.task.waiting work.machine next) :
      Passes shared work { work with machine := next }

/-- The work after a number of steps of the task, or after as many as it can make. -/
def stepsOn (work : Work) : Nat → Work
  | 0 => work
  | count + 1 =>
    match work.step? with
    | none => work
    | some later => later.stepsOn count

/-- While nobody else does anything, a task makes its steps. -/
theorem passes_stepsOn (shared : Set Handle) (work : Work) (count : Nat) :
    Relation.ReflTransGen (Passes shared) work (work.stepsOn count) := by
  induction count generalizing work with
  | zero => exact .refl
  | succ count ih =>
      rw [stepsOn]
      split
      · exact .refl
      · next later hstep => exact .head (.step hstep) (ih later)

theorem space_eq
    {shared : Set Handle} {work later : Work}
    (hcourse : Relation.ReflTransGen (Passes shared) work later) :
    later.task.space = work.task.space := by
  induction hcourse with
  | refl => rfl
  | @tail middle later _ hpasses ih =>
      rw [← ih]
      cases hpasses with
      | others helsewhere => rfl
      | step hstep =>
          unfold step? at hstep
          split at hstep
          · cases hstep
          · next machine task htask =>
              cases hstep
              exact Task.space_of_step? htask

end Work

end ResourceHandles
