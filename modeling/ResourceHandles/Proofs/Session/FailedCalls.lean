import ResourceHandles.Proofs.Machine.FilesKept
import ResourceHandles.Proofs.Machine.LifeCycle
import ResourceHandles.Proofs.Machine.Tickets
import ResourceHandles.Proofs.Session.Orderly

/-!
# Calls that fail leave no trace

A call may fail when it is started, or after it has waited while other calls went on.
None of the events of a call that fails binds or unbinds a handle or changes the file
tree.  So all handles are classified as before, as many are open as before, and the next
handle that is handed out is the one that would have been handed out without the call.
-/

namespace ResourceHandles

/-- Whether a reply tells of a failure: a fault, or the invalid handle. -/
def Reply.isFailure : Reply → Bool
  | .failed _ => true
  | .handle number => number == .invalid
  | .bytes _ => false
  | .done => false

theorem Reply.newHandle?_of_isFailure
    {reply : Reply} (hfailure : reply.isFailure = true) : reply.newHandle? = none := by
  cases reply with
  | handle number =>
      have hinvalid : number = .invalid := by simpa [Reply.isFailure] using hfailure
      rw [Reply.newHandle?, if_pos hinvalid]
  | bytes data => rfl
  | done => rfl
  | failed fault => rfl

namespace Machine

variable {machine next : Machine} {space ticket : Nat} {action : Action} {reply : Reply}

/-! ## Tables -/

/-- Every handle space has a well-formed table. -/
def TablesSound (machine : Machine) : Prop :=
  ∀ space, (machine.space space).table.WellFormed

theorem TablesSound.congr
    (htables : machine.TablesSound) (hspaces : next.spaces = machine.spaces) :
    next.TablesSound := by
  intro space
  rw [space_congr hspaces]
  exact htables space

theorem TablesSound.rebinds
    {connections : List Connection} (htables : machine.TablesSound)
    (hrebinds : machine.Rebinds next.spaces connections) : next.TablesSound :=
  hrebinds.wellFormed htables

/-! ## The next handle -/

/-- The first handle that a run hands out in a space is the next one of its table. -/
theorem eq_next_of_handedOut
    (htables : machine.TablesSound) (hspace : space < machine.spaces.length)
    {events : List Event} {handle : Handle}
    (hfirst : (handedOut space (History.play ⟨machine, []⟩ events).log).head? = some handle) :
    handle = ⟨(machine.space space).table.next⟩ := by
  have hstart :
      machine.TablesSound ∧ space < machine.spaces.length ∧
        (handedOut space [] = [] →
          (machine.space space).table.next = (machine.space space).table.next) ∧
          ∀ handle, (handedOut space []).head? = some handle →
            handle = ⟨(machine.space space).table.next⟩ :=
    ⟨htables, hspace, fun _ => rfl, by simp [handedOut]⟩
  have hplay := @History.play_invariant
    (fun later log =>
      later.TablesSound ∧ space < later.spaces.length ∧
        (handedOut space log = [] →
          (later.space space).table.next = (machine.space space).table.next) ∧
          ∀ handle, (handedOut space log).head? = some handle →
            handle = ⟨(machine.space space).table.next⟩)
    ?_ ⟨machine, []⟩ hstart events
  · exact hplay.2.2.2 handle hfirst
  · intro before log record after ⟨hsound, hthere, hkept, hhead⟩ htransition
    have hchange := htransition.tableChange hthere (hsound space)
    refine ⟨hsound.rebinds htransition.rebinds, ?_, ?_, ?_⟩
    · rwa [htransition.length_spaces]
    · rw [handedOut_snoc]
      intro hnone
      obtain ⟨hlog, hrecord⟩ := List.append_eq_nil_iff.mp hnone
      rw [Option.toList_eq_nil_iff] at hrecord
      rw [hrecord] at hchange
      rw [← hkept hlog]
      generalize (after.space space).table = table at hchange ⊢
      generalize record.taken? space = taken at hchange
      cases hchange with
      | same => rfl
      | unbound hbound => exact HandleTable.remove_next _ _
    · rw [handedOut_snoc]
      intro handle hhanded
      cases hlog : handedOut space log with
      | nil =>
          rw [hlog, List.nil_append] at hhanded
          rw [← hkept hlog]
          generalize (after.space space).table = table at hchange
          generalize record.taken? space = taken at hchange
          generalize record.handedOut? space = handed at hchange hhanded
          cases hchange with
          | same => cases hhanded
          | bound resource =>
              cases hhanded
              rfl
          | unbound hbound => cases hhanded
      | cons first rest =>
          rw [hlog] at hhanded
          apply hhead
          rw [hlog]
          exact hhanded

/-! ## What leaves no trace -/

/-- One machine tells as much about handles and files as another: the same handles are
known and as many are open, the next handle is the same whatever happens, and so is the
file tree. -/
structure Traceless (before after : Machine) : Prop where
  classify :
    ∀ space handle,
      (after.space space).table.classify handle = (before.space space).table.classify handle
  openHandles : ∀ space, (after.space space).table.size = (before.space space).table.size
  nextHandle :
    ∀ space, space < before.spaces.length → ∀ events others handle other,
      (handedOut space (History.play ⟨before, []⟩ events).log).head? = some handle →
        (handedOut space (History.play ⟨after, []⟩ others).log).head? = some other →
          other = handle
  tree : after.tree = before.tree

theorem traceless_of_eq
    (htables : machine.TablesSound) (hspaces : next.spaces = machine.spaces)
    (htree : next.tree = machine.tree) : machine.Traceless next := by
  have hspace := space_congr hspaces
  constructor
  · intro space handle
    rw [hspace]
  · intro space
    rw [hspace]
  · intro space hthere events others handle other hhandle hother
    rw [eq_next_of_handedOut htables hthere hhandle,
      eq_next_of_handedOut (htables.congr hspaces) (by rwa [hspaces]) hother, hspace]
  · exact htree

/-! ## Carrying out an action in vain -/

theorem spaces_of_newHandle?
    {progress : Progress} {amount : Nat} (htables : machine.TablesSound)
    (hperform : machine.perform space amount action = (next, progress))
    (hnone : progress.newHandle? = none) : next.spaces = machine.spaces := by
  have hbinds := (performed_of_perform hperform).binds
  generalize next.connections = connections at hbinds
  generalize next.spaces = spaces at hbinds ⊢
  cases hbinds with
  | nothing hreply => rfl
  | other hother => cases (newHandle?_next (htables space)).symm.trans hnone
  | connection endId => cases (newHandle?_next (htables space)).symm.trans hnone

/-- The three actions that change files change none of them when they fail, and neither
does any other action. -/
theorem tree_of_isFailure
    {amount : Nat} (htables : machine.TablesSound)
    (hperform : machine.perform space amount action = (next, .finished reply))
    (hfailure : reply.isFailure = true) : next.tree = machine.tree := by
  cases huses : action.usesFiles with
  | false =>
      have htree := (machine.perform_files space amount huses).1
      rwa [hperform] at htree
  | true =>
      cases action with
      | openFile path access =>
          simp only [perform, finish, openFile] at hperform
          split at hperform
          · cases hperform
            rfl
          · -- A handle was handed out, and that is no failure.
            cases hperform
            have hnext :
                (Reply.handle ⟨(machine.space space).table.next⟩).newHandle? = none :=
              Reply.newHandle?_of_isFailure hfailure
            cases (newHandle?_next (htables space)).symm.trans hnext
      | readFile handle number =>
          simp only [perform, finish, readFile] at hperform
          repeat' split at hperform
          all_goals
            cases hperform
            rfl
      | writeFile handle number data =>
          simp only [perform, finish, writeFile] at hperform
          split at hperform
          · cases hperform
            rfl
          · split at hperform
            · cases hperform
              rfl
            · cases hperform
              cases hfailure
      | unlink path =>
          simp only [perform, finish, unlink] at hperform
          split at hperform
          · cases hperform
            rfl
          · cases hperform
            cases hfailure
      | _ => cases huses

theorem traceless_perform
    {amount : Nat} {after : Machine} (htables : machine.TablesSound)
    (hperform : machine.perform space amount action = (next, .finished reply))
    (hfailure : reply.isFailure = true) (hspaces : after.spaces = next.spaces)
    (htree : after.tree = next.tree) : machine.Traceless after := by
  apply traceless_of_eq htables
  · exact hspaces.trans
      (spaces_of_newHandle? htables hperform (Reply.newHandle?_of_isFailure hfailure))
  · exact htree.trans (tree_of_isFailure htables hperform hfailure)

/-! ## Starting a call -/

/-- A call that fails at once leaves no trace, and so does a call that waits, unless it
is a close: that one takes its handle before it waits. -/
theorem traceless_start
    (htables : machine.TablesSound) (space : Nat) (call : Call) :
    (∀ reply, (machine.start space call).2 = .answered reply → reply.isFailure = true →
        machine.Traceless (machine.start space call).1) ∧
      ∀ ticket, (machine.start space call).2 = .waiting ticket →
        (∀ handle, call ≠ .close handle) →
          machine.Traceless (machine.start space call).1 := by
  have hplanned := machine.planned space call
  unfold start
  generalize machine.plan space call = planned at hplanned ⊢
  cases hplanned with
  | refused hfound hclose hreply =>
      exact ⟨fun _ _ _ => traceless_of_eq htables rfl rfl,
        fun _ _ _ => traceless_of_eq htables rfl rfl⟩
  | @free _ action hcall hfree =>
      simp only
      split
      · refine ⟨?_, fun _ _ _ => traceless_of_eq htables rfl rfl⟩
        intro reply hanswered
        cases hanswered
      · obtain ⟨performed, reply, hperform⟩ := machine.perform_of_free space 0 hfree
        have hletGo : performed.letGoOf action = performed := by
          unfold letGoOf
          rw [hfree]
        simp only [hperform, hletGo]
        refine ⟨?_, fun _ hwaiting => by cases hwaiting⟩
        intro failed hanswered hfailure
        cases hanswered
        exact traceless_perform htables hperform hfailure rfl rfl
  | fitting hsuspends hfound =>
      simp only [hsuspends, if_true]
      refine ⟨?_, fun _ _ _ => traceless_of_eq htables rfl rfl⟩
      intro reply hanswered
      cases hanswered
  | @closed handle resource hbound =>
      refine ⟨?_, fun _ hwaiting => by cases hwaiting⟩
      intro reply hanswered hfailure
      cases hanswered
      cases hfailure
  | @closing handle resource action hbound haction hsuspends =>
      have hoperation : (Call.close handle).operation = Operation.close := rfl
      simp only [hoperation, hsuspends, if_true]
      refine ⟨?_, fun _ _ hclose => absurd rfl (hclose handle)⟩
      intro reply hanswered
      cases hanswered

/-! ## Advancing a call -/

theorem traceless_continued
    {pending : Pending} {amount : Nat} {rest : Action} (htables : machine.TablesSound)
    (hperform :
      machine.perform pending.space amount pending.action = (next, .continues rest)) :
    machine.Traceless (next.replace pending.ticket rest) := by
  have hspaces : next.spaces = machine.spaces := spaces_of_newHandle? htables hperform rfl
  apply traceless_of_eq htables
  · exact hspaces
  · obtain ⟨handle, number, data, count, haction, -⟩ :=
      (performed_of_perform hperform).continues
    have huses : pending.action.usesFiles = false := by
      rw [haction]
      rfl
    have htree := (machine.perform_files pending.space amount huses).1
    rwa [hperform] at htree

theorem traceless_advance
    {amount : Nat} (htables : machine.TablesSound)
    (hadvance : machine.advance? ticket amount = some (next, some reply))
    (hfailure : reply.isFailure = true) : machine.Traceless next := by
  unfold advance? at hadvance
  split at hadvance
  · cases hadvance
  · next pending hpending =>
      split at hadvance
      · cases hadvance
      · split at hadvance
        · next performed answer hperform =>
            cases hadvance
            apply traceless_perform htables hperform hfailure
            · exact spaces_forget _ _
            · rw [forget_eq]
        · cases hadvance
        · cases hadvance

/-- A ticket that was handed out and under which nothing waits any more. -/
def Settled (ticket : Nat) (machine : Machine) : Prop :=
  ticket < machine.nextTicket ∧ ticket ∉ machine.tickets

theorem Settled.transition
    {record : Record} (hsettled : machine.Settled ticket)
    (htransition : machine.Transition record next) : next.Settled ticket := by
  refine ⟨hsettled.1.trans_le htransition.nextTicket_le, ?_⟩
  rcases htransition.tickets with hdropped | hadded
  · exact fun hmem => hsettled.2 (hdropped.subset hmem)
  · rw [hadded, List.mem_append, List.mem_singleton]
    rintro (hold | hnew)
    · exact hsettled.2 hold
    · exact hsettled.1.ne hnew

theorem Settled.play
    {history : History} (hsettled : history.machine.Settled ticket) (events : List Event) :
    (history.play events).machine.Settled ticket :=
  History.play_invariant (P := fun later _ => later.Settled ticket)
    (fun _ _ _ _ hlater htransition => hlater.transition htransition) hsettled events

theorem Settled.advance?_eq_none
    (hsettled : machine.Settled ticket) (amount : Nat) :
    machine.advance? ticket amount = none := by
  unfold advance?
  split
  · rfl
  · next pending hpending =>
      exfalso
      apply hsettled.2
      rw [← pending?_ticket hpending]
      exact List.mem_map_of_mem (mem_of_pending? hpending)

/-- An event that only advances a call leaves no trace, or it settles the call. -/
theorem traceless_or_settled
    {history : History} (htables : history.machine.TablesSound)
    (hticket : ticket < history.machine.nextTicket) (part : Nat) :
    history.machine.Traceless (history.after (.advance ticket part)).machine ∨
      (history.after (.advance ticket part)).machine.Settled ticket := by
  rcases history.after_cases (.advance ticket part) with hskip | ⟨after, record, hstep, hafter⟩
  · rw [hskip]
    exact Or.inl (traceless_of_eq htables rfl rfl)
  · rw [hafter]
    have hadvance : ∃ answer, history.machine.advance? ticket part = some (after, answer) := by
      simp only [step?] at hstep
      split at hstep
      · next pending advanced answer hpending hadvance =>
          cases hstep
          exact ⟨answer, hadvance⟩
      · cases hstep
    obtain ⟨answer, hadvance⟩ := hadvance
    unfold advance? at hadvance
    split at hadvance
    · cases hadvance
    · next pending hpending =>
        have hpendingTicket := pending?_ticket hpending
        split at hadvance
        · cases hadvance
        · split at hadvance
          · next performed reply hperform =>
              cases hadvance
              right
              constructor
              · rw [forget_nextTicket, (performed_of_perform hperform).pending.2]
                exact hticket
              · unfold tickets
                rw [forget_pending, List.mem_map]
                rintro ⟨other, hother, hsame⟩
                rw [List.mem_filter, hpendingTicket, hsame] at hother
                simp at hother
          · next performed rest hperform =>
              cases hadvance
              left
              rw [← hpendingTicket]
              exact traceless_continued htables hperform
          · cases hadvance

end Machine

namespace Session

open Machine

theorem ticket_lt_of_waiting
    {machine : Machine} {space ticket : Nat} {call : Call}
    (hwaiting : (machine.start space call).2 = .waiting ticket) :
    ticket < (machine.start space call).1.nextTicket := by
  unfold start at hwaiting ⊢
  split at hwaiting
  · cases hwaiting
  · split at hwaiting
    · cases hwaiting
      simp [*, wait, park]
    · split at hwaiting
      · cases hwaiting
      · cases hwaiting
        simp [*, wait, park]
      · cases hwaiting
        simp [*, wait, park]

/-- No event of a call that fails leaves a trace: neither its start, nor what it does
while it waits, nor its end. -/
theorem failed_calls_leave_no_trace
    (tree : FileTree) (routed : Bool) (capacity : Nat) (configurations : List Configuration)
    (steps : List Step) (events : List Event) (space : Nat) (call : Call)
    (hcall : call.operation ≠ .close) :
    let session := (boot tree routed capacity configurations).afterAll steps
    let machine := (History.play ⟨session.machine, []⟩ events).machine
    let started := machine.start space call
    (∀ reply, started.2 = .answered reply → reply.isFailure = true →
        machine.Traceless started.1) ∧
      ∀ ticket between amount failed reply,
        started.2 = .waiting ticket →
        let waited := (History.play ⟨started.1, []⟩ between).machine
        waited.advance? ticket amount = some (failed, some reply) →
        reply.isFailure = true →
          machine.Traceless started.1 ∧
            (∀ front part back, between = front ++ .advance ticket part :: back →
              let reached := History.play ⟨started.1, []⟩ front
              reached.machine.Traceless (reached.after (.advance ticket part)).machine) ∧
            waited.Traceless failed := by
  intro session machine started
  have hplay :
      ∀ {earlier : Machine}, earlier.TablesSound → ∀ events,
        (History.play ⟨earlier, []⟩ events).machine.TablesSound := by
    intro earlier hearlier events
    exact History.play_invariant (P := fun later _ => later.TablesSound)
      (fun _ _ _ _ hlater htransition => hlater.rebinds htransition.rebinds) hearlier events
  have htables : machine.TablesSound := by
    apply hplay
    exact (lasting_orderly.afterAll steps
      (orderly_boot tree routed capacity configurations)).bindings.tables
  have hstarted : started.1.TablesSound :=
    htables.rebinds (machine.start_change space call).rebinds
  refine ⟨(traceless_start htables space call).1, ?_⟩
  intro ticket between amount failed reply hwaiting waited hadvance hfailure
  have hticket : ticket < started.1.nextTicket := ticket_lt_of_waiting hwaiting
  refine ⟨?_, ?_, traceless_advance (hplay hstarted between) hadvance hfailure⟩
  · apply (traceless_start htables space call).2 ticket hwaiting
    intro handle hclose
    rw [hclose] at hcall
    exact hcall rfl
  · intro front part back hbetween reached
    have hreached : ticket < reached.machine.nextTicket :=
      History.play_invariant (P := fun later _ => ticket < later.nextTicket)
        (fun _ _ _ _ hlater htransition => hlater.trans_le htransition.nextTicket_le)
        hticket front
    rcases traceless_or_settled (hplay hstarted front) hreached part with hkept | hsettled
    · exact hkept
    · -- The call would have ended here, but it still had to fail.
      have hover : waited.Settled ticket := by
        have hlater := hsettled.play back
        rwa [← History.play_cons, ← History.play_append, ← hbetween] at hlater
      rw [hover.advance?_eq_none] at hadvance
      cases hadvance

/-- A file is opened and then another one that is not there, while the first open is
still waiting. -/
theorem missing_open_leaves_no_trace :
    let configurations : List Configuration := [{ mode := .deferred }]
    let steps : List Step := [.seed ⟨"kept"⟩ [1, 2]]
    let events : List Event := [.start 0 (.open ⟨"kept"⟩ none)]
    let call : Call := .open ⟨"missing"⟩ (some [.read, .truncate, .write])
    let session := (boot {} true 8 configurations).afterAll steps
    let machine := (History.play ⟨session.machine, []⟩ events).machine
    let started := machine.start 0 call
    let waited := (History.play ⟨started.1, []⟩ [.advance 0 0]).machine
    let failed := ((waited.advance? 1 0).map Prod.fst).getD waited
    started.2 = .waiting 1 ∧
      waited.advance? 1 0 =
          some (failed, some (.failed (.notOpened ⟨"missing"⟩ .notFound))) ∧
        machine.Traceless started.1 ∧ waited.Traceless failed := by
  intro configurations steps events call session machine started waited failed
  have hstarted : started.2 = .waiting 1 := by decide +kernel
  have hadvance :
      waited.advance? 1 0 =
        some (failed, some (.failed (.notOpened ⟨"missing"⟩ .notFound))) := by
    decide +kernel
  obtain ⟨hstart, -, hend⟩ :=
    (failed_calls_leave_no_trace {} true 8 configurations steps events 0 call
      (by decide)).2 1 [.advance 0 0] 0 failed _ hstarted hadvance rfl
  exact ⟨hstarted, hadvance, hstart, hend⟩

end Session

end ResourceHandles
