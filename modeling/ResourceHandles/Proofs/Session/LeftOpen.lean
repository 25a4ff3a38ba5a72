import ResourceHandles.Session.Step
import ResourceHandles.Proofs.Session.Beside
import ResourceHandles.Proofs.Session.Keeping

/-!
# What scripts leave open

A round trip, a request and a server are in charge of one handle at a time: the one that
they opened last and have not closed yet.  They close it before they open another one and
before they end, unless a read or a write on it fails.  Then they end at once and leave it
open; the fault that they end with names it.
-/

namespace ResourceHandles

/-- The handle on which a read or a write failed, if that is what an outcome tells of. -/
def Outcome.blamed? : Outcome → Option Handle
  | .failed (.call fault) => fault.handle?
  | _ => none

/-! ## Being in charge of a handle -/

def RoundTrip.charge? : RoundTrip → Option Handle
  | .create _ => none
  | .fill handle _ => some handle
  | .closeFilled handle => some handle
  | .reopen => none
  | .read handle _ => some handle
  | .closeRead handle _ => some handle
  | .unlink _ => none

def Request.charge? : Request → Option Handle
  | .connect _ => none
  | .send handle _ => some handle
  | .receive handle => some handle
  | .close handle _ => some handle

def Service.charge? : Service → Option Handle
  | .accept => none
  | .receive handle => some handle
  | .respond handle => some handle
  | .close handle => some handle

/-- The handle that a call uses which its script has opened; a listener is not one. -/
def Call.charge? : Call → Option Handle
  | .close handle => some handle
  | .read handle => some handle
  | .write handle _ => some handle
  | _ => none

namespace Script

/-- The handle that a script is in charge of.  One that failed on a handle stays in charge
of it. -/
def charge? : Script → Option Handle
  | roundTrip _ stage => stage.charge?
  | request _ stage => stage.charge?
  | serve _ _ stage => stage.charge?
  | ended outcome => outcome.blamed?
  | _ => none

/-- A round trip, a request or a server at its beginning. -/
inductive Begins : Script → Prop where
  | roundTrip (path : Path) (data : Bytes) : Begins (.roundTrip path (.create data))
  | request (address : String) (body : Bytes) : Begins (.request address (.connect body))
  | serve (listener : Handle) : Begins (.serve listener [] .accept)

/-- A round trip, a request or a server at any stage, or past its end. -/
inductive Goes : Script → Prop where
  | roundTrip (path : Path) (stage : RoundTrip) : Goes (.roundTrip path stage)
  | request (address : String) (stage : Request) : Goes (.request address stage)
  | serve (listener : Handle) (bodies : List Bytes) (stage : Service) :
      Goes (.serve listener bodies stage)
  | ended (outcome : Outcome) : Goes (.ended outcome)

variable {script : Script} {call : Call} {reply : Reply}

theorem Begins.goes (hbegins : script.Begins) : script.Goes := by
  cases hbegins with
  | roundTrip path data => exact .roundTrip path _
  | request address body => exact .request address _
  | serve listener => exact .serve listener [] _

theorem Begins.charge?_eq (hbegins : script.Begins) : script.charge? = none := by
  cases hbegins with
  | _ => rfl

theorem Goes.charge?_of_turn (hgoes : script.Goes) (hturn : script.turn = .call call) :
    script.charge? = call.charge? := by
  cases hgoes with
  | roundTrip path stage =>
      cases hturn
      cases stage with
      | _ => rfl
  | request address stage =>
      cases hturn
      cases stage with
      | _ => rfl
  | serve listener bodies stage =>
      cases hturn
      cases stage with
      | _ => rfl
  | ended outcome => cases hturn

/-- After a close a script is in charge of no handle, after other calls of the handle that
the reply opens or else of the same as before. -/
def chargeAfter (call : Call) (reply : Reply) : Option Handle :=
  match call with
  | .close _ => none
  | _ => reply.newHandle?.or call.charge?

theorem chargeAfter_opened
    {path : Path} {flags : Option (List OpenFlag)} {handle : Handle}
    (hhandle : handle ≠ .invalid) :
    chargeAfter (.open path flags) (.handle handle) = some handle := by
  simp only [chargeAfter, Reply.newHandle?, if_neg hhandle, Option.some_or]

/-- A call that has no handle of its own puts its script in charge of the handle that it is
answered with, if that is a valid one. -/
theorem chargeAfter_handle
    {handle : Handle} (hcall : call.charge? = none)
    (hvalid : ∀ opened, (Reply.handle handle).newHandle? = some opened → opened.isValid = true) :
    chargeAfter call (.handle handle) = if handle.isValid then some handle else none := by
  have hcharge : chargeAfter call (.handle handle) = (Reply.handle handle).newHandle? := by
    cases call with
    | close closed => cases hcall
    | _ => simp [chargeAfter, hcall]
  rw [hcharge]
  by_cases hinvalid : handle = .invalid
  · subst hinvalid
    rfl
  · have hnew : (Reply.handle handle).newHandle? = some handle := by
      rw [Reply.newHandle?, if_neg hinvalid]
    rw [hnew, if_pos (hvalid handle hnew)]

theorem chargeAfter_of_newHandle?
    {handle : Handle} (hexpects : call.Expects reply) (hopened : reply.newHandle? = some handle) :
    chargeAfter call reply = some handle := by
  cases hexpects with
  | opened hhandle => simp only [chargeAfter, hopened, Option.some_or]
  | listening => simp only [chargeAfter, hopened, Option.some_or]
  | accepted => simp only [chargeAfter, hopened, Option.some_or]
  | connected => simp only [chargeAfter, hopened, Option.some_or]
  | _ => cases hopened

theorem chargeAfter_of_charge?
    {handle : Handle} (hexpects : call.Expects reply) (hcharge : call.charge? = some handle) :
    chargeAfter call reply = some handle ∨ call = .close handle := by
  cases call with
  | close closed =>
      cases hcharge
      exact Or.inr rfl
  | read used =>
      cases hexpects with
      | _ => exact Or.inl hcharge
  | write used data =>
      cases hexpects with
      | _ => exact Or.inl hcharge
  | _ => cases hcharge

theorem cases_of_chargeAfter
    {handle : Handle} (hcharge : chargeAfter call reply = some handle) :
    reply.newHandle? = some handle ∨
      (call.charge? = some handle ∧ call ≠ .close handle) := by
  cases call with
  | close closed => cases hcharge
  | _ =>
      rw [chargeAfter, Option.or_eq_some_iff] at hcharge
      · exact hcharge.imp_right fun hkept => ⟨hkept.2, by rintro ⟨⟩⟩
      · rintro closed ⟨⟩

theorem charge?_of_blamed?
    {fault : CallFault} (hhandle : fault.handle? = call.blamed?) :
    (Script.ended (.failed (.call fault))).charge? = chargeAfter call (.failed fault) := by
  have hcharge : (Script.ended (.failed (.call fault))).charge? = call.blamed? := hhandle
  rw [hcharge]
  cases call with
  | _ => rfl

/-- A script is of one of the three kinds still, and in charge of what it should be. -/
def GoesOn (script : Script) (call : Call) (reply : Reply) : Prop :=
  (script.after reply).Goes ∧ (script.after reply).charge? = chargeAfter call reply

theorem goesOn_roundTrip
    {path : Path} {stage : RoundTrip} (hexpects : (stage.call path).Expects reply) :
    GoesOn (.roundTrip path stage) (stage.call path) reply := by
  have hfailed :
      ∀ {fault : CallFault}, fault.handle? = (stage.call path).blamed? →
        GoesOn (.roundTrip path stage) (stage.call path) (.failed fault) :=
    fun hhandle => ⟨.ended _, charge?_of_blamed? hhandle⟩
  cases stage with
  | create data =>
      cases hexpects with
      | opened hhandle => exact ⟨.roundTrip path _, (chargeAfter_opened hhandle).symm⟩
      | failed hhandle => exact hfailed hhandle
  | fill handle data =>
      cases hexpects with
      | written => exact ⟨.roundTrip path _, rfl⟩
      | failed hhandle => exact hfailed hhandle
  | closeFilled handle =>
      cases hexpects with
      | closed => exact ⟨.roundTrip path _, rfl⟩
      | failed hhandle => exact hfailed hhandle
  | reopen =>
      cases hexpects with
      | opened hhandle => exact ⟨.roundTrip path _, (chargeAfter_opened hhandle).symm⟩
      | failed hhandle => exact hfailed hhandle
  | read handle chunks =>
      cases hexpects with
      | @read _ data =>
          cases data with
          | nil => exact ⟨.roundTrip path _, rfl⟩
          | cons byte data => exact ⟨.roundTrip path _, rfl⟩
      | failed hhandle => exact hfailed hhandle
  | closeRead handle data =>
      cases hexpects with
      | closed => exact ⟨.roundTrip path _, rfl⟩
      | failed hhandle => exact hfailed hhandle
  | unlink data =>
      cases hexpects with
      | unlinked => exact ⟨.ended _, rfl⟩
      | failed hhandle => exact hfailed hhandle

theorem goesOn_request
    {address : String} {stage : Request} (hexpects : (stage.call address).Expects reply)
    (hvalid : ∀ opened, reply.newHandle? = some opened → opened.isValid = true) :
    GoesOn (.request address stage) (stage.call address) reply := by
  have hfailed :
      ∀ {fault : CallFault}, fault.handle? = (stage.call address).blamed? →
        GoesOn (.request address stage) (stage.call address) (.failed fault) :=
    fun hhandle => ⟨.ended _, charge?_of_blamed? hhandle⟩
  cases stage with
  | connect body =>
      cases hexpects with
      | @connected _ handle =>
          unfold GoesOn
          rw [chargeAfter_handle rfl hvalid]
          simp only [after, afterRequest, Request.after]
          cases handle.isValid with
          | true => exact ⟨.request address _, rfl⟩
          | false => exact ⟨.ended _, rfl⟩
      | failed hhandle => exact hfailed hhandle
  | send handle body =>
      cases hexpects with
      | written => exact ⟨.request address _, rfl⟩
      | failed hhandle => exact hfailed hhandle
  | receive handle =>
      cases hexpects with
      | read => exact ⟨.request address _, rfl⟩
      | failed hhandle => exact hfailed hhandle
  | close handle data =>
      cases hexpects with
      | closed => exact ⟨.ended _, rfl⟩
      | failed hhandle => exact hfailed hhandle

theorem goesOn_serve
    {listener : Handle} {bodies : List Bytes} {stage : Service}
    (hexpects : (stage.call listener).Expects reply)
    (hvalid : ∀ opened, reply.newHandle? = some opened → opened.isValid = true) :
    GoesOn (.serve listener bodies stage) (stage.call listener) reply := by
  have hfailed :
      ∀ {fault : CallFault}, fault.handle? = (stage.call listener).blamed? →
        GoesOn (.serve listener bodies stage) (stage.call listener) (.failed fault) :=
    fun hhandle => ⟨.ended _, charge?_of_blamed? hhandle⟩
  cases stage with
  | accept =>
      cases hexpects with
      | @accepted _ handle =>
          unfold GoesOn
          rw [chargeAfter_handle rfl hvalid]
          simp only [after, afterService]
          split
          · exact ⟨.serve listener _ _, rfl⟩
          · exact ⟨.ended _, rfl⟩
      | failed hhandle => exact hfailed hhandle
  | receive handle =>
      cases hexpects with
      | read => exact ⟨.serve listener _ _, rfl⟩
      | failed hhandle => exact hfailed hhandle
  | respond handle =>
      cases hexpects with
      | written => exact ⟨.serve listener _ _, rfl⟩
      | failed hhandle => exact hfailed hhandle
  | close handle =>
      cases hexpects with
      | closed => exact ⟨.serve listener _ _, rfl⟩
      | failed hhandle => exact hfailed hhandle

theorem Goes.goesOn
    (hgoes : script.Goes) (hturn : script.turn = .call call) (hexpects : call.Expects reply)
    (hvalid : ∀ opened, reply.newHandle? = some opened → opened.isValid = true) :
    GoesOn script call reply := by
  cases hgoes with
  | roundTrip path stage =>
      cases hturn
      exact goesOn_roundTrip hexpects
  | request address stage =>
      cases hturn
      exact goesOn_request hexpects hvalid
  | serve listener bodies stage =>
      cases hturn
      exact goesOn_serve hexpects hvalid
  | ended outcome => cases hturn

end Script

/-! ## Accounts -/

/-- What a task that began on a machine answers for: it has closed every handle that it
opened but the one that it is in charge of, and that one is still open unless it is being
closed.  All other handles are as they were, as far as nobody else may change them. -/
structure Work.Accounts (shared : Set Handle) (begun : Machine) (work : Work) : Prop where
  usable : work.machine.Usable work.task.space
  waits : work.task.Waits work.machine
  goes : work.task.script.Goes
  grown :
    (begun.space work.task.space).table.next ≤ (work.machine.space work.task.space).table.next
  older :
    ∀ handle ∈ work.opened,
      (begun.space work.task.space).table.next ≤ handle.raw ∧
        handle.raw < (work.machine.space work.task.space).table.next
  closed :
    ∀ handle ∈ work.opened, work.task.script.charge? ≠ some handle →
      work.machine.lookup work.task.space handle = none
  kept :
    ∀ handle, handle ∉ work.opened → handle ∉ shared →
      work.machine.lookup work.task.space handle = begun.lookup work.task.space handle
  charged :
    ∀ handle, work.task.script.charge? = some handle →
      handle ∈ work.opened ∧
        (handle ∉ shared → work.task.script.turn ≠ .call (.close handle) →
          work.machine.lookup work.task.space handle ≠ none)

namespace Work

variable {shared : Set Handle} {begun next : Machine} {work later : Work}

theorem accounts_start
    {space : Nat} {script : Script} (husable : begun.Usable space) (hbegins : script.Begins) :
    Accounts shared begun (start begun space script) where
  usable := husable
  waits := by
    intro ticket hwaiting
    cases hwaiting
  goes := hbegins.goes
  grown := le_rfl
  older := by
    intro handle hmem
    cases hmem
  closed := by
    intro handle hmem
    cases hmem
  kept := fun _ _ _ => rfl
  charged := by
    intro handle hcharge
    cases hbegins.charge?_eq.symm.trans hcharge

/-- What others do is none of the task's business. -/
theorem Accounts.others
    (haccounts : work.Accounts shared begun)
    (helsewhere : Machine.Elsewhere work.task.space shared work.task.waiting work.machine next) :
    Accounts shared begun { work with machine := next } := by
  obtain ⟨handed, taken, hchange⟩ := helsewhere.table
  have htable := haccounts.usable.table
  refine ⟨haccounts.usable.elsewhere helsewhere, ?_, haccounts.goes,
    haccounts.grown.trans hchange.next_le, ?_, ?_, ?_, ?_⟩
  · intro ticket hwaiting
    obtain ⟨call, pending, hturn, hpending, hspace, hleaves, hclosing⟩ :=
      haccounts.waits ticket hwaiting
    refine ⟨call, pending, hturn, ?_, hspace, hleaves, ?_⟩
    · rw [helsewhere.call ticket hwaiting]
      exact hpending
    · intro handle hcall
      obtain ⟨holder, hunbound⟩ := hclosing handle hcall
      exact ⟨holder.trans_le hchange.next_le, hchange.get?_of_older htable holder hunbound⟩
  · intro handle hmem
    obtain ⟨hnew, holder⟩ := haccounts.older handle hmem
    exact ⟨hnew, holder.trans_le hchange.next_le⟩
  · intro handle hmem hcharge
    exact hchange.get?_of_older htable (haccounts.older handle hmem).2
      (haccounts.closed handle hmem hcharge)
  · intro handle hmem hshared
    exact (helsewhere.aside handle hshared).trans (haccounts.kept handle hmem hshared)
  · intro handle hcharge
    obtain ⟨hmem, hbound⟩ := haccounts.charged handle hcharge
    refine ⟨hmem, ?_⟩
    intro hshared hturn
    rw [helsewhere.aside handle hshared]
    exact hbound hshared hturn

/-- A step of the task for a call: it is in charge of what the call opens, it keeps in charge
of what it has not closed, and it is in charge of nothing else. -/
theorem Accounts.own
    {call : Call} {task : Task} {handed taken : Option Handle}
    (haccounts : work.Accounts shared begun) (hturn : work.task.script.turn = .call call)
    (husable : next.Usable work.task.space) (hspace : task.space = work.task.space)
    (hwaits : task.Waits next) (hgoes : task.script.Goes)
    (hchange :
      Machine.TableChange (work.machine.space work.task.space).table
        (next.space work.task.space).table handed taken)
    (htaken : ∀ handle, taken = some handle → call = .close handle)
    (hopens : ∀ handle, handed = some handle → task.script.charge? = some handle)
    (hkeeps :
      ∀ handle, call.charge? = some handle →
        task.script.charge? = some handle ∨ next.lookup work.task.space handle = none)
    (hcharge :
      ∀ handle, task.script.charge? = some handle →
        handed = some handle ∨
          (call.charge? = some handle ∧
            (task.script.turn ≠ .call (.close handle) → call ≠ .close handle))) :
    Accounts shared begun
      ⟨next, task, work.opened ++ work.machine.gained next work.task.space⟩ := by
  have htable := haccounts.usable.table
  have hcall := haccounts.goes.charge?_of_turn hturn
  have hmem :
      ∀ handle, handle ∈ work.opened ++ work.machine.gained next work.task.space ↔
        handle ∈ work.opened ∨ handed = some handle := by
    intro handle
    rw [List.mem_append, hchange.mem_gained_iff htable]
  -- A handle that the task closes is one that it has opened.
  have hclosing : ∀ handle, taken = some handle → handle ∈ work.opened := by
    intro handle hhandle
    have hclose := htaken handle hhandle
    apply (haccounts.charged handle _).1
    rw [hcall, hclose]
    rfl
  refine ⟨?_, hwaits, hgoes, ?_, ?_, ?_, ?_, ?_⟩
  all_goals simp only [hspace]
  · exact husable
  · exact haccounts.grown.trans hchange.next_le
  · intro handle hopened
    rcases (hmem handle).mp hopened with hold | rfl
    · obtain ⟨hnew, holder⟩ := haccounts.older handle hold
      exact ⟨hnew, holder.trans_le hchange.next_le⟩
    · obtain ⟨rfl, hnext⟩ := hchange.handed_eq
      have hgrown := haccounts.grown
      refine ⟨hgrown, ?_⟩
      rw [hnext]
      exact Int.lt_succ _
  · intro handle hopened hfree
    rcases (hmem handle).mp hopened with hold | hnew
    · by_cases hcharged : call.charge? = some handle
      · exact (hkeeps handle hcharged).resolve_left hfree
      · rw [← hcall] at hcharged
        exact hchange.get?_of_older htable (haccounts.older handle hold).2
          (haccounts.closed handle hold hcharged)
    · exact absurd (hopens handle hnew) hfree
  · intro handle hunopened hshared
    rw [hmem, not_or] at hunopened
    have hsame : next.lookup work.task.space handle = work.machine.lookup work.task.space handle :=
      hchange.get?_eq hunopened.2 fun hhandle => hunopened.1 (hclosing handle hhandle)
    rw [hsame]
    exact haccounts.kept handle hunopened.1 hshared
  · intro handle hhandle
    rcases hcharge handle hhandle with rfl | ⟨hcharged, hclose⟩
    · exact ⟨(hmem handle).mpr (Or.inr rfl), fun _ _ => (hchange.get?_handed htable).2⟩
    · rw [← hcall] at hcharged
      obtain ⟨hold, hbound⟩ := haccounts.charged handle hcharged
      refine ⟨(hmem handle).mpr (Or.inl hold), ?_⟩
      intro hshared hopen
      have hcallOpen := hclose hopen
      by_cases hnew : handed = some handle
      · subst hnew
        exact (hchange.get?_handed htable).2
      · have hsame :
            next.lookup work.task.space handle = work.machine.lookup work.task.space handle :=
          hchange.get?_eq hnew fun hhandle => hcallOpen (htaken handle hhandle)
        rw [hsame]
        apply hbound hshared
        rw [hturn]
        rintro ⟨⟩
        exact hcallOpen rfl

theorem Accounts.step
    (haccounts : work.Accounts shared begun) (hstep : work.step? = some later) :
    later.Accounts shared begun := by
  unfold step? at hstep
  split at hstep
  · cases hstep
  · next machine task htask =>
      cases hstep
      obtain ⟨hstepped, husable⟩ := Task.stepped haccounts.usable haccounts.waits htask
      cases hstepped with
      | @pauses ticket call taken hturn hchange htaken hwaits =>
          have hcall := haccounts.goes.charge?_of_turn hturn
          have hspace : { work.task with waiting := some ticket }.space = work.task.space := rfl
          apply haccounts.own hturn husable hspace hwaits haccounts.goes hchange htaken
          · rintro handle ⟨⟩
          · intro handle hcharged
            exact Or.inl (hcall.trans hcharged)
          · intro handle hcharged
            refine Or.inr ⟨hcall.symm.trans hcharged, ?_⟩
            rintro hopen rfl
            exact hopen hturn
      | @replied call reply taken hturn hexpects hchange htaken hclosed =>
          have hvalid : ∀ opened, reply.newHandle? = some opened → opened.isValid = true := by
            intro opened hopened
            rw [hopened] at hchange
            have hfirst : firstHandle ≤ (work.machine.space work.task.space).table.next :=
              haccounts.usable.table.first_le_next
            rw [hchange.handed_eq.1]
            exact decide_eq_true ((by decide : (0 : Int) ≤ firstHandle).trans hfirst)
          obtain ⟨hgoes, hcharge⟩ := haccounts.goes.goesOn hturn hexpects hvalid
          have hscript : (work.task.resume reply).script.charge? = Script.chargeAfter call reply :=
            hcharge
          have hspace : (work.task.resume reply).space = work.task.space := rfl
          have hwaits : (work.task.resume reply).Waits machine := by
            intro ticket hwaiting
            cases hwaiting
          apply haccounts.own hturn husable hspace hwaits hgoes hchange htaken
          · intro handle hopened
            exact hscript.trans (Script.chargeAfter_of_newHandle? hexpects hopened)
          · intro handle hcharged
            rw [hscript]
            exact (Script.chargeAfter_of_charge? hexpects hcharged).imp_right (hclosed handle)
          · intro handle hcharged
            rw [hscript] at hcharged
            exact (Script.cases_of_chargeAfter hcharged).imp_right
              fun ⟨hkept, hopen⟩ => ⟨hkept, fun _ => hopen⟩

theorem Accounts.passes
    (haccounts : work.Accounts shared begun) (hpasses : Passes shared work later) :
    later.Accounts shared begun := by
  cases hpasses with
  | step hstep => exact haccounts.step hstep
  | others helsewhere => exact haccounts.others helsewhere

theorem Accounts.course
    (haccounts : work.Accounts shared begun)
    (hcourse : Relation.ReflTransGen (Passes shared) work later) :
    later.Accounts shared begun := by
  induction hcourse with
  | refl => exact haccounts
  | tail _ hpasses ih => exact ih.passes hpasses

end Work

theorem turn_of_outcome?
    {task : Task} {outcome : Outcome} (hended : task.outcome? = some outcome) :
    task.script.turn = .finish outcome := by
  unfold Task.outcome? at hended
  split at hended
  · next hwaiting hturn =>
      cases hended
      exact hturn
  · cases hended

/-- A script that has ended is in charge of the handle that its outcome blames. -/
theorem Script.Goes.blamed?_eq
    {script : Script} {outcome : Outcome} (hgoes : script.Goes)
    (hturn : script.turn = .finish outcome) : script.charge? = outcome.blamed? := by
  cases hgoes with
  | ended other =>
      cases hturn
      rfl
  | _ => cases hturn

/-- A round trip, a request or a server closes every handle that it opens, whatever others
do, but one: if a read or a write fails it ends there and leaves that handle open.  All
other handles of the runtime are as they were before, as far as they are nobody else's. -/
theorem Script.closes_unless_blamed
    {shared : Set Handle} {begun : Machine} {space : Nat} {script : Script} {work : Work}
    {outcome : Outcome} (husable : begun.Usable space) (hbegins : script.Begins)
    (hcourse :
      Relation.ReflTransGen (Work.Passes shared) (Work.start begun space script) work)
    (hended : work.task.outcome? = some outcome) :
    (∀ handle ∈ work.opened, outcome.blamed? ≠ some handle →
        work.machine.lookup space handle = none) ∧
      (∀ handle, handle ∉ shared → outcome.blamed? ≠ some handle →
        work.machine.lookup space handle = begun.lookup space handle) ∧
      ∀ handle, outcome.blamed? = some handle →
        handle ∈ work.opened ∧ begun.lookup space handle = none ∧
          (handle ∉ shared → work.machine.lookup space handle ≠ none) := by
  have hstart : (Work.start begun space script).Accounts shared begun :=
    Work.accounts_start husable hbegins
  have haccounts := hstart.course hcourse
  have hspace : work.task.space = space := Work.space_eq hcourse
  have hblamed := haccounts.goes.blamed?_eq (turn_of_outcome? hended)
  have hunbound : ∀ handle ∈ work.opened, begun.lookup space handle = none := by
    intro handle hopened
    by_contra hbound
    have hkey : handle ∈ (begun.space space).table.keys := by
      rw [← HandleTable.get?_isSome_iff]
      exact Option.isSome_iff_ne_none.mpr hbound
    have holder := husable.table.lt_next handle hkey
    have hnewer := (haccounts.older handle hopened).1
    rw [hspace] at hnewer
    omega
  obtain ⟨-, -, -, -, -, hclosed, hkept, hcharged⟩ := haccounts
  rw [hblamed, hspace] at hclosed hcharged
  rw [hspace] at hkept
  refine ⟨hclosed, ?_, ?_⟩
  · intro handle hshared hfree
    by_cases hopened : handle ∈ work.opened
    · rw [hclosed handle hopened hfree, hunbound handle hopened]
    · exact hkept handle hopened hshared
  · intro handle hhandle
    obtain ⟨hopened, hbound⟩ := hcharged handle hhandle
    refine ⟨hopened, hunbound handle hopened, ?_⟩
    intro hshared
    apply hbound hshared
    rw [turn_of_outcome? hended]
    rintro ⟨⟩

/-- Another runtime listens, and closes its listener before it has accepted the connection
of a request.  The request reads in vain and leaves the connection open. -/
theorem Script.reset_request_blamed :
    let address := "127.0.0.1:4000"
    let booted := Machine.boot {} true 65536 [{}, {}]
    let begun := (booted.start 1 (.listen address)).1
    let sent := (Work.start begun 0 (.request address (.connect [104, 105]))).stepsOn 4
    let work := { sent with machine := (sent.machine.start 1 (.close ⟨3⟩)).1 }.stepsOn 2
    let outcome := Outcome.failed (.call (.connectionNotRead ⟨3⟩ .connectionReset))
    begun.Usable 0 ∧ work.task.outcome? = some outcome ∧
      ⟨3⟩ ∈ work.opened ∧ work.machine.lookup 0 ⟨3⟩ ≠ none ∧
        ∀ handle, handle ≠ ⟨3⟩ → work.machine.lookup 0 handle = begun.lookup 0 handle := by
  intro address booted begun sent work outcome
  have hbooted : booted.Usable 0 :=
    (Machine.orderly_boot {} true 65536 [{}, {}]).usable (by decide +kernel)
  have husable : begun.Usable 0 :=
    hbooted.transition (booted.start_transition (.listen address) (by decide +kernel))
  have hended : work.task.outcome? = some outcome := by decide +kernel
  have hcourse :
      Relation.ReflTransGen (Work.Passes ∅)
        (Work.start begun 0 (.request address (.connect [104, 105]))) work := by
    have hsent : Relation.ReflTransGen (Work.Passes ∅)
        (Work.start begun 0 (.request address (.connect [104, 105]))) sent :=
      Work.passes_stepsOn ∅ _ 4
    have hstart : (Work.start begun 0 (.request address (.connect [104, 105]))).Accounts ∅ begun :=
      Work.accounts_start husable (.request _ _)
    have hspace : (sent.machine.start 1 (.close ⟨3⟩)).1.space 0 = sent.machine.space 0 := by
      decide +kernel
    have hsentUsable : sent.machine.Usable sent.task.space := (hstart.course hsent).usable
    have htask : sent.task.space = 0 ∧ sent.task.waiting = none := by decide +kernel
    rw [htask.1] at hsentUsable
    have hclosed :
        Machine.Elsewhere 0 ∅ none sent.machine (sent.machine.start 1 (.close ⟨3⟩)).1 := by
      apply hsentUsable.elsewhere_of_step? (fun _ hwaiting => by cases hwaiting)
        (sent.machine.step?_start (by decide +kernel) (.close ⟨3⟩))
      · intro handle hhandle
        unfold Machine.lookup
        rw [hspace]
      · rintro ticket amount ⟨⟩
      · rintro ticket ⟨⟩
    have hothers :
        Work.Passes ∅ sent { sent with machine := (sent.machine.start 1 (.close ⟨3⟩)).1 } :=
      .others (by rwa [htask.1, htask.2])
    exact (hsent.tail hothers).trans (Work.passes_stepsOn ∅ _ 2)
  obtain ⟨-, hkept, hleft⟩ := closes_unless_blamed husable (.request _ _) hcourse hended
  obtain ⟨hopened, -, hbound⟩ := hleft ⟨3⟩ rfl
  refine ⟨husable, hended, hopened, hbound (Set.notMem_empty _), ?_⟩
  intro handle hne
  apply hkept handle (Set.notMem_empty _)
  intro hblamed
  cases hblamed
  exact hne rfl

/-- A request that is reset leaves a handle open that was not open before: the listener is
closed, so that no handle should be left. -/
theorem Session.reset_request_stays_open :
    (boot {} true 65536 [{}]).runAll
        [.call 0 (.listen "127.0.0.1:4000"),
          .spawn "client" (.request 0 "127.0.0.1:4000" [104, 105]),
          .call 0 (.close ⟨3⟩),
          .join "client"] =
      [(.handle ⟨3⟩, [1]), (.started, [2]), (.done, [1]),
        (.failed (.call (.connectionNotRead ⟨4⟩ .connectionReset)), [1])] := by
  decide +kernel

end ResourceHandles
