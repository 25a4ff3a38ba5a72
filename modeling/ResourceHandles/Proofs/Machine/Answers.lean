import ResourceHandles.Proofs.Machine.Sound

/-!
# What calls are answered with

Every waiting action is left of one call, also after it went on with less to do.  So the
form of an answer is known from its call, whether it comes at once or after a wait.  A fault
of a read or of a write names the handle of the call; no other fault names a handle.
-/

namespace ResourceHandles

/-- The handle that a fault names. -/
def CallFault.handle? : CallFault → Option Handle
  | .fileNotRead handle _ => some handle
  | .fileNotWritten handle _ _ => some handle
  | .connectionNotRead handle _ => some handle
  | .connectionNotWritten handle _ => some handle
  | .notOpened _ _ => none
  | .notUnlinked _ _ => none

/-- The handle that a fault of a call names. -/
def Call.blamed? : Call → Option Handle
  | .read handle => some handle
  | .write handle _ => some handle
  | _ => none

/-- The replies that a call can be answered with, by their form. -/
inductive Call.Expects : Call → Reply → Prop where
  | opened {path : Path} {flags : Option (List OpenFlag)} {handle : Handle}
      (hhandle : handle ≠ .invalid) : Expects (.open path flags) (.handle handle)
  | listening {address : String} {handle : Handle} : Expects (.listen address) (.handle handle)
  | accepted {listener handle : Handle} : Expects (.accept listener) (.handle handle)
  | connected {address : String} {handle : Handle} : Expects (.connect address) (.handle handle)
  | read {handle : Handle} {data : Bytes} : Expects (.read handle) (.bytes data)
  | written {handle : Handle} {data : Bytes} : Expects (.write handle data) .done
  | closed {handle : Handle} : Expects (.close handle) .done
  | unlinked {path : Path} : Expects (.unlink path) .done
  | failed {call : Call} {fault : CallFault} (hhandle : fault.handle? = call.blamed?) :
      Expects call (.failed fault)

/-- A call leaves an action to be done, or what is left of one. -/
inductive Call.Leaves : Call → Action → Prop where
  | openFile {path : Path} {flags : Option (List OpenFlag)} {access : Access} :
      Leaves (.open path flags) (.openFile path access)
  | closeFile {handle : Handle} {file : Nat} : Leaves (.close handle) (.closeFile file)
  | endSending {handle : Handle} {connection : Nat} :
      Leaves (.close handle) (.endSending connection)
  | readFile {handle : Handle} {file : Nat} : Leaves (.read handle) (.readFile handle file)
  | receive {handle : Handle} {connection : Nat} :
      Leaves (.read handle) (.receive handle connection)
  | writeFile {handle : Handle} {file : Nat} {data : Bytes} :
      Leaves (.write handle data) (.writeFile handle file data)
  | send {handle : Handle} {connection : Nat} {data rest : Bytes} :
      Leaves (.write handle data) (.send handle connection rest)
  | unlink {path : Path} : Leaves (.unlink path) (.unlink path)
  | listen {address : String} {endpoint : Endpoint} : Leaves (.listen address) (.listen endpoint)
  | accept {handle : Handle} {listener : Nat} : Leaves (.accept handle) (.accept listener)
  | connect {address : String} {endpoint : Endpoint} :
      Leaves (.connect address) (.connect endpoint)

namespace Machine

variable {machine next planned : Machine} {space amount ticket : Nat} {call : Call}
variable {action rest : Action} {reply : Reply}

/-! ## Carrying out an action -/

theorem expects_of_perform
    (htable : (machine.space space).table.WellFormed) (hleaves : call.Leaves action)
    (hperform : machine.perform space amount action = (next, .finished reply)) :
    call.Expects reply := by
  cases hleaves with
  | @openFile path flags access =>
      simp only [perform, finish, openFile] at hperform
      split at hperform
      · cases hperform
        exact .failed rfl
      · -- The next handle of a table is a valid one.
        cases hperform
        have hnext := newHandle?_next htable
        refine .opened ?_
        intro hinvalid
        have hhandle : (⟨(machine.space space).table.next⟩ : Handle) = .invalid := hinvalid
        rw [hhandle] at hnext
        cases hnext
  | closeFile =>
      cases hperform
      exact .closed
  | endSending =>
      cases hperform
      exact .closed
  | readFile =>
      simp only [perform, finish, readFile] at hperform
      repeat' split at hperform
      all_goals cases hperform
      · exact .read
      · exact .failed rfl
      · exact .read
  | receive =>
      simp only [perform, receive] at hperform
      repeat' split at hperform
      all_goals cases hperform
      · exact .read
      · exact .read
      · exact .read
      · exact .failed rfl
  | writeFile =>
      simp only [perform, finish, writeFile] at hperform
      repeat' split at hperform
      all_goals cases hperform
      · exact .written
      · exact .failed rfl
      · exact .written
  | send =>
      simp only [perform, send] at hperform
      repeat' split at hperform
      all_goals cases hperform
      · exact .written
      · exact .written
      · exact .written
      · exact .written
      · exact .failed rfl
  | unlink =>
      simp only [perform, finish, unlink] at hperform
      split at hperform
      · cases hperform
        exact .failed rfl
      · cases hperform
        exact .unlinked
  | listen =>
      simp only [perform, finish, listen] at hperform
      split at hperform
      all_goals
        cases hperform
        exact .listening
  | accept =>
      simp only [perform, accept] at hperform
      repeat' split at hperform
      all_goals cases hperform
      all_goals exact .accepted
  | connect =>
      simp only [perform, finish, connect] at hperform
      split at hperform
      all_goals
        cases hperform
        exact .connected

theorem leaves_of_perform
    (hleaves : call.Leaves action)
    (hperform : machine.perform space amount action = (next, .continues rest)) :
    call.Leaves rest := by
  obtain ⟨handle, number, data, count, rfl, hrest⟩ :=
    (performed_of_perform hperform).continues
  cases hleaves
  rw [hrest]
  exact .send

/-! ## Planning a call -/

theorem expects_of_plan (hplan : machine.plan space call = (planned, .answer reply)) :
    call.Expects reply := by
  cases call with
  | «open» path flags => cases hplan
  | unlink path => cases hplan
  | close handle =>
      simp only [plan] at hplan
      repeat' split at hplan
      all_goals cases hplan
      all_goals exact .closed
  | read handle =>
      simp only [plan] at hplan
      split at hplan
      all_goals cases hplan
      exact .read
  | write handle data =>
      simp only [plan] at hplan
      split at hplan
      all_goals cases hplan
      exact .written
  | accept handle =>
      simp only [plan] at hplan
      split at hplan
      all_goals cases hplan
      exact .accepted
  | listen address =>
      simp only [plan] at hplan
      split at hplan
      all_goals cases hplan
      exact .listening
  | connect address =>
      simp only [plan] at hplan
      split at hplan
      all_goals cases hplan
      exact .connected

theorem leaves_of_plan (hplan : machine.plan space call = (planned, .act action)) :
    call.Leaves action := by
  cases call with
  | «open» path flags =>
      cases hplan
      exact .openFile
  | unlink path =>
      cases hplan
      exact .unlink
  | close handle =>
      have hplanned := machine.planned_close space handle
      rw [hplan] at hplanned
      cases hplanned with
      | free hcall hfree => cases hcall
      | fitting hsuspends hfound => cases hfound
      | @closing _ resource _ hbound haction hsuspends =>
          cases resource with
          | file number =>
              cases haction
              exact .closeFile
          | listener number => cases haction
          | connection number =>
              cases haction
              exact .endSending
  | read handle =>
      simp only [plan] at hplan
      split at hplan
      all_goals cases hplan
      · exact .readFile
      · exact .receive
  | write handle data =>
      simp only [plan] at hplan
      split at hplan
      all_goals cases hplan
      · exact .writeFile
      · exact .send
  | accept handle =>
      simp only [plan] at hplan
      split at hplan
      all_goals cases hplan
      exact .accept
  | listen address =>
      simp only [plan] at hplan
      split at hplan
      all_goals cases hplan
      exact .listen
  | connect address =>
      simp only [plan] at hplan
      split at hplan
      all_goals cases hplan
      exact .connect

/-! ## Starting and advancing -/

theorem pending?_replace (machine : Machine) (ticket other : Nat) (action : Action) :
    (machine.replace ticket action).pending? other =
      (machine.pending? other).map fun pending =>
        if pending.ticket = ticket then { pending with action := action } else pending := by
  have hsame :
      ((fun pending : Pending => pending.ticket == other) ∘ fun pending =>
          if pending.ticket = ticket then { pending with action := action } else pending) =
        fun pending => pending.ticket == other := by
    funext pending
    simp only [Function.comp_apply]
    split
    all_goals rfl
  unfold pending? replace
  rw [List.find?_map, hsame]

theorem expects_of_start
    (htable : (machine.space space).table.WellFormed)
    (hstart : machine.start space call = (next, .answered reply)) : call.Expects reply := by
  have hplanned := machine.planned space call
  unfold start at hstart
  generalize hplan : machine.plan space call = result at hplanned hstart
  cases hplanned with
  | refused hfound hclose hreply =>
      cases hstart
      exact expects_of_plan hplan
  | @free _ action hcall hfree =>
      simp only at hstart
      split at hstart
      · cases hstart
      · obtain ⟨performed, answer, hperform⟩ := machine.perform_of_free space 0 hfree
        simp only [hperform] at hstart
        cases hstart
        exact expects_of_perform htable (leaves_of_plan hplan) hperform
  | fitting hsuspends hfound =>
      simp only [hsuspends, if_true] at hstart
      cases hstart
  | closed hbound =>
      cases hstart
      exact expects_of_plan hplan
  | closing hbound haction hsuspends =>
      have hoperation : ∀ handle, (Call.close handle).operation = Operation.close := fun _ => rfl
      simp only [hoperation, hsuspends, if_true] at hstart
      cases hstart

/-- A call that waits takes the next ticket, and what it leaves is put at the end. -/
theorem leaves_of_start (hstart : machine.start space call = (next, .waiting ticket)) :
    ticket = machine.nextTicket ∧
      ∃ action,
        call.Leaves action ∧ next.pending = machine.pending ++ [⟨ticket, space, action⟩] := by
  have hplanned := machine.planned space call
  unfold start at hstart
  generalize hplan : machine.plan space call = result at hplanned hstart
  cases hplanned with
  | refused hfound hclose hreply => cases hstart
  | @free _ action hcall hfree =>
      simp only at hstart
      split at hstart
      · cases hstart
        exact ⟨rfl, action, leaves_of_plan hplan, rfl⟩
      · obtain ⟨performed, answer, hperform⟩ := machine.perform_of_free space 0 hfree
        simp only [hperform] at hstart
        cases hstart
  | @fitting _ action hsuspends hfound =>
      simp only [hsuspends, if_true] at hstart
      cases hstart
      exact ⟨rfl, action, leaves_of_plan hplan, rfl⟩
  | closed hbound => cases hstart
  | @closing handle resource action hbound haction hsuspends =>
      have hoperation : (Call.close handle).operation = Operation.close := rfl
      obtain ⟨-, hpending, hticket⟩ := machine.unbind_frame space handle resource
      simp only [hoperation, hsuspends, if_true] at hstart
      cases hstart
      refine ⟨hticket, action, leaves_of_plan hplan, ?_⟩
      rw [← hpending]

theorem expects_of_advance
    {pending : Pending} (hpending : machine.pending? ticket = some pending)
    (htable : (machine.space pending.space).table.WellFormed)
    (hleaves : call.Leaves pending.action)
    (hadvance : machine.advance? ticket amount = some (next, some reply)) :
    call.Expects reply := by
  simp only [advance?, hpending] at hadvance
  split at hadvance
  · cases hadvance
  · split at hadvance
    · next performed answer hperform =>
        cases hadvance
        exact expects_of_perform htable hleaves hperform
    · cases hadvance
    · cases hadvance

/-- A waiting action that goes on stays where it is, as what is left of it. -/
theorem leaves_of_advance
    {pending : Pending} (hpending : machine.pending? ticket = some pending)
    (hleaves : call.Leaves pending.action)
    (hadvance : machine.advance? ticket amount = some (next, none)) :
    ∃ rest, call.Leaves rest ∧ next.pending? ticket = some { pending with action := rest } := by
  cases pending?_ticket hpending
  simp only [advance?, hpending] at hadvance
  split at hadvance
  · cases hadvance
  · split at hadvance
    · cases hadvance
    · next performed rest hperform =>
        cases hadvance
        have hkept : performed.pending? pending.ticket = some pending := by
          unfold pending?
          rw [(performed_of_perform hperform).pending.1]
          exact hpending
        refine ⟨rest, leaves_of_perform hleaves hperform, ?_⟩
        rw [pending?_replace, hkept]
        simp
    · cases hadvance

end Machine

end ResourceHandles
