import ResourceHandles.Proofs.Machine.Commuting
import ResourceHandles.Proofs.Session.FileHandles
import ResourceHandles.Proofs.Session.Quiet

/-!
# Operations on unrelated handles

Two handles are unrelated if they are neither open on the same file nor the two ends of one
connection.  Since no two handles stand for the same resource, nothing then belongs to what both
of them stand for, and operations on them that need not wait may be done in either order.
-/

namespace ResourceHandles

/-- Two ends of one link are the same, or they are the two ends of the link. -/
theorem EndId.eq_or_eq_peer {id other : EndId} (hlink : id.link = other.link) :
    other = id ∨ other = id.peer := by
  obtain ⟨link, side⟩ := id
  obtain ⟨otherLink, otherSide⟩ := other
  cases hlink
  cases side with
  | caller => cases otherSide with
    | caller => exact Or.inl rfl
    | answerer => exact Or.inr rfl
  | answerer => cases otherSide with
    | caller => exact Or.inr rfl
    | answerer => exact Or.inl rfl

namespace Machine

variable {machine : Machine} {space other : Nat} {handle otherHandle : Handle}
variable {number otherNumber : Nat}

/-! ## Unrelated handles -/

/-- Two open files are open on the same file. -/
def SameFile (machine : Machine) (number other : Nat) : Prop :=
  ∃ file otherFile content,
    machine.files[number]? = some file ∧ machine.files[other]? = some otherFile ∧
      file.entry = .file content ∧ otherFile.entry = .file content

/-- Two connections are the two ends of one link. -/
def Joined (machine : Machine) (number other : Nat) : Prop :=
  ∃ connection otherConnection,
    machine.connections[number]? = some connection ∧
      machine.connections[other]? = some otherConnection ∧
        otherConnection.endId = connection.endId.peer

/-- Two different handles stand for files or connections, but they are neither open on the same
file nor the two ends of one connection. -/
def Unrelated (machine : Machine) (space : Nat) (handle : Handle) (other : Nat)
    (otherHandle : Handle) : Prop :=
  (space ≠ other ∨ handle ≠ otherHandle) ∧
    match machine.lookup space handle, machine.lookup other otherHandle with
    | some (.file number), some (.file otherNumber) => ¬machine.SameFile number otherNumber
    | some (.connection number), some (.connection otherNumber) =>
      ¬machine.Joined number otherNumber
    | some (.file _), some (.connection _) => True
    | some (.connection _), some (.file _) => True
    | _, _ => False

theorem FullyOwned.carries_file
    (howned : machine.FullyOwned) (hlookup : machine.lookup space handle = some (.file number)) :
    ∃ entry, machine.Carries (.file number entry) := by
  have hnumber := howned.files.inRange space handle number hlookup
  exact ⟨_, _, List.getElem?_eq_getElem hnumber, rfl⟩

theorem FullyOwned.carries_connection
    (howned : machine.FullyOwned)
    (hlookup : machine.lookup space handle = some (.connection number)) :
    ∃ link, machine.Carries (.connection number link) := by
  obtain ⟨connection, hconnection, -⟩ :=
    howned.sockets.orderly.bindings.held space handle number hlookup
  exact ⟨_, connection, hconnection, rfl⟩

theorem apart_of_files
    {entry otherEntry : Entry} (hnumber : number ≠ otherNumber)
    (hcarries : machine.Carries (.file number entry))
    (hother : machine.Carries (.file otherNumber otherEntry))
    (hfile : ¬machine.SameFile number otherNumber) :
    (Footprint.file number entry).Apart (.file otherNumber otherEntry) := by
  obtain ⟨file, hopened, rfl⟩ := hcarries
  obtain ⟨otherFile, hotherOpened, rfl⟩ := hother
  refine ⟨hnumber, fun content hentry hotherEntry => hfile ?_⟩
  exact ⟨file, otherFile, content, hopened, hotherOpened, hentry, hotherEntry⟩

theorem apart_of_connections
    {link otherLink : Nat} (horderly : machine.Orderly) (hnumber : number ≠ otherNumber)
    (hcarries : machine.Carries (.connection number link))
    (hother : machine.Carries (.connection otherNumber otherLink))
    (hjoined : ¬machine.Joined number otherNumber) :
    (Footprint.connection number link).Apart (.connection otherNumber otherLink) := by
  obtain ⟨connection, hconnection, rfl⟩ := hcarries
  obtain ⟨otherConnection, hotherConnection, rfl⟩ := hother
  refine ⟨hnumber, fun hlink => ?_⟩
  rcases EndId.eq_or_eq_peer hlink with hend | hpeer
  · have hlt := (List.getElem?_eq_some_iff.mp hconnection).1
    apply hnumber
    apply (List.getElem?_inj (by simpa using hlt) horderly.links.distinct).mp
    rw [List.getElem?_map, List.getElem?_map, hconnection, hotherConnection]
    exact congrArg some hend.symm
  · exact hjoined ⟨connection, otherConnection, hconnection, hotherConnection, hpeer⟩

/-- Nothing belongs to what both of two unrelated handles stand for. -/
theorem Unrelated.footprints
    (hunrelated : machine.Unrelated space handle other otherHandle)
    (howned : machine.FullyOwned) :
    ∃ footprint otherPrint : Footprint,
      machine.lookup space handle = some footprint.resource ∧
        machine.lookup other otherHandle = some otherPrint.resource ∧
          machine.Carries footprint ∧ machine.Carries otherPrint ∧ footprint.Apart otherPrint := by
  obtain ⟨hdifferent, hkinds⟩ := hunrelated
  have hresource : ∀ {resource : Resource}, machine.lookup space handle = some resource →
      machine.lookup other otherHandle ≠ some resource := by
    intro resource hlookup hother
    obtain ⟨hspace, hhandle⟩ := howned.unique hlookup hother
    exact hdifferent.elim (fun hne => hne hspace) fun hne => hne hhandle
  split at hkinds
  · next number otherNumber hlookup hother =>
      obtain ⟨entry, hcarries⟩ := howned.carries_file hlookup
      obtain ⟨otherEntry, hotherCarries⟩ := howned.carries_file hother
      have hnumber : number ≠ otherNumber := by
        rintro rfl
        exact hresource hlookup hother
      exact ⟨.file number entry, .file otherNumber otherEntry, hlookup, hother, hcarries,
        hotherCarries, apart_of_files hnumber hcarries hotherCarries hkinds⟩
  · next number otherNumber hlookup hother =>
      obtain ⟨link, hcarries⟩ := howned.carries_connection hlookup
      obtain ⟨otherLink, hotherCarries⟩ := howned.carries_connection hother
      have hnumber : number ≠ otherNumber := by
        rintro rfl
        exact hresource hlookup hother
      exact ⟨.connection number link, .connection otherNumber otherLink, hlookup, hother, hcarries,
        hotherCarries,
        apart_of_connections howned.sockets.orderly hnumber hcarries hotherCarries hkinds⟩
  · next number otherNumber hlookup hother =>
      obtain ⟨entry, hcarries⟩ := howned.carries_file hlookup
      obtain ⟨link, hotherCarries⟩ := howned.carries_connection hother
      exact ⟨.file number entry, .connection otherNumber link, hlookup, hother, hcarries,
        hotherCarries, trivial⟩
  · next number otherNumber hlookup hother =>
      obtain ⟨link, hcarries⟩ := howned.carries_connection hlookup
      obtain ⟨entry, hotherCarries⟩ := howned.carries_file hother
      exact ⟨.connection number link, .file otherNumber entry, hlookup, hother, hcarries,
        hotherCarries, trivial⟩
  · exact hkinds.elim

theorem FullyOwned.play (howned : machine.FullyOwned) (events : List Event) :
    (History.play ⟨machine, []⟩ events).machine.FullyOwned :=
  History.play_invariant (P := fun later _ => later.FullyOwned)
    (fun _ _ _ _ hlater htransition => htransition.change.fullyOwned hlater) howned events

/-- Two calls on unrelated handles come to their ends in either order. -/
theorem Unrelated.complete?_comm
    {call otherCall : Call} {amounts otherAmounts : List Nat} {first second : Machine}
    {reply otherReply : Reply} (hunrelated : machine.Unrelated space handle other otherHandle)
    (howned : machine.FullyOwned) (hquiet : machine.pending = [])
    (hcall : call.On handle) (hotherCall : otherCall.On otherHandle)
    (hcomplete : machine.complete? space call amounts = some (first, reply))
    (hotherComplete :
      machine.complete? other otherCall otherAmounts = some (second, otherReply)) :
    ∃ last,
      first.complete? other otherCall otherAmounts = some (last, otherReply) ∧
        second.complete? space call amounts = some (last, reply) := by
  obtain ⟨footprint, otherPrint, hlookup, hotherLookup, hcarries, hotherCarries, hapart⟩ :=
    hunrelated.footprints howned
  exact Machine.complete?_comm hquiet hapart hunrelated.1 hcarries hotherCarries hlookup
    hotherLookup hcall hotherCall hcomplete hotherComplete

end Machine

/-! ## Calls on a quiet session -/

namespace Session

variable {session : Session} {space : Nat} {handle : Handle} {call : Call} {reply : Reply}
variable {footprint : Footprint} {last : Machine}

/-- A call on a runtime comes to its end at once: as soon as it was started and ran as far as it
can, it has ended. -/
def EndsAtOnce (session : Session) (runtime : Nat) (call : Call) : Prop :=
  (session.launch (session.spaceOf runtime) (.once call)).taskOutcome? session.tasks.length ≠ none

theorem after_once (call : Call) (reply : Reply) :
    (Script.once call).after reply = .ended (.ofReply reply) := by
  cases reply with
  | handle opened => rfl
  | bytes data => rfl
  | done => rfl
  | failed fault => rfl

/-- A call that waits is on a machine with the same network as before. -/
theorem network_of_waiting
    {machine parked : Machine} {ticket : Nat} (hquiet : machine.pending = [])
    (hcall : call.On handle) (hlookup : machine.lookup space handle = some footprint.resource)
    (hstart : machine.start space call = (parked, .waiting ticket)) :
    parked.network = machine.network := by
  rw [Machine.start_eq hquiet hcall hlookup] at hstart
  split at hstart
  · cases hstart
    exact (Machine.prepare_frame _ _ _).2
  · cases hstart

/-- A call that comes to its end without waiting is run to its end beside tasks that are still. -/
theorem Quiet.run_of_complete?
    (hquiet : session.Quiet) (hcall : call.On handle)
    (hlookup : session.machine.lookup space handle = some footprint.resource)
    (hcomplete :
      session.machine.complete? space call [session.machine.network.capacity] =
        some (last, reply)) :
    session.run space (.once call) = ({ session with machine := last }, .ofReply reply) := by
  have hturn : (Script.once call).turn = .call call := rfl
  have houtcome : ({ space := space, script := .ended (.ofReply reply) } : Task).outcome? =
      some (.ofReply reply) := rfl
  unfold Machine.complete? at hcomplete
  split at hcomplete
  · next answered found hstart =>
      cases hcomplete
      have hstep := Task.step?_answered hturn hstart
      rw [after_once] at hstep
      exact run_last hquiet.retired hquiet.still (.step hstep (.still rfl)) houtcome (by omega)
  · next parked ticket hstart =>
      rw [← network_of_waiting hquiet.pending hcall hlookup hstart] at hcomplete
      unfold Machine.conclude? at hcomplete
      split at hcomplete
      · cases hcomplete
      · cases hcomplete
      · next advanced found hadvance =>
          cases hcomplete
          have hstep : Task.step? parked ⟨space, .once call, some ticket⟩ =
              some (last, ⟨space, (Script.once call).after reply, none⟩) :=
            Task.step?_resumed hadvance
          rw [after_once] at hstep
          exact run_last hquiet.retired hquiet.still
            (.step (Task.step?_waiting hturn hstart) (.step hstep (.still rfl))) houtcome (by omega)

/-- A call that comes to its end at once need not wait. -/
theorem Quiet.complete?_of_endsAtOnce
    {runtime : Nat} (hquiet : session.Quiet) (hcall : call.On handle)
    (hlookup :
      session.machine.lookup (session.spaceOf runtime) handle = some footprint.resource)
    (hends : session.EndsAtOnce runtime call) :
    ∃ last reply,
      session.machine.complete? (session.spaceOf runtime) call
        [session.machine.network.capacity] = some (last, reply) := by
  have hturn : (Script.once call).turn = .call call := rfl
  have hgoes := Machine.goes hquiet.pending (session.spaceOf runtime) call
  unfold EndsAtOnce at hends
  unfold Machine.complete?
  generalize session.machine.bare.alone (session.spaceOf runtime) call = answer at hgoes
  cases hgoes with
  | @answered last reply hstart hstill => exact ⟨last, reply, by rw [hstart]⟩
  | @advanced parked last ticket reply hstart hadvance hstill =>
      rw [network_of_waiting hquiet.pending hcall hlookup hstart] at hadvance
      refine ⟨last, reply, ?_⟩
      rw [hstart]
      simp only [Machine.conclude?, hadvance]
  | blocked hstart hblocked hstill =>
      rw [launch_last hquiet.retired hquiet.still
        (.step (Task.step?_waiting hturn hstart) (.still (Task.step?_blocked hblocked)))
        (by omega)] at hends
      simp [taskOutcome?, Task.outcome?] at hends
  | stuck hstart hadvance hblocked hstill =>
      rw [launch_last hquiet.retired hquiet.still
        (.step (Task.step?_waiting hturn hstart)
          (.step (Task.step?_advanced hadvance) (.still (Task.step?_blocked hblocked))))
        (by omega)] at hends
      simp [taskOutcome?, Task.outcome?] at hends

/-- Two calls on unrelated handles that end at once are run to their ends in either order. -/
theorem Quiet.calls_commute
    {runtime other : Nat} {otherHandle : Handle} {otherCall : Call}
    (hquiet : session.Quiet) (howned : session.machine.FullyOwned)
    (hunrelated :
      session.machine.Unrelated (session.spaceOf runtime) handle (session.spaceOf other)
        otherHandle)
    (hcall : call.On handle) (hotherCall : otherCall.On otherHandle)
    (hends : session.EndsAtOnce runtime call) (hotherEnds : session.EndsAtOnce other otherCall) :
    let first := session.step (.call runtime call)
    let second := session.step (.call other otherCall)
    ∃ last,
      first.1.step (.call other otherCall) = (last, second.2) ∧
        second.1.step (.call runtime call) = (last, first.2) := by
  obtain ⟨footprint, otherPrint, hlookup, hotherLookup, hcarries, hotherCarries, hapart⟩ :=
    hunrelated.footprints howned
  obtain ⟨machine, reply, hcomplete⟩ :=
    hquiet.complete?_of_endsAtOnce hcall hlookup hends
  obtain ⟨otherMachine, otherReply, hotherComplete⟩ :=
    hquiet.complete?_of_endsAtOnce hotherCall hotherLookup hotherEnds
  obtain ⟨last, hafter, hbefore⟩ :=
    hunrelated.complete?_comm howned hquiet.pending hcall hotherCall hcomplete hotherComplete
  obtain ⟨hstill, hcapacity, hkept⟩ := Machine.kept_of_complete? hquiet.pending hcarries hcall
    hlookup hcomplete hunrelated.1
  obtain ⟨hotherStill, hotherCapacity, hotherKept⟩ := Machine.kept_of_complete? hquiet.pending
    hotherCarries hotherCall hotherLookup hotherComplete (hunrelated.1.imp Ne.symm Ne.symm)
  have hfirst : session.step (.call runtime call) = _ :=
    hquiet.run_of_complete? hcall hlookup hcomplete
  have hsecond : session.step (.call other otherCall) = _ :=
    hquiet.run_of_complete? hotherCall hotherLookup hotherComplete
  have hfirstQuiet : ({ session with machine := machine } : Session).Quiet :=
    quiet_of_still hstill hquiet.still hquiet.retired
  have hsecondQuiet : ({ session with machine := otherMachine } : Session).Quiet :=
    quiet_of_still hotherStill hquiet.still hquiet.retired
  rw [← hcapacity] at hafter
  rw [← hotherCapacity] at hbefore
  rw [hfirst, hsecond]
  exact ⟨{ session with machine := last },
    hfirstQuiet.run_of_complete? hotherCall (hkept.trans hotherLookup) hafter,
    hsecondQuiet.run_of_complete? hcall (hotherKept.trans hlookup) hbefore⟩

/-! ## Unrelated operations commute -/

/-- Whatever was done before, operations on unrelated handles may be done in either order if no
call is under way and neither of them has to wait: each is answered alike in both orders, and
the state in the end is the same.  On the machine this is so however many bytes the network
moves at a time, and of the steps of a session nothing else is left different. -/
theorem unrelated_operations_commute
    (tree : FileTree) (routed : Bool) (capacity : Nat) (configurations : List Configuration)
    (steps : List Step) (events : List Event) :
    let session := (boot tree routed capacity configurations).afterAll steps
    let machine := (History.play ⟨session.machine, []⟩ events).machine
    (∀ space handle other otherHandle call otherCall amounts otherAmounts first second reply
        otherReply,
      machine.pending = [] → machine.Unrelated space handle other otherHandle →
        call.On handle → otherCall.On otherHandle →
          machine.complete? space call amounts = some (first, reply) →
            machine.complete? other otherCall otherAmounts = some (second, otherReply) →
              ∃ last,
                first.complete? other otherCall otherAmounts = some (last, otherReply) ∧
                  second.complete? space call amounts = some (last, reply)) ∧
      ∀ runtime handle other otherHandle call otherCall,
        session.Quiet →
          session.machine.Unrelated (session.spaceOf runtime) handle (session.spaceOf other)
            otherHandle →
            call.On handle → otherCall.On otherHandle →
              session.EndsAtOnce runtime call → session.EndsAtOnce other otherCall →
                let first := session.step (.call runtime call)
                let second := session.step (.call other otherCall)
                ∃ last,
                  first.1.step (.call other otherCall) = (last, second.2) ∧
                    second.1.step (.call runtime call) = (last, first.2) := by
  intro session machine
  have howned : session.machine.FullyOwned :=
    Machine.lasting_fullyOwned.afterAll steps
      (Machine.fullyOwned_boot tree routed capacity configurations)
  refine ⟨?_, ?_⟩
  · intro space handle other otherHandle call otherCall amounts otherAmounts first second reply
      otherReply hquiet hunrelated hcall hotherCall hcomplete hotherComplete
    exact hunrelated.complete?_comm (howned.play events) hquiet hcall hotherCall hcomplete
      hotherComplete
  · intro runtime handle other otherHandle call otherCall hquiet hunrelated hcall hotherCall hends
      hotherEnds
    exact hquiet.calls_commute howned hunrelated hcall hotherCall hends hotherEnds

/-- A file is read, and a connection of another runtime is closed while there are bytes left to
be read on it. -/
theorem reading_and_closing_commute :
    let configurations : List Configuration := [{}, { mode := .deferred }]
    let steps : List Step :=
      [.seed ⟨"kept"⟩ [1, 2], .call 0 (.open ⟨"kept"⟩ (some [.read])),
        .call 0 (.listen "127.0.0.1:8080"), .call 1 (.connect "127.0.0.1:8080"),
        .call 0 (.accept ⟨4⟩), .call 0 (.write ⟨5⟩ [3])]
    let session := (boot {} true 8 configurations).afterAll steps
    let first := session.step (.call 0 (.read ⟨3⟩))
    let second := session.step (.call 1 (.close ⟨3⟩))
    (session.Quiet ∧
        session.machine.Unrelated (session.spaceOf 0) ⟨3⟩ (session.spaceOf 1) ⟨3⟩ ∧
          session.EndsAtOnce 0 (.read ⟨3⟩) ∧ session.EndsAtOnce 1 (.close ⟨3⟩)) ∧
      (first.2 = .bytes [1, 2] ∧ second.2 = .done ∧
        first.1.machine ≠ session.machine ∧ second.1.machine ≠ session.machine) ∧
        ∃ last,
          first.1.step (.call 1 (.close ⟨3⟩)) = (last, second.2) ∧
            second.1.step (.call 0 (.read ⟨3⟩)) = (last, first.2) := by
  intro configurations steps session first second
  have hquiet : session.Quiet := ⟨by decide +kernel, by decide +kernel, by decide +kernel⟩
  have hunrelated :
      session.machine.Unrelated (session.spaceOf 0) ⟨3⟩ (session.spaceOf 1) ⟨3⟩ := by
    have hfile : session.machine.lookup (session.spaceOf 0) ⟨3⟩ = some (.file 0) := by
      decide +kernel
    have hconnection :
        session.machine.lookup (session.spaceOf 1) ⟨3⟩ = some (.connection 0) := by
      decide +kernel
    unfold Machine.Unrelated
    rw [hfile, hconnection]
    exact ⟨Or.inl (by decide +kernel), trivial⟩
  have hread : session.EndsAtOnce 0 (.read ⟨3⟩) := by
    unfold EndsAtOnce
    decide +kernel
  have hclose : session.EndsAtOnce 1 (.close ⟨3⟩) := by
    unfold EndsAtOnce
    decide +kernel
  refine ⟨⟨hquiet, hunrelated, hread, hclose⟩, by decide +kernel, ?_⟩
  exact (unrelated_operations_commute {} true 8 configurations steps []).2 0 ⟨3⟩ 1 ⟨3⟩
    (.read ⟨3⟩) (.close ⟨3⟩) hquiet hunrelated .read .close hread hclose

end Session

end ResourceHandles
