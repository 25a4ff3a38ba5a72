import ResourceHandles.Proofs.Machine.Renewal
import ResourceHandles.Proofs.Machine.Sound

/-!
# Calls on machines that differ in one space

A call on one of the other spaces is planned, started, advanced and given up alike on both
machines, and gets the same reply.  Spaces are added and dropped alike.
-/

namespace ResourceHandles

namespace Renewal.Mirrors

variable {renewal : Renewal} {first second : Machine} {space other number : Nat}
  {resource : Resource} {action : Action} {handle : Handle}

/-! ## Carrying out actions -/

theorem openFile
    (hmirrors : renewal.Mirrors first second) (hlive : renewal.Live space) (path : Path)
    (access : Access) :
    renewal.Alike (first.openFile space path access)
      (second.openFile (renewal.rename space) path access) := by
  unfold Machine.openFile
  rw [hmirrors.tree, hmirrors.space space hlive]
  cases first.tree.openPath path access with
  | error fault => exact ⟨hmirrors, rfl⟩
  | ok opened =>
      obtain ⟨tree, entry⟩ := opened
      let file : OpenFile := ⟨entry, access, (first.space space).configuration.bufferSize, 0⟩
      have hadded := addFile (hmirrors.setTree tree) hlive file
      exact ⟨hadded.mirrors, congrArg Reply.handle hadded.same⟩

theorem readFile (hmirrors : renewal.Mirrors first second) (handle : Handle) (number : Nat) :
    renewal.Alike (first.readFile handle number) (second.readFile handle number) := by
  unfold Machine.readFile
  rw [hmirrors.files, hmirrors.tree]
  cases first.files[number]? with
  | none => exact ⟨hmirrors, rfl⟩
  | some file =>
      dsimp only
      cases file.read first.tree with
      | error fault => exact ⟨hmirrors, rfl⟩
      | ok moved => exact ⟨{ hmirrors with tree := rfl, files := rfl }, rfl⟩

theorem writeFile
    (hmirrors : renewal.Mirrors first second) (handle : Handle) (number : Nat) (data : Bytes) :
    renewal.Alike (first.writeFile handle number data) (second.writeFile handle number data) := by
  unfold Machine.writeFile
  rw [hmirrors.files, hmirrors.tree]
  cases first.files[number]? with
  | none => exact ⟨hmirrors, rfl⟩
  | some file =>
      dsimp only
      cases file.write first.tree data with
      | error fault => exact ⟨hmirrors, rfl⟩
      | ok moved => exact ⟨{ hmirrors with tree := rfl, files := rfl }, rfl⟩

theorem unlink (hmirrors : renewal.Mirrors first second) (path : Path) :
    renewal.Alike (first.unlink path) (second.unlink path) := by
  unfold Machine.unlink
  rw [hmirrors.tree]
  cases first.tree.unlink path with
  | error fault => exact ⟨hmirrors, rfl⟩
  | ok tree => exact ⟨hmirrors.setTree tree, rfl⟩

theorem bindAt_eq
    (hmirrors : renewal.Mirrors first second) (mode : CallMode) (endpoint : Endpoint) :
    second.bindAt mode endpoint = first.bindAt mode endpoint := by
  unfold Machine.bindAt
  rw [hmirrors.network]

theorem reach_eq (hmirrors : renewal.Mirrors first second) (endpoint : Endpoint) :
    second.reach endpoint = first.reach endpoint := by
  unfold Machine.reach
  rw [hmirrors.network]

theorem listen
    (hmirrors : renewal.Mirrors first second) (hlive : renewal.Live space) (endpoint : Endpoint) :
    renewal.Alike (first.listen space endpoint)
      (second.listen (renewal.rename space) endpoint) := by
  unfold Machine.listen
  rw [hmirrors.space space hlive, hmirrors.bindAt_eq]
  cases first.bindAt (first.space space).configuration.mode endpoint with
  | error fault => exact ⟨hmirrors, rfl⟩
  | ok bound =>
      have hadded := addListener (hmirrors.setNetwork bound.1) hlive bound.2
      exact ⟨hadded.mirrors, congrArg Reply.handle hadded.same⟩

theorem connect
    (hmirrors : renewal.Mirrors first second) (hlive : renewal.Live space) (endpoint : Endpoint) :
    renewal.Alike (first.connect space endpoint)
      (second.connect (renewal.rename space) endpoint) := by
  unfold Machine.connect
  rw [hmirrors.reach_eq]
  cases first.reach endpoint with
  | error fault => exact ⟨hmirrors, rfl⟩
  | ok reached =>
      have hadded := addConnection (hmirrors.setNetwork reached.1) hlive reached.2
      exact ⟨hadded.mirrors, congrArg Reply.handle hadded.same⟩

theorem accept
    (hmirrors : renewal.Mirrors first second) (hlive : renewal.Live space)
    (hkept : number ∉ renewal.listeners) :
    renewal.Alike (first.accept space number)
      (second.accept (renewal.rename space) number) := by
  unfold Machine.accept
  rw [hmirrors.listeners.entry number hkept, hmirrors.network]
  cases first.listeners[number]? with
  | none => exact ⟨hmirrors, rfl⟩
  | some listener =>
      dsimp only
      split
      · exact ⟨hmirrors, rfl⟩
      · rcases first.network.accept listener.socket with ⟨network, endId | _ | fault⟩
        · have hadded := addConnection (hmirrors.setNetwork network) hlive endId
          exact ⟨hadded.mirrors,
            congrArg (fun handle => Progress.finished (.handle handle)) hadded.same⟩
        · exact ⟨hmirrors, rfl⟩
        · exact ⟨hmirrors, rfl⟩

theorem receive
    (hmirrors : renewal.Mirrors first second) (hkept : number ∉ renewal.connections)
    (handle : Handle) (amount : Nat) :
    renewal.Alike (first.receive handle number amount)
      (second.receive handle number amount) := by
  unfold Machine.receive
  rw [hmirrors.connections.entry number hkept, hmirrors.network]
  cases first.connections[number]? with
  | none => exact ⟨hmirrors, rfl⟩
  | some connection =>
      dsimp only
      split
      · exact ⟨hmirrors, rfl⟩
      · rcases first.network.receive connection.endId connection.bufferSize amount with
          ⟨network, data | _ | fault⟩
        · exact ⟨hmirrors.setNetwork network, rfl⟩
        · exact ⟨hmirrors, rfl⟩
        · exact ⟨hmirrors.setNetwork network, rfl⟩

theorem send
    (hmirrors : renewal.Mirrors first second) (hkept : number ∉ renewal.connections)
    (handle : Handle) (data : Bytes) (amount : Nat) :
    renewal.Alike (first.send handle number data amount)
      (second.send handle number data amount) := by
  unfold Machine.send
  rw [hmirrors.connections.entry number hkept, hmirrors.network]
  cases first.connections[number]? with
  | none => exact ⟨hmirrors, rfl⟩
  | some connection =>
      dsimp only
      split
      · exact ⟨hmirrors, rfl⟩
      · split
        · exact ⟨hmirrors, rfl⟩
        · rcases first.network.send connection.endId data amount with
            ⟨network, count | _ | fault⟩
          · exact ⟨hmirrors.setNetwork network, rfl⟩
          · exact ⟨hmirrors, rfl⟩
          · exact ⟨hmirrors.setNetwork network, rfl⟩

theorem endSending
    (hmirrors : renewal.Mirrors first second) (hkept : number ∉ renewal.connections) :
    renewal.Mirrors (first.endSending number) (second.endSending number) := by
  unfold Machine.endSending
  rw [hmirrors.connections.entry number hkept, hmirrors.network]
  cases first.connections[number]? with
  | none => exact hmirrors
  | some connection => exact hmirrors.setNetwork _

theorem finish
    {answered replied : Machine × Reply} (halike : renewal.Alike answered replied) :
    renewal.Alike (Machine.finish answered) (Machine.finish replied) :=
  ⟨halike.mirrors, congrArg Progress.finished halike.same⟩

/-- An action is carried out alike. -/
theorem perform
    (hmirrors : renewal.Mirrors first second) (hlive : renewal.Live space)
    (hharmless : renewal.Harmless action) (amount : Nat) :
    renewal.Alike (first.perform space amount action)
      (second.perform (renewal.rename space) amount action) := by
  cases action with
  | openFile path access => exact finish (hmirrors.openFile hlive path access)
  | closeFile file => exact ⟨hmirrors, rfl⟩
  | readFile handle file => exact finish (hmirrors.readFile handle file)
  | writeFile handle file data => exact finish (hmirrors.writeFile handle file data)
  | unlink path => exact finish (hmirrors.unlink path)
  | listen endpoint => exact finish (hmirrors.listen hlive endpoint)
  | connect endpoint => exact finish (hmirrors.connect hlive endpoint)
  | accept listener => exact hmirrors.accept hlive (hharmless _ rfl)
  | receive handle connection => exact hmirrors.receive (hharmless _ rfl) handle amount
  | send handle connection data => exact hmirrors.send (hharmless _ rfl) handle data amount
  | endSending connection => exact ⟨hmirrors.endSending (hharmless _ rfl), rfl⟩

/-- An action that goes on still needs nothing that was let go. -/
theorem harmless_of_continues
    {performed : Machine} {amount : Nat} {rest : Action} (hharmless : renewal.Harmless action)
    (hperform : first.perform space amount action = (performed, .continues rest)) :
    renewal.Harmless rest := by
  obtain ⟨handle, number, data, count, rfl, rfl⟩ :=
    (Machine.performed_of_perform hperform).continues
  exact hharmless

/-! ## Waiting actions -/

theorem park
    (hmirrors : renewal.Mirrors first second) (hlive : renewal.Live space)
    (hharmless : renewal.Harmless action) :
    renewal.Mirrors (first.park space action).1
      (second.park (renewal.rename space) action).1 :=
  { hmirrors with
    pending := by
      show second.pending ++ [_] = (first.pending ++ [_]).map renewal.pending
      rw [hmirrors.pending, hmirrors.ticket, List.map_append]
      rfl
    used := by
      intro waiting hmem
      rcases List.mem_append.mp hmem with hold | hnew
      · exact hmirrors.used waiting hold
      · rw [List.mem_singleton.mp hnew]
        exact ⟨hlive, hharmless⟩
    ticket := by
      show second.nextTicket + 1 = first.nextTicket + 1 + renewal.lag
      rw [hmirrors.ticket]
      omega }

theorem pending?_eq (hmirrors : renewal.Mirrors first second) (ticket : Nat) :
    second.pending? (ticket + renewal.lag) = (first.pending? ticket).map renewal.pending := by
  have htickets : ((fun waiting : Pending => waiting.ticket == ticket + renewal.lag) ∘
      renewal.pending) = fun waiting => waiting.ticket == ticket := by
    funext waiting
    simp [Renewal.pending]
  unfold Machine.pending?
  rw [hmirrors.pending, List.find?_map, htickets]

theorem inTurn_eq (hmirrors : renewal.Mirrors first second) (waiting : Pending) :
    second.inTurn (renewal.pending waiting) = first.inTurn waiting := by
  have haction : (renewal.pending waiting).action = waiting.action := rfl
  unfold Machine.inTurn
  rw [hmirrors.pending, haction]
  cases waiting.action.lane? with
  | none => rfl
  | some lane =>
      have hlanes : ((fun other : Pending => other.action.lane? == some lane) ∘
          renewal.pending) = fun other => other.action.lane? == some lane := rfl
      simp only [List.find?_map, hlanes]
      cases first.pending.find? fun other => other.action.lane? == some lane with
      | none => rfl
      | some found => simp [Renewal.pending]

theorem replace
    (hmirrors : renewal.Mirrors first second) (hharmless : renewal.Harmless action)
    (ticket : Nat) :
    renewal.Mirrors (first.replace ticket action)
      (second.replace (ticket + renewal.lag) action) :=
  { hmirrors with
    pending := by
      show second.pending.map _ = (first.pending.map _).map renewal.pending
      rw [hmirrors.pending, List.map_map, List.map_map]
      apply List.map_congr_left
      intro waiting _
      by_cases hticket : waiting.ticket = ticket <;> simp [Renewal.pending, hticket]
    used := by
      intro waiting hmem
      obtain ⟨old, hold, rfl⟩ := List.mem_map.mp hmem
      split
      · exact ⟨(hmirrors.used old hold).1, hharmless⟩
      · exact hmirrors.used old hold }

theorem forget
    {waiting : Pending} (hmirrors : renewal.Mirrors first second)
    (hharmless : renewal.Harmless waiting.action) :
    renewal.Mirrors (first.forget waiting) (second.forget (renewal.pending waiting)) := by
  have hshorter :
      renewal.Mirrors
        { first with
          pending := first.pending.filter fun other => other.ticket != waiting.ticket }
        { second with
          pending := second.pending.filter fun other =>
            other.ticket != (renewal.pending waiting).ticket } :=
    { hmirrors with
      pending := by
        have htickets : ((fun other : Pending =>
            other.ticket != (renewal.pending waiting).ticket) ∘ renewal.pending) =
              fun other => other.ticket != waiting.ticket := by
          funext other
          simp [Renewal.pending, bne]
        dsimp only
        rw [hmirrors.pending, List.filter_map, htickets]
      used := fun other hmem => hmirrors.used other (List.mem_of_mem_filter hmem) }
  exact letGoOf hshorter hharmless

theorem harmless_of_pending?
    {waiting : Pending} {ticket : Nat} (hmirrors : renewal.Mirrors first second)
    (hpending : first.pending? ticket = some waiting) :
    renewal.Live waiting.space ∧ renewal.Harmless waiting.action :=
  hmirrors.used waiting (List.mem_of_find?_eq_some hpending)

theorem abandon (hmirrors : renewal.Mirrors first second) (ticket : Nat) :
    renewal.Mirrors (first.abandon ticket) (second.abandon (ticket + renewal.lag)) := by
  unfold Machine.abandon
  rw [hmirrors.pending?_eq]
  cases hpending : first.pending? ticket with
  | none => exact hmirrors
  | some waiting => exact hmirrors.forget (hmirrors.harmless_of_pending? hpending).2

/-- A waiting action advances alike, or is in its place in both machines. -/
theorem advance?
    (hmirrors : renewal.Mirrors first second) (ticket amount : Nat) :
    Option.Rel renewal.Alike (first.advance? ticket amount)
      (second.advance? (ticket + renewal.lag) amount) := by
  unfold Machine.advance?
  rw [hmirrors.pending?_eq]
  cases hpending : first.pending? ticket with
  | none => exact .none
  | some waiting =>
      obtain ⟨hlive, hharmless⟩ := hmirrors.harmless_of_pending? hpending
      have hperformed := hmirrors.perform hlive hharmless amount
      simp only [Option.map_some, hmirrors.inTurn_eq]
      split
      · exact .none
      · have hspace : (renewal.pending waiting).space = renewal.rename waiting.space := rfl
        have haction : (renewal.pending waiting).action = waiting.action := rfl
        rw [hspace, haction]
        rcases hfirst : first.perform waiting.space amount waiting.action with ⟨performed, progress⟩
        rcases hsecond : second.perform (renewal.rename waiting.space) amount waiting.action with
          ⟨other, same⟩
        rw [hfirst, hsecond] at hperformed
        obtain ⟨hmirrored, rfl⟩ := hperformed
        cases same with
        | finished reply => exact .some ⟨hmirrored.forget hharmless, rfl⟩
        | continues rest =>
            exact .some ⟨hmirrored.replace (harmless_of_continues hharmless hfirst) ticket, rfl⟩
        | blocked => exact .none

/-! ## Starting calls -/

theorem kept_of_get?
    (hmirrors : renewal.Mirrors first second)
    (hget : (first.space space).table.get? handle = some resource) : ¬renewal.Gone resource :=
  hmirrors.bound space resource (Machine.mem_resourcesOf_of_get? hget)

theorem closingAction_harmless
    (hkept : ¬renewal.Gone resource) (haction : Machine.closingAction resource = some action) :
    renewal.Harmless action := by
  intro other hother
  cases resource with
  | file number =>
      cases haction
      cases hother
      exact id
  | listener number => cases haction
  | connection number =>
      cases haction
      cases hother
      exact hkept

/-- What a call leads to needs nothing that was let go. -/
theorem harmless_of_plan
    {planned : Machine} {call : Call} (hmirrors : renewal.Mirrors first second)
    (hplan : first.plan space call = (planned, .act action)) : renewal.Harmless action := by
  have hplanned := first.planned space call
  rw [hplan] at hplanned
  intro resource hresource
  cases hplanned with
  | free hcall hfree =>
      rw [hfree] at hresource
      cases hresource
  | fitting hsuspends hfound =>
      rcases Machine.resource?_of_leadsTo (Or.inr hfound) with hfree | hsame
      · rw [hfree] at hresource
        cases hresource
      · rw [hsame] at hresource
        obtain ⟨handle, -, hlookup⟩ := Machine.lookup_of_found hresource
        exact hmirrors.kept_of_get? hlookup
  | closing hbound haction hsuspends =>
      exact closingAction_harmless (hmirrors.kept_of_get? hbound) haction resource hresource

theorem plan_close
    (hmirrors : renewal.Mirrors first second) (hlive : renewal.Live space) (handle : Handle) :
    renewal.Alike (first.plan space (.close handle))
      (second.plan (renewal.rename space) (.close handle)) := by
  have hslot := HandleTable.remove_slot (first.space space).table handle
  have hshorter := Machine.resourcesOf_remove_subset (first.space space).table handle
  unfold Machine.plan
  rw [hmirrors.space space hlive]
  rcases hremove : (first.space space).table.remove handle with ⟨table, slot⟩
  rw [hremove] at hslot hshorter
  dsimp only at hslot
  cases slot with
  | none => simp only [hremove]; exact ⟨hmirrors, rfl⟩
  | some resource =>
      have hreleased :=
        ((hmirrors.setTable hlive fun resource hmem =>
          hmirrors.bound space resource (hshorter hmem)).raiseSignal resource).unhold resource
      have hkept := hmirrors.kept_of_get? hslot.symm
      simp only [hremove]
      split
      · exact ⟨hreleased, rfl⟩
      · exact ⟨hreleased.letGo hkept, rfl⟩

/-- A call is looked up alike. -/
theorem plan
    (hmirrors : renewal.Mirrors first second) (hlive : renewal.Live space) (call : Call) :
    renewal.Alike (first.plan space call) (second.plan (renewal.rename space) call) := by
  cases call with
  | close handle => exact hmirrors.plan_close hlive handle
  | «open» path flags => exact ⟨hmirrors, rfl⟩
  | unlink path => exact ⟨hmirrors, rfl⟩
  | read handle =>
      simp only [Machine.plan, hmirrors.space space hlive]
      split
      · exact ⟨hmirrors, rfl⟩
      · exact ⟨hmirrors, rfl⟩
      · exact ⟨hmirrors, rfl⟩
  | write handle data =>
      simp only [Machine.plan, hmirrors.space space hlive]
      split
      · exact ⟨hmirrors, rfl⟩
      · exact ⟨hmirrors, rfl⟩
      · exact ⟨hmirrors, rfl⟩
  | accept handle =>
      simp only [Machine.plan, hmirrors.space space hlive]
      split
      · exact ⟨hmirrors, rfl⟩
      · exact ⟨hmirrors, rfl⟩
  | listen address =>
      simp only [Machine.plan, hmirrors.space space hlive]
      split
      · exact ⟨hmirrors, rfl⟩
      · exact ⟨hmirrors, rfl⟩
  | connect address =>
      simp only [Machine.plan, hmirrors.space space hlive]
      split
      · exact ⟨hmirrors, rfl⟩
      · exact ⟨hmirrors, rfl⟩

theorem wait
    (hmirrors : renewal.Mirrors first second) (hlive : renewal.Live space)
    (hharmless : renewal.Harmless action) :
    renewal.Mirrors (first.wait space action).1
        (second.wait (renewal.rename space) action).1 ∧
      (second.wait (renewal.rename space) action).2 =
        renewal.started (first.wait space action).2 :=
  ⟨hmirrors.park hlive hharmless, congrArg Started.waiting hmirrors.ticket⟩

/-- A call is started alike. -/
theorem start
    (hmirrors : renewal.Mirrors first second) (hlive : renewal.Live space) (call : Call) :
    renewal.Mirrors (first.start space call).1
        (second.start (renewal.rename space) call).1 ∧
      (second.start (renewal.rename space) call).2 =
        renewal.started (first.start space call).2 := by
  have hplanned := hmirrors.plan hlive call
  unfold Machine.start
  rw [hmirrors.space space hlive]
  rcases hfirst : first.plan space call with ⟨planned, plan⟩
  rcases hsecond : second.plan (renewal.rename space) call with ⟨other, same⟩
  rw [hfirst, hsecond] at hplanned
  obtain ⟨hplanned, rfl⟩ := hplanned
  cases same with
  | answer reply => exact ⟨hplanned, rfl⟩
  | act action =>
      have hharmless := hmirrors.harmless_of_plan hfirst
      have hperformed := hplanned.perform hlive hharmless 0
      dsimp only
      split
      · exact hplanned.wait hlive hharmless
      · rcases hone : planned.perform space 0 action with ⟨performed, progress⟩
        rcases htwo : other.perform (renewal.rename space) 0 action with ⟨alike, equal⟩
        rw [hone, htwo] at hperformed
        obtain ⟨hmirrored, rfl⟩ := hperformed
        cases equal with
        | finished reply => exact ⟨hmirrored.letGoOf hharmless, rfl⟩
        | continues rest => exact hmirrored.wait hlive (harmless_of_continues hharmless hone)
        | blocked => exact hmirrored.wait hlive hharmless

/-! ## Adding and dropping spaces -/

/-- A new space has numbers that correspond. -/
theorem addSpace (hmirrors : renewal.Mirrors first second) (configuration : Configuration) :
    renewal.Mirrors (first.addSpace configuration).1 (second.addSpace configuration).1 ∧
      renewal.Live (first.addSpace configuration).2 ∧
        (second.addSpace configuration).2 = renewal.rename (first.addSpace configuration).2 := by
  have hspaces := hmirrors.spaces
  have hrenewed := hmirrors.renewed
  have holder := renewal.older
  have hlive : renewal.Live first.spaces.length := ⟨by omega, by omega⟩
  have hnumber : second.spaces.length = renewal.rename first.spaces.length := by
    unfold rename
    split_ifs <;> omega
  refine ⟨?_, hlive, hnumber⟩
  exact
    { hmirrors with
      spaces := by
        show (first.spaces ++ [_]).length = (second.spaces ++ [_]).length + 1
        simp [hspaces]
      renewed := by
        show _ < (first.spaces ++ [_]).length
        simp only [List.length_append]
        omega
      space := by
        intro space hspace
        simp only [Machine.space_addSpace, hnumber, rename_inj hspace.ne_old hlive.ne_old,
          hmirrors.space space hspace]
      fresh := by
        rw [Machine.space_addSpace, if_neg hrenewed.ne]
        exact hmirrors.fresh
      emptied := by
        rw [Machine.space_addSpace, if_neg (by omega)]
        exact hmirrors.emptied
      bound := by
        intro space resource hmem
        rw [Machine.space_addSpace] at hmem
        split at hmem
        · cases hmem
        · exact hmirrors.bound space resource hmem }

theorem dropAll
    {resources : List Resource} (hmirrors : renewal.Mirrors first second)
    (hkept : ∀ resource ∈ resources, ¬renewal.Gone resource) :
    renewal.Mirrors (resources.foldl Machine.drop first) (resources.foldl Machine.drop second) := by
  induction resources generalizing first second with
  | nil => exact hmirrors
  | cons resource resources ih =>
      apply ih ((hmirrors.unhold resource).letGo (hkept resource List.mem_cons_self))
      exact fun later hlater => hkept later (List.mem_cons_of_mem _ hlater)

theorem dropSpace (hmirrors : renewal.Mirrors first second) (hlive : renewal.Live space) :
    renewal.Mirrors (first.dropSpace space) (second.dropSpace (renewal.rename space)) := by
  unfold Machine.dropSpace
  rw [hmirrors.space space hlive]
  apply dropAll _ (hmirrors.bound space)
  apply hmirrors.setTable hlive
  intro resource hmem
  cases hmem

end Renewal.Mirrors

end ResourceHandles
