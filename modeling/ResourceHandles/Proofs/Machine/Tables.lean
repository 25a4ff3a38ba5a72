import ResourceHandles.Proofs.Machine.Transitions

/-!
# Tables of a running machine

A transition changes the table of a handle space in one of two ways: it binds
the next handle, which its record hands out, or it unbinds a handle, which its
record takes.  All other transitions leave all tables alone.
-/

namespace ResourceHandles

/-! ## What records hand out and take -/

/-- The handle that comes of carrying out an action. -/
def Progress.newHandle? : Progress → Option Handle
  | .finished reply => reply.newHandle?
  | _ => none

/-- The handle that a record hands out in a space. -/
def Record.handedOut? (space : Nat) : Record → Option Handle
  | .started owner _ _ (.answered reply) => if owner = space then reply.newHandle? else none
  | .advanced pending (some reply) => if pending.space = space then reply.newHandle? else none
  | _ => none

/-- The handle that a record takes out of the table of a space. -/
def Record.taken? (space : Nat) : Record → Option Handle
  | .started owner (.close handle) (some _) _ => if owner = space then some handle else none
  | _ => none

namespace Machine

/-! ## Handle spaces -/

theorem space_congr
    {machine other : Machine} (hspaces : other.spaces = machine.spaces) (space : Nat) :
    other.space space = machine.space space := by
  unfold Machine.space
  rw [hspaces]

@[simp] theorem length_spaces_setTable
    (machine : Machine) (space : Nat) (table : HandleTable Nat Nat Nat) :
    (machine.setTable space table).spaces.length = machine.spaces.length := by
  simp [setTable]

theorem space_setTable_self
    (machine : Machine) {space : Nat} (table : HandleTable Nat Nat Nat)
    (hspace : space < machine.spaces.length) :
    (machine.setTable space table).space space =
      { machine.space space with table := table } := by
  simp [setTable, Machine.space, List.getD_eq_getElem?_getD, hspace]

theorem space_setTable_of_ne
    (machine : Machine) {space other : Nat} (table : HandleTable Nat Nat Nat)
    (hne : other ≠ space) :
    (machine.setTable space table).space other = machine.space other := by
  simp [setTable, Machine.space, List.getD_eq_getElem?_getD, Ne.symm hne]

theorem configuration_setTable
    (machine : Machine) (space other : Nat) (table : HandleTable Nat Nat Nat) :
    ((machine.setTable space table).space other).configuration =
      (machine.space other).configuration := by
  by_cases hne : other = space
  · subst hne
    by_cases hspace : other < machine.spaces.length
    · rw [machine.space_setTable_self table hspace]
    · simp [setTable, Machine.space, List.getD_eq_getElem?_getD, hspace]
  · rw [machine.space_setTable_of_ne table hne]

theorem space_addSpace (machine : Machine) (configuration : Configuration) (space : Nat) :
    (machine.addSpace configuration).1.space space =
      if space = machine.spaces.length then { configuration := configuration }
      else machine.space space := by
  unfold Machine.addSpace Machine.space
  simp only [List.getD_eq_getElem?_getD, List.getElem?_append]
  split_ifs with hlt hlast hlast
  · omega
  · rfl
  · subst hlast
    simp
  · rw [List.getElem?_eq_none (by simp; omega), List.getElem?_eq_none (by omega)]

/-! ## Operations that leave the tables alone -/

@[simp] theorem spaces_letGo (machine : Machine) (resource : Resource) :
    (machine.letGo resource).spaces = machine.spaces := by
  rw [letGo_eq]

@[simp] theorem spaces_forget (machine : Machine) (pending : Pending) :
    (machine.forget pending).spaces = machine.spaces := by
  rw [forget_eq]

@[simp] theorem spaces_replace (machine : Machine) (ticket : Nat) (action : Action) :
    (machine.replace ticket action).spaces = machine.spaces := rfl

@[simp] theorem spaces_park (machine : Machine) (space : Nat) (action : Action) :
    (machine.park space action).1.spaces = machine.spaces := rfl

@[simp] theorem spaces_unbind
    (machine : Machine) (space : Nat) (handle : Handle) (resource : Resource) :
    (machine.unbind space handle resource).spaces =
      (machine.setTable space ((machine.space space).table.remove handle).1).spaces := by
  unfold unbind release
  cases resource <;> rfl

@[simp] theorem spaces_drop (machine : Machine) (resource : Resource) :
    (machine.drop resource).spaces = machine.spaces := by
  unfold drop
  rw [spaces_letGo]
  cases resource with
  | file number => rfl
  | listener number => rfl
  | connection number => rfl

theorem space_unbind_self
    (machine : Machine) {space : Nat} (handle : Handle) (resource : Resource)
    (hspace : space < machine.spaces.length) :
    (machine.unbind space handle resource).space space =
      { machine.space space with table := ((machine.space space).table.remove handle).1 } := by
  rw [space_congr (machine.spaces_unbind space handle resource),
    space_setTable_self _ _ hspace]

theorem space_unbind_of_ne
    (machine : Machine) {space other : Nat} (handle : Handle) (resource : Resource)
    (hne : other ≠ space) :
    (machine.unbind space handle resource).space other = machine.space other := by
  rw [space_congr (machine.spaces_unbind space handle resource),
    space_setTable_of_ne _ _ hne]

/-! ## Carrying out an action -/

/-- How carrying out an action may change the spaces and the connections: not at
all, or by binding the handle that it ends with.  A new connection is bound under
its number. -/
inductive Binds (machine : Machine) (space : Nat) :
    List HandleSpace → List Connection → Progress → Prop where
  | nothing {progress : Progress}
      (hreply : ∀ reply, progress = .finished reply → reply.newHandle? = none) :
      Binds machine space machine.spaces machine.connections progress
  | other {resource : Resource} (hother : ∀ number, resource ≠ .connection number) :
      Binds machine space (machine.bindHandle space resource).1.spaces machine.connections
        (.finished (.handle ⟨(machine.space space).table.next⟩))
  | connection (endId : EndId) :
      Binds machine space
        (machine.bindHandle space (.connection machine.connections.length)).1.spaces
        (machine.connections ++
          [{ endId := endId, bufferSize := (machine.space space).configuration.bufferSize }])
        (.finished (.handle ⟨(machine.space space).table.next⟩))

theorem binds_of_reply
    {machine : Machine} {space : Nat} {reply : Reply} (hreply : reply.newHandle? = none) :
    machine.Binds space machine.spaces machine.connections (.finished reply) := by
  apply Binds.nothing
  intro other hother
  cases hother
  exact hreply

theorem bindHandle_handle (machine : Machine) (space : Nat) (resource : Resource) :
    (machine.bindHandle space resource).2 = ⟨(machine.space space).table.next⟩ :=
  HandleTable.insert_handle _ _

theorem bindHandle_congr
    {machine grown : Machine} (hspaces : grown.spaces = machine.spaces)
    (space : Nat) (resource : Resource) :
    (grown.bindHandle space resource).1.spaces = (machine.bindHandle space resource).1.spaces ∧
      (grown.bindHandle space resource).2 = ⟨(machine.space space).table.next⟩ := by
  have hspace := space_congr hspaces space
  constructor
  · unfold bindHandle setTable
    rw [hspace, hspaces]
  · rw [bindHandle_handle, hspace]

theorem binds_addConnection
    {machine grown : Machine} (hspaces : grown.spaces = machine.spaces)
    (hconnections : grown.connections = machine.connections) (space : Nat) (endId : EndId) :
    machine.Binds space (grown.addConnection space endId).1.spaces
      (grown.addConnection space endId).1.connections
      (.finished (.handle (grown.addConnection space endId).2)) := by
  have hspace := space_congr hspaces space
  obtain ⟨hbound, hhandle⟩ :=
    bindHandle_congr hspaces space (.connection grown.connections.length)
  have hgrown :
      (grown.addConnection space endId).1.connections =
        machine.connections ++
          [{ endId := endId, bufferSize := (machine.space space).configuration.bufferSize }] := by
    rw [← hconnections, ← hspace]
    rfl
  have hspaces' :
      (grown.addConnection space endId).1.spaces =
        (machine.bindHandle space (.connection machine.connections.length)).1.spaces := by
    rw [← hconnections]
    exact hbound
  have hhandle' :
      (grown.addConnection space endId).2 = ⟨(machine.space space).table.next⟩ := hhandle
  rw [hgrown, hspaces', hhandle']
  exact Binds.connection endId

theorem binds_addFile
    {machine grown : Machine} (hspaces : grown.spaces = machine.spaces)
    (hconnections : grown.connections = machine.connections) (space : Nat) (file : OpenFile) :
    machine.Binds space (grown.addFile space file).1.spaces
      (grown.addFile space file).1.connections
      (.finished (.handle (grown.addFile space file).2)) := by
  have hother : ∀ number, (.file grown.files.length : Resource) ≠ .connection number := by simp
  have hbinds : machine.Binds space _ _ _ := Binds.other hother
  obtain ⟨hbound, hhandle⟩ := bindHandle_congr hspaces space (.file grown.files.length)
  rw [← hbound, ← hhandle, ← hconnections] at hbinds
  exact hbinds

theorem binds_addListener
    {machine grown : Machine} (hspaces : grown.spaces = machine.spaces)
    (hconnections : grown.connections = machine.connections) (space socket : Nat) :
    machine.Binds space (grown.addListener space socket).1.spaces
      (grown.addListener space socket).1.connections
      (.finished (.handle (grown.addListener space socket).2)) := by
  have hother : ∀ number, (.listener grown.listeners.length : Resource) ≠ .connection number := by
    simp
  have hbinds : machine.Binds space _ _ _ := Binds.other hother
  obtain ⟨hbound, hhandle⟩ :=
    bindHandle_congr hspaces space (.listener grown.listeners.length)
  rw [← hbound, ← hhandle, ← hconnections] at hbinds
  exact hbinds

/-- Every action binds what it hands out, and nothing else. -/
theorem Performed.binds
    {machine next : Machine} {space amount : Nat} {action : Action} {progress : Progress}
    (hperformed : machine.Performed space amount action next progress) :
    machine.Binds space next.spaces next.connections progress := by
  cases hperformed with
  | idle hlane hreply => exact binds_of_reply hreply
  | @opened path access tree file => exact binds_addFile rfl rfl space file
  | @listening endpoint network socket hbind => exact binds_addListener rfl rfl space socket
  | @connected endpoint network endId hreach => exact binds_addConnection rfl rfl space endId
  | @accepted number listener network endId htake =>
      exact binds_addConnection rfl rfl space endId
  | received hconnection hraised hreceive => exact binds_of_reply rfl
  | unreceived hconnection hreceive => exact binds_of_reply rfl
  | receiverGone hgone => exact binds_of_reply rfl
  | sent hconnection hraised hsend =>
      split
      · exact binds_of_reply rfl
      · exact Binds.nothing (by simp)
  | unsent hconnection hsend => exact binds_of_reply rfl
  | senderGone hgone => exact binds_of_reply rfl
  | ended =>
      unfold endSending
      split
      · exact binds_of_reply rfl
      · exact binds_of_reply rfl
  | blocked => exact Binds.nothing (by simp)

/-! ## Transitions -/

/-- What a transition does to one table, with the handle that it hands out and
the one that it takes. -/
inductive TableChange (table : HandleTable Nat Nat Nat) :
    HandleTable Nat Nat Nat → Option Handle → Option Handle → Prop where
  | same : TableChange table table none none
  | bound (resource : Resource) :
      TableChange table (table.insert resource).1 (some ⟨table.next⟩) none
  | unbound {handle : Handle} {resource : Resource}
      (hbound : table.get? handle = some resource) :
      TableChange table (table.remove handle).1 none (some handle)

theorem newHandle?_next
    {table : HandleTable Nat Nat Nat} (hgood : table.WellFormed) :
    (Reply.handle ⟨table.next⟩).newHandle? = some ⟨table.next⟩ := by
  have hvalid : (⟨table.next⟩ : Handle) ≠ .invalid := by
    intro hinvalid
    have hraw : table.next = -1 := congrArg Handle.raw hinvalid
    have hfirst := hgood.first_le_next
    unfold firstHandle at hfirst
    omega
  simp [Reply.newHandle?, hvalid]

theorem tableChange_bindHandle
    {machine next : Machine} {owner : Nat} {resource : Resource} {space : Nat}
    (hspaces : next.spaces = (machine.bindHandle owner resource).1.spaces)
    (hspace : space < machine.spaces.length)
    (hgood : (machine.space space).table.WellFormed) :
    TableChange (machine.space space).table (next.space space).table
      (if owner = space then
        (Progress.finished (.handle ⟨(machine.space owner).table.next⟩)).newHandle?
      else none) none := by
  have hnext :
      next.space space =
        (machine.setTable owner ((machine.space owner).table.insert resource).1).space space :=
    space_congr hspaces space
  rw [hnext]
  by_cases howner : owner = space
  · subst howner
    have hhanded :
        (Progress.finished (.handle ⟨(machine.space owner).table.next⟩)).newHandle? =
          some ⟨(machine.space owner).table.next⟩ :=
      newHandle?_next hgood
    rw [machine.space_setTable_self _ hspace, if_pos rfl, hhanded]
    exact TableChange.bound resource
  · rw [machine.space_setTable_of_ne _ (Ne.symm howner), if_neg howner]
    exact TableChange.same

theorem Binds.tableChange
    {machine next : Machine} {owner : Nat} {connections : List Connection} {progress : Progress}
    {space : Nat}
    (hbinds : machine.Binds owner next.spaces connections progress)
    (hspace : space < machine.spaces.length)
    (hgood : (machine.space space).table.WellFormed) :
    TableChange (machine.space space).table (next.space space).table
      (if owner = space then progress.newHandle? else none) none := by
  generalize hspaces : next.spaces = spaces at hbinds
  cases hbinds with
  | nothing hreply =>
      rw [space_congr hspaces]
      have hnone : progress.newHandle? = none := by
        cases progress with
        | finished reply => exact hreply reply rfl
        | continues rest => rfl
        | blocked => rfl
      rw [hnone, ite_self]
      exact TableChange.same
  | other hother => exact tableChange_bindHandle hspaces hspace hgood
  | connection endId => exact tableChange_bindHandle hspaces hspace hgood

theorem tableChange_unbind
    {machine next : Machine} {owner : Nat} {handle : Handle} {resource : Resource} {space : Nat}
    {result : Started}
    (hspaces : next.spaces = (machine.unbind owner handle resource).spaces)
    (hspace : space < machine.spaces.length)
    (hbound : (machine.space owner).table.get? handle = some resource)
    (hresult : ∀ reply, result = .answered reply → reply.newHandle? = none) :
    TableChange (machine.space space).table (next.space space).table
      ((Record.started owner (.close handle) (some resource) result).handedOut? space)
      ((Record.started owner (.close handle) (some resource) result).taken? space) := by
  have hnext :
      next.space space =
        (machine.setTable owner ((machine.space owner).table.remove handle).1).space space := by
    apply space_congr
    rw [hspaces, spaces_unbind]
  have hhanded :
      (Record.started owner (.close handle) (some resource) result).handedOut? space = none := by
    cases result with
    | waiting ticket => rfl
    | answered reply => simp [Record.handedOut?, hresult reply rfl]
  rw [hnext, hhanded]
  by_cases howner : owner = space
  · subst howner
    rw [machine.space_setTable_self _ hspace]
    have htaken :
        (Record.started owner (.close handle) (some resource) result).taken? owner =
          some handle := by
      simp [Record.taken?]
    rw [htaken]
    exact TableChange.unbound hbound
  · rw [machine.space_setTable_of_ne _ (Ne.symm howner)]
    have htaken :
        (Record.started owner (.close handle) (some resource) result).taken? space =
          none := by
      simp [Record.taken?, howner]
    rw [htaken]
    exact TableChange.same

theorem taken?_eq_none
    {owner : Nat} {call : Call} {found : Option Resource} {result : Started}
    (hclose : ∀ handle, call = .close handle → found = none) (space : Nat) :
    (Record.started owner call found result).taken? space = none := by
  unfold Record.taken?
  split
  · next owner handle resource result hrecord =>
      cases hrecord
      exact absurd (hclose handle rfl) (by simp)
  · rfl

theorem close_of_leadsTo
    {call : Call} {found : Option Resource} {action : Action}
    (hleads : call.LeadsTo found action) :
    ∀ handle, call = .close handle → found = none := by
  intro handle hcall
  subst hcall
  rcases hleads with hfree | hfits
  · cases hfree.1
  · cases hfits

/-- A transition changes the table of a space as its record says. -/
theorem Transition.tableChange
    {machine next : Machine} {record : Record} {space : Nat}
    (htransition : machine.Transition record next)
    (hspace : space < machine.spaces.length)
    (hgood : (machine.space space).table.WellFormed) :
    TableChange (machine.space space).table (next.space space).table
      (record.handedOut? space) (record.taken? space) := by
  cases htransition with
  | refused howner hfound hclose hreply =>
      rw [taken?_eq_none hclose]
      simp only [Record.handedOut?, hreply, ite_self]
      exact TableChange.same
  | parked howner hleads =>
      rw [taken?_eq_none (close_of_leadsTo hleads)]
      exact TableChange.same
  | @performed owner call action performed reply howner hcall hfree hperform =>
      have hbinds := (performed_of_perform hperform).binds
      rw [taken?_eq_none (close_of_leadsTo (Or.inl ⟨hcall, hfree⟩))]
      exact hbinds.tableChange hspace hgood
  | closed howner hbound =>
      apply tableChange_unbind (spaces_letGo _ _) hspace hbound
      intro reply hreply
      cases hreply
      rfl
  | closing howner hbound haction =>
      apply tableChange_unbind (spaces_park _ _ _) hspace hbound
      intro reply hreply
      cases hreply
  | @finished pending amount performed reply hpending hturn hperform =>
      have hbinds := (performed_of_perform hperform).binds
      rw [space_congr (spaces_forget performed pending)]
      exact hbinds.tableChange hspace hgood
  | @continued pending amount performed rest hpending hturn hperform =>
      have hbinds := (performed_of_perform hperform).binds
      have hchange := hbinds.tableChange hspace hgood
      rw [space_congr (spaces_replace performed pending.ticket rest)]
      have hnone : (Progress.continues rest).newHandle? = none := rfl
      rw [hnone, ite_self] at hchange
      exact hchange
  | abandoned hpending =>
      rw [space_congr (spaces_forget machine _)]
      exact TableChange.same
  | exhausted _ => exact TableChange.same

/-! ## Spaces along a run -/

theorem Binds.length_spaces
    {machine : Machine} {space : Nat} {spaces : List HandleSpace}
    {connections : List Connection} {progress : Progress}
    (hbinds : machine.Binds space spaces connections progress) :
    spaces.length = machine.spaces.length := by
  cases hbinds with
  | nothing hreply => rfl
  | other hother => exact machine.length_spaces_setTable _ _
  | connection endId => exact machine.length_spaces_setTable _ _

theorem Change.length_spaces {machine next : Machine} (hchange : machine.Change next) :
    next.spaces.length = machine.spaces.length := by
  cases hchange with
  | same => rfl
  | parked hleads => rfl
  | performed hfree hperform => exact (performed_of_perform hperform).binds.length_spaces
  | closed hbound => rw [spaces_letGo, spaces_unbind, length_spaces_setTable]
  | closing hbound haction => rw [spaces_park, spaces_unbind, length_spaces_setTable]
  | finished hpending hperform =>
      rw [spaces_forget]
      exact (performed_of_perform hperform).binds.length_spaces
  | continued hpending hperform =>
      rw [spaces_replace]
      exact (performed_of_perform hperform).binds.length_spaces
  | abandoned hpending => rw [spaces_forget]
  | exhausted _ => rfl

theorem Transition.length_spaces
    {machine next : Machine} {record : Record}
    (htransition : machine.Transition record next) :
    next.spaces.length = machine.spaces.length :=
  htransition.change.length_spaces

end Machine

end ResourceHandles
