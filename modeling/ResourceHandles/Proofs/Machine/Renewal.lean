import ResourceHandles.Proofs.Machine.Belongings
import ResourceHandles.Proofs.Machine.Bindings

/-!
# Machines that differ in one space

One of two machines has put a new handle space in the place of an old one and has dropped that,
while the other has emptied the old space by closing all its handles.  From then on the spaces
of the two have different numbers, and so have their tickets, and what was let go was closed in
the one and not in the other.  Nothing else differs, and nothing that is done on the other
spaces makes a difference: it is answered alike, and leaves two machines that differ as before.
-/

namespace ResourceHandles

/-- How two machines differ of which the first has a new space in the place of an old one and
the second has emptied the old one: by the numbers of the two spaces, by the tickets that the
second has given more, and by the listeners and connections that both have let go. -/
structure Renewal where
  old : Nat
  fresh : Nat
  lag : Nat
  listeners : Set Nat
  connections : Set Nat
  older : old < fresh

namespace Renewal

/-! ## Numbers of spaces -/

/-- The number in the second machine of a space of the first. -/
def rename (renewal : Renewal) (space : Nat) : Nat :=
  if space = renewal.fresh then renewal.old
  else if space < renewal.fresh then space
  else space - 1

/-- A space that is in both machines. -/
structure Live (renewal : Renewal) (space : Nat) : Prop where
  ne_old : space ≠ renewal.old
  ne_fresh : space ≠ renewal.fresh

variable {renewal : Renewal} {first second : Machine} {space other : Nat}

theorem rename_of_lt (hlt : space < renewal.fresh) : renewal.rename space = space := by
  unfold rename
  rw [if_neg hlt.ne, if_pos hlt]

theorem rename_of_gt (hgt : renewal.fresh < space) : renewal.rename space = space - 1 := by
  unfold rename
  rw [if_neg hgt.ne', if_neg hgt.not_gt]

theorem rename_fresh (renewal : Renewal) : renewal.rename renewal.fresh = renewal.old := by
  unfold rename
  rw [if_pos rfl]

theorem rename_inj (hspace : space ≠ renewal.old) (hother : other ≠ renewal.old) :
    renewal.rename space = renewal.rename other ↔ space = other := by
  have holder := renewal.older
  unfold rename
  split_ifs <;> omega

theorem Live.rename_ne (hlive : renewal.Live space) : renewal.rename space ≠ renewal.old := by
  rw [← renewal.rename_fresh, Ne, rename_inj hlive.ne_old renewal.older.ne']
  exact hlive.ne_fresh

/-! ## What differs -/

/-- A resource that both machines have let go. -/
def Gone (renewal : Renewal) : Resource → Prop
  | .file _ => False
  | .listener number => number ∈ renewal.listeners
  | .connection number => number ∈ renewal.connections

/-- An action that needs nothing that was let go. -/
def Harmless (renewal : Renewal) (action : Action) : Prop :=
  ∀ resource, action.resource? = some resource → ¬renewal.Gone resource

/-- The action that waits in the second machine as one does in the first. -/
def pending (renewal : Renewal) (waiting : Pending) : Pending :=
  ⟨waiting.ticket + renewal.lag, renewal.rename waiting.space, waiting.action⟩

/-- What the start of a call leads to in the second machine. -/
def started (renewal : Renewal) : Started → Started
  | .answered reply => .answered reply
  | .waiting ticket => .waiting (ticket + renewal.lag)

/-- Two lists with the same entries, but for some old ones. -/
structure AgreeOff {α : Type} (gone : Set Nat) (first second : List α) : Prop where
  length : second.length = first.length
  entry : ∀ number, number ∉ gone → second[number]? = first[number]?
  older : ∀ number ∈ gone, number < first.length

/-- What holds of two machines that differ in one space. -/
structure Mirrors (renewal : Renewal) (first second : Machine) : Prop where
  tree : second.tree = first.tree
  network : second.network = first.network
  files : second.files = first.files
  listeners : AgreeOff renewal.listeners first.listeners second.listeners
  connections : AgreeOff renewal.connections first.connections second.connections
  spaces : first.spaces.length = second.spaces.length + 1
  renewed : renewal.fresh < first.spaces.length
  space : ∀ space, renewal.Live space → second.space (renewal.rename space) = first.space space
  fresh : (first.space renewal.fresh).table.size = 0
  emptied : (second.space renewal.old).table.size = 0
  bound :
    ∀ space, ∀ resource ∈ Machine.resourcesOf (first.space space).table, ¬renewal.Gone resource
  pending : second.pending = first.pending.map renewal.pending
  used : ∀ waiting ∈ first.pending, renewal.Live waiting.space ∧ renewal.Harmless waiting.action
  ticket : second.nextTicket = first.nextTicket + renewal.lag

/-- Two operations that give the same and leave two machines that differ as before. -/
structure Alike {α : Type} (renewal : Renewal) (first second : Machine × α) : Prop where
  mirrors : renewal.Mirrors first.1 second.1
  same : second.2 = first.2

namespace AgreeOff

variable {α : Type} {gone : Set Nat} {entries others : List α}

theorem append (hagree : AgreeOff gone entries others) (added : α) :
    AgreeOff gone (entries ++ [added]) (others ++ [added]) := by
  refine ⟨by simp [hagree.length], ?_, ?_⟩
  · intro number hnumber
    rw [List.getElem?_append, List.getElem?_append, hagree.length, hagree.entry number hnumber]
  · intro number hnumber
    rw [List.length_append]
    exact Nat.lt_add_right _ (hagree.older number hnumber)

theorem notMem_length (hagree : AgreeOff gone entries others) : entries.length ∉ gone :=
  fun hmem => lt_irrefl _ (hagree.older _ hmem)

theorem modify (hagree : AgreeOff gone entries others) (number : Nat) (change : α → α) :
    AgreeOff gone (entries.modify number change) (others.modify number change) := by
  refine ⟨by simp [hagree.length], ?_, ?_⟩
  · intro other hother
    rw [List.getElem?_modify, List.getElem?_modify, hagree.entry other hother]
  · intro other hother
    rw [List.length_modify]
    exact hagree.older other hother

end AgreeOff

end Renewal

theorem Machine.space_setTable
    (machine : Machine) (space other : Nat) (table : HandleTable Nat Nat Nat) :
    (machine.setTable space table).space other =
      if other = space ∧ space < machine.spaces.length then
        { machine.space space with table := table }
      else machine.space other := by
  by_cases hother : other = space
  · subst hother
    by_cases hspace : other < machine.spaces.length
    · rw [if_pos ⟨rfl, hspace⟩, machine.space_setTable_self table hspace]
    · rw [if_neg fun hboth => hspace hboth.2]
      simp [setTable, Machine.space, List.getD_eq_getElem?_getD, hspace]
  · rw [if_neg fun hboth => hother hboth.1, machine.space_setTable_of_ne table hother]

namespace Renewal.Mirrors

variable {renewal : Renewal} {first second : Machine} {space other number : Nat}
  {resource : Resource} {action : Action} {handle : Handle}

/-! ## Spaces and resources -/

theorem setTree (hmirrors : renewal.Mirrors first second) (tree : FileTree) :
    renewal.Mirrors { first with tree := tree } { second with tree := tree } :=
  { hmirrors with tree := rfl }

theorem setNetwork (hmirrors : renewal.Mirrors first second) (network : Network) :
    renewal.Mirrors { first with network := network } { second with network := network } :=
  { hmirrors with network := rfl }

theorem setFiles (hmirrors : renewal.Mirrors first second) (files : List OpenFile) :
    renewal.Mirrors { first with files := files } { second with files := files } :=
  { hmirrors with files := rfl }

theorem lt_length_iff
    (hmirrors : renewal.Mirrors first second) (hlive : renewal.Live space) :
    renewal.rename space < second.spaces.length ↔ space < first.spaces.length := by
  have hspaces := hmirrors.spaces
  have hrenewed := hmirrors.renewed
  have hfresh := hlive.ne_fresh
  unfold rename
  split_ifs <;> omega

theorem setTable
    {table : HandleTable Nat Nat Nat} (hmirrors : renewal.Mirrors first second)
    (hlive : renewal.Live space)
    (hbound : ∀ resource ∈ Machine.resourcesOf table, ¬renewal.Gone resource) :
    renewal.Mirrors (first.setTable space table)
      (second.setTable (renewal.rename space) table) :=
  { hmirrors with
    spaces := by
      rw [Machine.length_spaces_setTable, Machine.length_spaces_setTable, hmirrors.spaces]
    renewed := by
      rw [Machine.length_spaces_setTable]
      exact hmirrors.renewed
    space := by
      intro other hother
      simp only [Machine.space_setTable, rename_inj hother.ne_old hlive.ne_old,
        hmirrors.lt_length_iff hlive, hmirrors.space space hlive, hmirrors.space other hother]
    fresh := by
      rw [first.space_setTable_of_ne table hlive.ne_fresh.symm]
      exact hmirrors.fresh
    emptied := by
      rw [second.space_setTable_of_ne table hlive.rename_ne.symm]
      exact hmirrors.emptied
    bound := by
      intro other resource hmem
      rw [Machine.space_setTable] at hmem
      split at hmem
      · exact hbound resource hmem
      · exact hmirrors.bound other resource hmem }

theorem bindHandle
    (hmirrors : renewal.Mirrors first second) (hlive : renewal.Live space)
    (hkept : ¬renewal.Gone resource) :
    renewal.Alike (first.bindHandle space resource)
      (second.bindHandle (renewal.rename space) resource) := by
  unfold Machine.bindHandle
  rw [hmirrors.space space hlive]
  refine ⟨hmirrors.setTable hlive ?_, rfl⟩
  intro bound hmem
  rcases Machine.mem_resourcesOf_insert hmem with rfl | hold
  · exact hkept
  · exact hmirrors.bound space bound hold

theorem addFile
    (hmirrors : renewal.Mirrors first second) (hlive : renewal.Live space) (file : OpenFile) :
    renewal.Alike (first.addFile space file) (second.addFile (renewal.rename space) file) := by
  unfold Machine.addFile
  rw [hmirrors.files]
  exact bindHandle (hmirrors.setFiles (first.files ++ [file])) hlive id

theorem addListener
    (hmirrors : renewal.Mirrors first second) (hlive : renewal.Live space) (socket : Nat) :
    renewal.Alike (first.addListener space socket)
      (second.addListener (renewal.rename space) socket) := by
  have hgrown :
      renewal.Mirrors { first with listeners := first.listeners ++ [{ socket := socket }] }
        { second with listeners := second.listeners ++ [{ socket := socket }] } :=
    { hmirrors with listeners := hmirrors.listeners.append _ }
  unfold Machine.addListener
  rw [hmirrors.listeners.length]
  exact bindHandle hgrown hlive hmirrors.listeners.notMem_length

theorem addConnection
    (hmirrors : renewal.Mirrors first second) (hlive : renewal.Live space) (endId : EndId) :
    renewal.Alike (first.addConnection space endId)
      (second.addConnection (renewal.rename space) endId) := by
  let connection : Connection :=
    { endId := endId, bufferSize := (first.space space).configuration.bufferSize }
  have hgrown :
      renewal.Mirrors { first with connections := first.connections ++ [connection] }
        { second with connections := second.connections ++ [connection] } :=
    { hmirrors with connections := hmirrors.connections.append _ }
  unfold Machine.addConnection
  rw [hmirrors.space space hlive, hmirrors.connections.length]
  exact bindHandle hgrown hlive hmirrors.connections.notMem_length

theorem raiseSignal (hmirrors : renewal.Mirrors first second) (resource : Resource) :
    renewal.Mirrors (first.raiseSignal resource) (second.raiseSignal resource) := by
  cases resource with
  | file number => exact hmirrors
  | listener number => exact { hmirrors with listeners := hmirrors.listeners.modify _ _ }
  | connection number => exact { hmirrors with connections := hmirrors.connections.modify _ _ }

theorem unhold (hmirrors : renewal.Mirrors first second) (resource : Resource) :
    renewal.Mirrors (first.unhold resource) (second.unhold resource) := by
  cases resource with
  | file number => exact hmirrors
  | listener number => exact { hmirrors with listeners := hmirrors.listeners.modify _ _ }
  | connection number => exact { hmirrors with connections := hmirrors.connections.modify _ _ }

theorem isUsed_eq (hmirrors : renewal.Mirrors first second) (resource : Resource) :
    second.isUsed resource = first.isUsed resource := by
  unfold Machine.isUsed
  rw [hmirrors.pending, List.any_map]
  rfl

theorem letGo (hmirrors : renewal.Mirrors first second) (hkept : ¬renewal.Gone resource) :
    renewal.Mirrors (first.letGo resource) (second.letGo resource) := by
  unfold Machine.letGo
  rw [hmirrors.isUsed_eq]
  split
  · exact hmirrors
  · cases resource with
    | file number => exact hmirrors
    | listener number =>
        simp only [hmirrors.listeners.entry number hkept, hmirrors.network]
        cases first.listeners[number]? with
        | none => exact hmirrors
        | some listener =>
            dsimp only
            split
            · exact hmirrors
            · exact hmirrors.setNetwork _
    | connection number =>
        simp only [hmirrors.connections.entry number hkept, hmirrors.network]
        cases first.connections[number]? with
        | none => exact hmirrors
        | some connection =>
            dsimp only
            split
            · exact hmirrors
            · exact hmirrors.setNetwork _

theorem letGoOf (hmirrors : renewal.Mirrors first second) (hharmless : renewal.Harmless action) :
    renewal.Mirrors (first.letGoOf action) (second.letGoOf action) := by
  unfold Machine.letGoOf
  cases hresource : action.resource? with
  | none => exact hmirrors
  | some resource => exact hmirrors.letGo (hharmless resource hresource)

end Renewal.Mirrors

end ResourceHandles
