import ResourceHandles.Proofs.Machine.Alone
import ResourceHandles.Proofs.Network.Modeless

/-!
# A machine without its modes

The mode of a runtime says how its calls are carried out, and how many links may wait in the
sockets that it makes.  So what is left of a machine without modes is treated alike by all
operations, but for a connect to a socket in which more links wait than some mode allows.
-/

namespace ResourceHandles

def Configuration.modeless (configuration : Configuration) : Configuration :=
  { configuration with mode := .preResolved }

def HandleSpace.modeless (space : HandleSpace) : HandleSpace :=
  { space with configuration := space.configuration.modeless }

namespace Machine

variable {machine : Machine} {space : Nat}

/-- The machine with all runtimes and all listening sockets in one mode. -/
def modeless (machine : Machine) : Machine :=
  { machine with
    network := machine.network.modeless
    spaces := machine.spaces.map HandleSpace.modeless }

/-- Whether a connect to an endpoint finds room there, if anybody listens, in any mode. -/
def roomAt (machine : Machine) (endpoint : Endpoint) : Bool :=
  (IpAddress.ofHost? endpoint.host).all fun host => machine.network.hasRoom host endpoint.port

/-- Whether a connect of a runtime to an address finds room there, if anybody listens, in any
mode. -/
def hasRoom (machine : Machine) (space : Nat) (address : String) : Bool :=
  (Endpoint.parse? address (machine.space space).configuration.wildcardHost).all machine.roomAt

/-! ## Spaces -/

@[simp] theorem space_modeless (machine : Machine) (space : Nat) :
    machine.modeless.space space = (machine.space space).modeless := by
  unfold Machine.space modeless
  rw [List.getD_eq_getElem?_getD, List.getD_eq_getElem?_getD, List.getElem?_map]
  cases machine.spaces[space]? with
  | none => rfl
  | some owner => rfl

theorem lookup_modeless (machine : Machine) (space : Nat) (handle : Handle) :
    machine.modeless.lookup space handle = machine.lookup space handle := by
  unfold lookup
  rw [space_modeless]
  rfl

theorem roomAt_modeless (machine : Machine) (endpoint : Endpoint) :
    machine.modeless.roomAt endpoint = machine.roomAt endpoint := by
  unfold roomAt
  rw [show machine.modeless.network = machine.network.modeless from rfl]
  simp only [Network.hasRoom_modeless]

theorem hasRoom_modeless (machine : Machine) (space : Nat) (address : String) :
    machine.modeless.hasRoom space address = machine.hasRoom space address := by
  unfold hasRoom
  rw [space_modeless, funext machine.roomAt_modeless]
  rfl

theorem modeless_setTable
    (machine : Machine) (space : Nat) (table : HandleTable Nat Nat Nat) :
    (machine.setTable space table).modeless = machine.modeless.setTable space table := by
  let retable (owner : HandleSpace) : HandleSpace := { owner with table := table }
  have hretable : ∀ owner, (retable owner).modeless = retable owner.modeless := fun _ => rfl
  unfold modeless setTable
  rw [show (machine.spaces.modify space fun owner => { owner with table := table }) =
    machine.spaces.modify space retable from rfl, map_modify_comm hretable]

theorem modeless_addSpace (machine : Machine) (configuration : Configuration) :
    (machine.addSpace configuration).1.modeless =
      (machine.modeless.addSpace configuration.modeless).1 := by
  unfold modeless addSpace
  rw [List.map_append]
  rfl

theorem modeless_bindHandle (machine : Machine) (space : Nat) (resource : Resource) :
    machine.modeless.bindHandle space resource =
      ((machine.bindHandle space resource).1.modeless, (machine.bindHandle space resource).2) := by
  unfold bindHandle
  rw [space_modeless, modeless_setTable]
  rfl

/-! ## Actions -/

theorem modeless_addFile (machine : Machine) (space : Nat) (file : OpenFile) :
    machine.modeless.addFile space file =
      ((machine.addFile space file).1.modeless, (machine.addFile space file).2) :=
  modeless_bindHandle { machine with files := machine.files ++ [file] } space
    (.file machine.files.length)

theorem modeless_addListener (machine : Machine) (space socket : Nat) :
    machine.modeless.addListener space socket =
      ((machine.addListener space socket).1.modeless, (machine.addListener space socket).2) :=
  modeless_bindHandle
    { machine with listeners := machine.listeners ++ [{ socket := socket }] } space
    (.listener machine.listeners.length)

theorem modeless_addConnection (machine : Machine) (space : Nat) (endId : EndId) :
    machine.modeless.addConnection space endId =
      ((machine.addConnection space endId).1.modeless,
        (machine.addConnection space endId).2) := by
  unfold addConnection
  rw [space_modeless]
  exact modeless_bindHandle
    { machine with
      connections := machine.connections ++
        [{ endId := endId, bufferSize := (machine.space space).configuration.bufferSize }] }
    space (.connection machine.connections.length)

theorem modeless_openFile
    (machine : Machine) (space : Nat) (path : Path) (access : Access) :
    machine.modeless.openFile space path access =
      ((machine.openFile space path access).1.modeless,
        (machine.openFile space path access).2) := by
  unfold openFile
  rw [space_modeless, show machine.modeless.tree = machine.tree from rfl]
  split
  · rfl
  · next tree entry hopen =>
      have hadded :=
        modeless_addFile { machine with tree := tree } space
          ⟨entry, access, (machine.space space).configuration.bufferSize, 0⟩
      exact congrArg (fun added : Machine × Handle => (added.1, Reply.handle added.2)) hadded

theorem modeless_listen (machine : Machine) (space : Nat) (endpoint : Endpoint) :
    machine.modeless.listen space endpoint =
      ((machine.listen space endpoint).1.modeless, (machine.listen space endpoint).2) := by
  have hbind : ∀ mode, machine.modeless.bindAt .preResolved endpoint =
      (machine.bindAt mode endpoint).map fun bound => (bound.1.modeless, bound.2) := by
    intro mode
    unfold bindAt
    split
    · rfl
    · exact machine.network.bind_modeless mode _ _
  unfold listen
  rw [space_modeless,
    show (machine.space space).modeless.configuration.mode = .preResolved from rfl,
    hbind (machine.space space).configuration.mode]
  cases machine.bindAt (machine.space space).configuration.mode endpoint with
  | error fault => rfl
  | ok bound =>
      have hadded := modeless_addListener { machine with network := bound.1 } space bound.2
      exact congrArg (fun added : Machine × Handle => (added.1, Reply.handle added.2)) hadded

theorem modeless_connect {endpoint : Endpoint} (hroom : machine.roomAt endpoint = true) :
    machine.modeless.connect space endpoint =
      ((machine.connect space endpoint).1.modeless, (machine.connect space endpoint).2) := by
  have hreach : machine.modeless.reach endpoint =
      (machine.reach endpoint).map fun reached => (reached.1.modeless, reached.2) := by
    unfold reach
    split
    · rfl
    · next host hhost =>
        unfold roomAt at hroom
        rw [hhost, Option.all_some] at hroom
        exact Network.connect_modeless hroom
  unfold connect
  rw [hreach]
  cases machine.reach endpoint with
  | error fault => rfl
  | ok reached =>
      have hadded := modeless_addConnection { machine with network := reached.1 } space reached.2
      exact congrArg (fun added : Machine × Handle => (added.1, Reply.handle added.2)) hadded

theorem modeless_accept (machine : Machine) (space number : Nat) :
    machine.modeless.accept space number =
      ((machine.accept space number).1.modeless, (machine.accept space number).2) := by
  unfold accept
  rw [show machine.modeless.listeners = machine.listeners from rfl,
    show machine.modeless.network = machine.network.modeless from rfl]
  split
  · rfl
  · next listener hlistener =>
      split
      · rfl
      · rw [Network.accept_modeless]
        rcases machine.network.accept listener.socket with ⟨network, id | _ | fault⟩
        · have hadded := modeless_addConnection { machine with network := network } space id
          exact congrArg
            (fun added : Machine × Handle => (added.1, Progress.finished (.handle added.2))) hadded
        · rfl
        · rfl

theorem modeless_receive (machine : Machine) (handle : Handle) (number amount : Nat) :
    machine.modeless.receive handle number amount =
      ((machine.receive handle number amount).1.modeless,
        (machine.receive handle number amount).2) := by
  unfold receive
  rw [show machine.modeless.connections = machine.connections from rfl,
    show machine.modeless.network = machine.network.modeless from rfl]
  split
  · rfl
  · next connection hconnection =>
      split
      · rfl
      · rw [Network.receive_modeless]
        rcases machine.network.receive connection.endId connection.bufferSize amount with
          ⟨network, data | _ | fault⟩
        · rfl
        · rfl
        · rfl

theorem modeless_send
    (machine : Machine) (handle : Handle) (number : Nat) (data : Bytes) (amount : Nat) :
    machine.modeless.send handle number data amount =
      ((machine.send handle number data amount).1.modeless,
        (machine.send handle number data amount).2) := by
  unfold send
  rw [show machine.modeless.connections = machine.connections from rfl,
    show machine.modeless.network = machine.network.modeless from rfl]
  split
  · rfl
  · next connection hconnection =>
      split
      · rfl
      · split
        · rfl
        · rw [Network.send_modeless]
          rcases machine.network.send connection.endId data amount with
            ⟨network, count | _ | fault⟩
          · rfl
          · rfl
          · rfl

/-- Carrying out an action does not depend on modes if a connect finds room. -/
theorem modeless_perform
    {action : Action} (space amount : Nat)
    (hroom : ∀ endpoint, action = .connect endpoint → machine.roomAt endpoint = true) :
    machine.modeless.perform space amount action =
      ((machine.perform space amount action).1.modeless,
        (machine.perform space amount action).2) := by
  cases action with
  | openFile path access =>
      simp only [perform, finish, modeless_openFile]
  | closeFile file => rfl
  | readFile handle number =>
      simp only [perform, finish, readFile]
      rw [show machine.modeless.files = machine.files from rfl,
        show machine.modeless.tree = machine.tree from rfl]
      split
      · rfl
      · split
        · rfl
        · rfl
  | writeFile handle number data =>
      simp only [perform, finish, writeFile]
      rw [show machine.modeless.files = machine.files from rfl,
        show machine.modeless.tree = machine.tree from rfl]
      split
      · rfl
      · split
        · rfl
        · rfl
  | unlink path =>
      simp only [perform, finish, unlink]
      rw [show machine.modeless.tree = machine.tree from rfl]
      split
      · rfl
      · rfl
  | listen endpoint =>
      simp only [perform, finish, modeless_listen]
  | connect endpoint =>
      simp only [perform, finish, modeless_connect (hroom endpoint rfl)]
  | accept number => exact machine.modeless_accept space number
  | receive handle number => exact machine.modeless_receive handle number amount
  | send handle number data => exact machine.modeless_send handle number data amount
  | endSending number =>
      simp only [perform, endSending]
      rw [show machine.modeless.connections = machine.connections from rfl]
      split
      · rfl
      · rfl

/-! ## Resources -/

theorem modeless_release (machine : Machine) (resource : Resource) :
    (machine.release resource).modeless = machine.modeless.release resource := by
  cases resource with
  | file number => rfl
  | listener number => rfl
  | connection number => rfl

theorem modeless_unbind
    (machine : Machine) (space : Nat) (handle : Handle) (resource : Resource) :
    (machine.unbind space handle resource).modeless =
      machine.modeless.unbind space handle resource := by
  unfold unbind
  rw [modeless_release, modeless_setTable, space_modeless]
  rfl

theorem modeless_letGo (machine : Machine) (resource : Resource) :
    (machine.letGo resource).modeless = machine.modeless.letGo resource := by
  unfold letGo
  rw [show machine.modeless.isUsed resource = machine.isUsed resource from rfl]
  split
  · rfl
  · cases resource with
    | file number => rfl
    | listener number =>
        dsimp only
        rw [show machine.modeless.listeners = machine.listeners from rfl,
          show machine.modeless.network = machine.network.modeless from rfl]
        split
        · rfl
        · split
          · rfl
          · rw [Network.closeSocket_modeless]
            rfl
    | connection number =>
        dsimp only
        rw [show machine.modeless.connections = machine.connections from rfl,
          show machine.modeless.network = machine.network.modeless from rfl]
        split
        · rfl
        · split
          · rfl
          · rw [Network.closeEnd_modeless]
            rfl

theorem modeless_letGoOf (machine : Machine) (action : Action) :
    (machine.letGoOf action).modeless = machine.modeless.letGoOf action := by
  unfold letGoOf
  split
  · exact modeless_letGo ..
  · rfl

theorem modeless_drop (machine : Machine) (resource : Resource) :
    (machine.drop resource).modeless = machine.modeless.drop resource := by
  unfold drop
  rw [modeless_letGo]
  cases resource with
  | file number => rfl
  | listener number => rfl
  | connection number => rfl

theorem modeless_dropAll (machine : Machine) (resources : List Resource) :
    (resources.foldl drop machine).modeless = resources.foldl drop machine.modeless := by
  induction resources generalizing machine with
  | nil => rfl
  | cons resource resources ih =>
      rw [List.foldl_cons, List.foldl_cons, ← modeless_drop]
      exact ih _

theorem modeless_dropSpace (machine : Machine) (space : Nat) :
    (machine.dropSpace space).modeless = machine.modeless.dropSpace space := by
  unfold dropSpace
  rw [modeless_dropAll, modeless_setTable, space_modeless]
  rfl

/-! ## Calls -/

theorem modeless_carryOut
    {action : Action} (space : Nat)
    (hroom : ∀ endpoint, action = .connect endpoint → machine.roomAt endpoint = true) :
    machine.modeless.carryOut space action =
      ((machine.carryOut space action).1.modeless, (machine.carryOut space action).2) := by
  unfold carryOut
  rw [show machine.modeless.network.capacity = machine.network.capacity from rfl,
    modeless_perform space machine.network.capacity hroom]
  rcases machine.perform space machine.network.capacity action with
    ⟨performed, reply | rest | _⟩
  · exact congrArg (·, some reply) (modeless_letGoOf ..).symm
  · exact congrArg (·, none) (modeless_letGoOf ..).symm
  · exact congrArg (·, none) (modeless_letGoOf ..).symm

/-- All calls but a close are planned alike in all modes. -/
theorem modeless_plan {call : Call} (hclose : ∀ handle, call ≠ .close handle) :
    ∃ plan, machine.plan space call = (machine, plan) ∧
      machine.modeless.plan space call = (machine.modeless, plan) := by
  have hget : ∀ handle, (machine.space space).modeless.table.get? handle =
      (machine.space space).table.get? handle := fun _ => rfl
  have hhost : (machine.space space).modeless.configuration.wildcardHost =
      (machine.space space).configuration.wildcardHost := rfl
  cases call with
  | close handle => exact absurd rfl (hclose handle)
  | «open» path flags => exact ⟨_, rfl, rfl⟩
  | unlink path => exact ⟨_, rfl, rfl⟩
  | read handle =>
      simp only [plan, space_modeless, hget]
      split
      · exact ⟨_, rfl, rfl⟩
      · exact ⟨_, rfl, rfl⟩
      · exact ⟨_, rfl, rfl⟩
  | write handle data =>
      simp only [plan, space_modeless, hget]
      split
      · exact ⟨_, rfl, rfl⟩
      · exact ⟨_, rfl, rfl⟩
      · exact ⟨_, rfl, rfl⟩
  | accept handle =>
      simp only [plan, space_modeless, hget]
      split
      · exact ⟨_, rfl, rfl⟩
      · exact ⟨_, rfl, rfl⟩
  | listen address =>
      simp only [plan, space_modeless, hhost]
      split
      · exact ⟨_, rfl, rfl⟩
      · exact ⟨_, rfl, rfl⟩
  | connect address =>
      simp only [plan, space_modeless, hhost]
      split
      · exact ⟨_, rfl, rfl⟩
      · exact ⟨_, rfl, rfl⟩

/-- Only a connect leads to one, and it is about the endpoint that its address names. -/
theorem roomAt_of_plan
    {call : Call} {endpoint : Endpoint} (hclose : ∀ handle, call ≠ .close handle)
    (hplan : machine.plan space call = (machine, .act (.connect endpoint)))
    (hroom : ∀ address, call = .connect address → machine.hasRoom space address = true) :
    machine.roomAt endpoint = true := by
  cases call with
  | connect address =>
      have hnamed := hroom address rfl
      unfold hasRoom at hnamed
      simp only [plan] at hplan
      split at hplan
      · next named hparse =>
          cases hplan
          rwa [hparse, Option.all_some] at hnamed
      · cases hplan
  | close handle => exact absurd rfl (hclose handle)
  | «open» path flags => cases hplan
  | unlink path => cases hplan
  | read handle =>
      simp only [plan] at hplan
      split at hplan
      · cases hplan
      · cases hplan
      · cases hplan
  | write handle data =>
      simp only [plan] at hplan
      split at hplan
      · cases hplan
      · cases hplan
      · cases hplan
  | accept handle =>
      simp only [plan] at hplan
      split at hplan
      · cases hplan
      · cases hplan
  | listen address =>
      simp only [plan] at hplan
      split at hplan
      · cases hplan
      · cases hplan

/-- What a call comes to while nothing else waits does not depend on modes if a connect finds
room. -/
theorem modeless_alone
    {call : Call} (horderly : machine.Orderly)
    (hroom : ∀ address, call = .connect address → machine.hasRoom space address = true) :
    machine.bare.modeless.alone space call =
      ((machine.bare.alone space call).1.modeless, (machine.bare.alone space call).2) := by
  by_cases hclose : ∃ handle, call = .close handle
  · obtain ⟨handle, rfl⟩ := hclose
    have hsame : machine.bare.modeless.lookup space handle = machine.lookup space handle :=
      machine.bare.lookup_modeless space handle
    cases hlookup : machine.lookup space handle with
    | none =>
        rw [hlookup] at hsame
        rw [@alone_close_unbound machine.bare space handle hlookup, alone_close_unbound hsame]
    | some resource =>
        rw [hlookup] at hsame
        have hmodeless :
            machine.bare.modeless.alone space (.close handle) =
              ((machine.bare.modeless.unbind space handle resource).letGo resource,
                some .done) := by
          apply alone_close_of_closing hsame
          intro hsuspends
          rw [space_modeless] at hsuspends
          cases hsuspends
        rw [hmodeless, alone_close_bound horderly hlookup, modeless_letGo, modeless_unbind]
  · have hother := not_exists.mp hclose
    obtain ⟨plan, hplan, hmodeless⟩ := @modeless_plan machine.bare space call hother
    unfold alone
    rw [hplan, hmodeless]
    cases plan with
    | answer reply => rfl
    | act action =>
        apply modeless_carryOut
        rintro endpoint rfl
        exact @roomAt_of_plan machine.bare space call endpoint hother hplan hroom

end Machine

end ResourceHandles
