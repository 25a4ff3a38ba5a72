import ResourceHandles.Proofs.Files.OpenFiles
import ResourceHandles.Proofs.Machine.Bare
import ResourceHandles.Proofs.Network.Grafts

/-!
# What belongs to a resource

To an open file belong the bytes it is open on, to a connection its link.  Once the handle of a
call is looked up, nothing but this is looked at, and nothing else is changed.  As for the links
of a network, both are said at once: if what belongs to a resource is taken over into another
machine, everything that is done with the resource goes there as it does at home.
-/

namespace ResourceHandles

/-- What belongs to a resource: an open file and what it is open on, or a connection and its
link. -/
inductive Footprint where
  | file (number : Nat) (entry : Entry)
  | connection (number link : Nat)
  deriving Repr, DecidableEq

def Footprint.resource : Footprint → Resource
  | .file number _ => .file number
  | .connection number _ => .connection number

/-- Nothing belongs to both of two resources. -/
def Footprint.Apart : Footprint → Footprint → Prop
  | .file number entry, .file other otherEntry =>
    number ≠ other ∧ ∀ content, entry = .file content → otherEntry ≠ .file content
  | .connection number link, .connection other otherLink => number ≠ other ∧ link ≠ otherLink
  | .file _ _, .connection _ _ => True
  | .connection _ _, .file _ _ => True

theorem Footprint.Apart.symm
    {footprint other : Footprint} (hapart : footprint.Apart other) : other.Apart footprint := by
  cases footprint with
  | file number entry =>
      cases other with
      | file otherNumber otherEntry =>
          exact ⟨hapart.1.symm, fun content hother hentry => hapart.2 content hentry hother⟩
      | connection otherNumber otherLink => trivial
  | connection number link =>
      cases other with
      | file otherNumber otherEntry => trivial
      | connection otherNumber otherLink => exact ⟨hapart.1.symm, hapart.2.symm⟩

/-! ## Open files -/

/-- A tree with the bytes of one file taken over from another tree. -/
def FileTree.graft (tree donor : FileTree) : Entry → FileTree
  | .directory => tree
  | .file number => { tree with contents := graftAt tree.contents donor.contents number }

section Files

variable {tree donor : FileTree}

theorem FileTree.graft_self (tree : FileTree) (entry : Entry) : tree.graft tree entry = tree := by
  cases entry with
  | directory => rfl
  | file number => simp only [graft, graftAt_self]

theorem FileTree.graft_comm
    {entry other : Entry} (hentry : ∀ content, entry = .file content → other ≠ .file content)
    (tree first second : FileTree) :
    (tree.graft first entry).graft second other = (tree.graft second other).graft first entry := by
  cases entry with
  | directory => rfl
  | file number =>
      cases other with
      | directory => rfl
      | file otherNumber =>
          have hnumber : number ≠ otherNumber := by
            rintro rfl
            exact hentry number rfl rfl
          simp only [graft, graftAt_comm hnumber]

theorem FileTree.content_graft
    (hcontents : donor.contents.length = tree.contents.length) (number : Nat) :
    (tree.graft donor (.file number)).content number = donor.content number := by
  unfold content
  rw [List.getD_eq_getElem?_getD, List.getD_eq_getElem?_getD]
  exact congrArg (Option.getD · []) (getElem?_graftAt_self hcontents)

theorem FileTree.setContent_graft
    (hcontents : donor.contents.length = tree.contents.length) (number : Nat) (data : Bytes) :
    (tree.graft donor (.file number)).setContent number data =
      tree.graft (donor.setContent number data) (.file number) := by
  unfold setContent graft
  dsimp only
  rw [set_graftAt hcontents]

namespace OpenFile

variable {file : OpenFile}

theorem read_graft (hcontents : donor.contents.length = tree.contents.length) :
    file.read (tree.graft donor file.entry) = file.read donor := by
  unfold read
  cases file.entry with
  | directory => rfl
  | file number => simp only [FileTree.content_graft hcontents]

theorem put_graft
    (hcontents : donor.contents.length = tree.contents.length) (data : Bytes) :
    file.put (tree.graft donor file.entry) data =
      (file.put donor data).map fun written => (written.1, tree.graft written.2 file.entry) := by
  unfold put
  split
  · rfl
  · cases file.entry with
    | directory => rfl
    | file number =>
        simp only [FileTree.content_graft hcontents, FileTree.setContent_graft hcontents]
        rfl

theorem write_graft
    (hcontents : donor.contents.length = tree.contents.length) (data : Bytes) :
    file.write (tree.graft donor file.entry) data =
      (file.write donor data).map fun written => (written.1, tree.graft written.2 file.entry) := by
  unfold write
  split
  · rfl
  · rw [put_graft hcontents]
    cases file.put donor data with
    | error fault => rfl
    | ok written => rfl

end OpenFile

end Files

namespace Machine

/-- A machine with what belongs to a resource taken over from another machine. -/
def graft (machine donor : Machine) : Footprint → Machine
  | .file number entry =>
    { machine with
      files := graftAt machine.files donor.files number
      tree := machine.tree.graft donor.tree entry }
  | .connection number link =>
    { machine with
      connections := graftAt machine.connections donor.connections number
      network := machine.network.graft donor.network link }

/-- A resource is there, and what is said to belong to it does. -/
def Carries (machine : Machine) : Footprint → Prop
  | .file number entry => ∃ file, machine.files[number]? = some file ∧ file.entry = entry
  | .connection number link =>
    ∃ connection, machine.connections[number]? = some connection ∧ connection.endId.link = link

/-- Two machines with equally many files, connections and links, and with the same bound on
what is under way. -/
structure SameSize (machine donor : Machine) : Prop where
  files : donor.files.length = machine.files.length
  contents : donor.tree.contents.length = machine.tree.contents.length
  connections : donor.connections.length = machine.connections.length
  links : donor.network.links.length = machine.network.links.length
  capacity : donor.network.capacity = machine.network.capacity

variable {machine donor next : Machine} {footprint : Footprint} {action : Action}

theorem SameSize.refl (machine : Machine) : machine.SameSize machine :=
  ⟨rfl, rfl, rfl, rfl, rfl⟩

theorem sameSize_graft (machine donor : Machine) (footprint : Footprint) :
    machine.SameSize (machine.graft donor footprint) := by
  cases footprint with
  | file number entry =>
      refine ⟨length_graftAt _ _ _, ?_, rfl, rfl, rfl⟩
      cases entry with
      | directory => rfl
      | file content => exact length_graftAt _ _ _
  | connection number link => exact ⟨rfl, rfl, length_graftAt _ _ _, length_graftAt _ _ _, rfl⟩

theorem SameSize.trans
    (hfirst : machine.SameSize donor) (hsecond : donor.SameSize next) : machine.SameSize next :=
  ⟨hsecond.files.trans hfirst.files, hsecond.contents.trans hfirst.contents,
    hsecond.connections.trans hfirst.connections, hsecond.links.trans hfirst.links,
    hsecond.capacity.trans hfirst.capacity⟩

theorem SameSize.symm (hsize : machine.SameSize donor) : donor.SameSize machine :=
  ⟨hsize.files.symm, hsize.contents.symm, hsize.connections.symm, hsize.links.symm,
    hsize.capacity.symm⟩

theorem graft_self (machine : Machine) (footprint : Footprint) :
    machine.graft machine footprint = machine := by
  cases footprint with
  | file number entry =>
      simp only [graft, graftAt_self, FileTree.graft_self]
  | connection number link => simp only [graft, Network.graft, graftAt_self]

theorem network_graft (machine donor : Machine) (number link : Nat) :
    (machine.graft donor (.connection number link)).network =
      machine.network.graft donor.network link := rfl

theorem pending_graft (machine donor : Machine) (footprint : Footprint) :
    (machine.graft donor footprint).pending = machine.pending := by
  cases footprint with
  | file number entry => rfl
  | connection number link => rfl

theorem getElem?_files_graft (hsize : machine.SameSize donor) (number : Nat) (entry : Entry) :
    (machine.graft donor (.file number entry)).files[number]? = donor.files[number]? :=
  getElem?_graftAt_self hsize.files

theorem getElem?_connections_graft (hsize : machine.SameSize donor) (number link : Nat) :
    (machine.graft donor (.connection number link)).connections[number]? =
      donor.connections[number]? :=
  getElem?_graftAt_self hsize.connections

/-- What belongs to resources that have nothing in common may be taken over in any order. -/
theorem graft_comm
    {other : Footprint} (hapart : footprint.Apart other) (machine first second : Machine) :
    (machine.graft first footprint).graft second other =
      (machine.graft second other).graft first footprint := by
  cases footprint with
  | file number entry =>
      cases other with
      | file otherNumber otherEntry =>
          obtain ⟨hnumber, hentry⟩ := hapart
          simp only [graft, graftAt_comm hnumber, FileTree.graft_comm hentry]
      | connection otherNumber otherLink => rfl
  | connection number link =>
      cases other with
      | file otherNumber otherEntry => rfl
      | connection otherNumber otherLink =>
          obtain ⟨hnumber, hlink⟩ := hapart
          simp only [graft, Network.graft, graftAt_comm hnumber, graftAt_comm hlink]

theorem Carries.graft (hsize : machine.SameSize donor) (hcarries : donor.Carries footprint) :
    (machine.graft donor footprint).Carries footprint := by
  cases footprint with
  | file number entry =>
      obtain ⟨file, hfile, hentry⟩ := hcarries
      exact ⟨file, (getElem?_files_graft hsize _ _).trans hfile, hentry⟩
  | connection number link =>
      obtain ⟨connection, hconnection, hlink⟩ := hcarries
      exact ⟨connection, (getElem?_connections_graft hsize _ _).trans hconnection, hlink⟩

/-! ## Carrying out an action -/

theorem readFile_graft
    (hsize : machine.SameSize donor) {number : Nat} {file : OpenFile}
    (hfile : donor.files[number]? = some file) (handle : Handle) :
    (machine.graft donor (.file number file.entry)).readFile handle number =
      (machine.graft (donor.readFile handle number).1 (.file number file.entry),
        (donor.readFile handle number).2) := by
  have hread : file.read (machine.graft donor (.file number file.entry)).tree =
      file.read donor.tree := OpenFile.read_graft hsize.contents
  unfold readFile
  simp only [getElem?_files_graft hsize, hfile, hread]
  split
  · rfl
  · simp only [graft, set_graftAt hsize.files]

theorem writeFile_graft
    (hsize : machine.SameSize donor) {number : Nat} {file : OpenFile}
    (hfile : donor.files[number]? = some file) (handle : Handle) (data : Bytes) :
    (machine.graft donor (.file number file.entry)).writeFile handle number data =
      (machine.graft (donor.writeFile handle number data).1 (.file number file.entry),
        (donor.writeFile handle number data).2) := by
  have hwrite : file.write (machine.graft donor (.file number file.entry)).tree data =
      (file.write donor.tree data).map fun written =>
        (written.1, machine.tree.graft written.2 file.entry) :=
    OpenFile.write_graft hsize.contents data
  unfold writeFile
  simp only [getElem?_files_graft hsize, hfile, hwrite]
  cases file.write donor.tree data with
  | error fault => rfl
  | ok written => simp only [Except.map, graft, set_graftAt hsize.files]

theorem receive_graft
    (hsize : machine.SameSize donor) {number : Nat} {connection : Connection}
    (hconnection : donor.connections[number]? = some connection) (handle : Handle)
    (amount : Nat) :
    (machine.graft donor (.connection number connection.endId.link)).receive handle number amount =
      (machine.graft (donor.receive handle number amount).1
          (.connection number connection.endId.link),
        (donor.receive handle number amount).2) := by
  have hreceive :=
    Network.receive_graft hsize.links (rfl : connection.endId.link = _) connection.bufferSize amount
  unfold receive
  simp only [getElem?_connections_graft hsize, hconnection]
  split
  · rfl
  · rw [network_graft, hreceive]
    rcases donor.network.receive connection.endId connection.bufferSize amount
      with ⟨network, data | - | fault⟩
    · rfl
    · rfl
    · rfl

theorem send_graft
    (hsize : machine.SameSize donor) {number : Nat} {connection : Connection}
    (hconnection : donor.connections[number]? = some connection) (handle : Handle)
    (data : Bytes) (amount : Nat) :
    (machine.graft donor (.connection number connection.endId.link)).send handle number data
        amount =
      (machine.graft (donor.send handle number data amount).1
          (.connection number connection.endId.link),
        (donor.send handle number data amount).2) := by
  have hsend :=
    Network.send_graft hsize.links hsize.capacity (rfl : connection.endId.link = _) data amount
  unfold send
  simp only [getElem?_connections_graft hsize, hconnection]
  split
  · rfl
  · split
    · rfl
    · rw [network_graft, hsend]
      rcases donor.network.send connection.endId data amount with ⟨network, count | - | fault⟩
      · rfl
      · rfl
      · rfl

theorem endSending_graft
    (hsize : machine.SameSize donor) {number : Nat} {connection : Connection}
    (hconnection : donor.connections[number]? = some connection) :
    (machine.graft donor (.connection number connection.endId.link)).endSending number =
      machine.graft (donor.endSending number) (.connection number connection.endId.link) := by
  have hended := Network.endSending_graft hsize.links (rfl : connection.endId.link = _)
  unfold endSending
  simp only [getElem?_connections_graft hsize, hconnection]
  rw [network_graft, hended]
  rfl

/-- An action on a resource looks at what belongs to the resource, and at nothing else. -/
theorem perform_graft
    (hsize : machine.SameSize donor) (hcarries : donor.Carries footprint)
    (haction : action.resource? = some footprint.resource) (space amount : Nat) :
    (machine.graft donor footprint).perform space amount action =
      (machine.graft (donor.perform space amount action).1 footprint,
        (donor.perform space amount action).2) := by
  cases footprint with
  | file number entry =>
      obtain ⟨file, hfile, rfl⟩ := hcarries
      cases action with
      | closeFile closed => rfl
      | readFile handle read =>
          cases haction
          simp only [perform, readFile_graft hsize hfile]
          rfl
      | writeFile handle written data =>
          cases haction
          simp only [perform, writeFile_graft hsize hfile]
          rfl
      | _ => cases haction
  | connection number link =>
      obtain ⟨connection, hconnection, rfl⟩ := hcarries
      cases action with
      | receive handle receiver =>
          cases haction
          exact receive_graft hsize hconnection handle amount
      | send handle sender data =>
          cases haction
          exact send_graft hsize hconnection handle data amount
      | endSending sender =>
          cases haction
          simp only [perform, endSending_graft hsize hconnection]
      | _ => cases haction

/-- An action on a resource changes what belongs to the resource at most. -/
theorem graft_perform
    (hcarries : machine.Carries footprint) (haction : action.resource? = some footprint.resource)
    (space amount : Nat) :
    machine.graft (machine.perform space amount action).1 footprint =
      (machine.perform space amount action).1 := by
  have hkept := perform_graft (.refl machine) hcarries haction space amount
  rw [graft_self] at hkept
  exact (congrArg Prod.fst hkept).symm

theorem SameSize.perform
    (hsize : donor.SameSize machine) (hcarries : machine.Carries footprint)
    (haction : action.resource? = some footprint.resource) (space amount : Nat) :
    donor.SameSize (machine.perform space amount action).1 := by
  rw [← graft_perform hcarries haction]
  exact hsize.trans (sameSize_graft _ _ _)

/-- A resource keeps what belongs to it. -/
theorem Carries.perform
    (hcarries : machine.Carries footprint) (haction : action.resource? = some footprint.resource)
    (space amount : Nat) : (machine.perform space amount action).1.Carries footprint := by
  cases footprint with
  | file number entry =>
      obtain ⟨file, hfile, rfl⟩ := hcarries
      have hnumber := (List.getElem?_eq_some_iff.mp hfile).1
      cases action with
      | closeFile closed => exact ⟨file, hfile, rfl⟩
      | readFile handle read =>
          cases haction
          simp only [Machine.perform, finish, readFile, hfile]
          split
          · exact ⟨file, hfile, rfl⟩
          · next moved data hread =>
              exact ⟨moved, List.getElem?_set_self hnumber, OpenFile.entry_of_read hread⟩
      | writeFile handle written data =>
          cases haction
          simp only [Machine.perform, finish, writeFile, hfile]
          split
          · exact ⟨file, hfile, rfl⟩
          · next moved tree hwrite =>
              exact ⟨moved, List.getElem?_set_self hnumber, OpenFile.entry_of_write hwrite⟩
      | _ => cases haction
  | connection number link =>
      obtain ⟨connection, hconnection, hlink⟩ := hcarries
      obtain ⟨added, hadded, -⟩ := (machine.performed space amount action).binds.connections
      refine ⟨connection, ?_, hlink⟩
      rw [hadded, List.getElem?_append_left (List.getElem?_eq_some_iff.mp hconnection).1]
      exact hconnection

/-! ## Giving up a resource -/

theorem release_graft
    (hsize : machine.SameSize donor) (footprint : Footprint) :
    (machine.graft donor footprint).release footprint.resource =
      machine.graft (donor.release footprint.resource) footprint := by
  cases footprint with
  | file number entry => rfl
  | connection number link =>
      simp only [release, raiseSignal, unhold, graft, Footprint.resource]
      rw [List.modify_modify_eq, List.modify_modify_eq, modify_graftAt hsize.connections]

theorem letGo_graft
    (hsize : machine.SameSize donor) (hcarries : donor.Carries footprint)
    (hquiet : machine.pending = []) (hdonor : donor.pending = []) :
    (machine.graft donor footprint).letGo footprint.resource =
      machine.graft (donor.letGo footprint.resource) footprint := by
  have hgrafted : (machine.graft donor footprint).pending = [] :=
    (pending_graft _ _ _).trans hquiet
  unfold letGo
  rw [isUsed_of_quiet hgrafted, isUsed_of_quiet hdonor]
  cases footprint with
  | file number entry => rfl
  | connection number link =>
      obtain ⟨connection, hconnection, rfl⟩ := hcarries
      have hclosed := Network.closeEnd_graft hsize.links (rfl : connection.endId.link = _)
      simp only [Footprint.resource, getElem?_connections_graft hsize, hconnection,
        Bool.false_eq_true, if_false]
      split
      · rfl
      · rw [network_graft, hclosed]
        rfl

theorem Carries.release
    (hcarries : machine.Carries footprint) (resource : Resource) :
    (machine.release resource).Carries footprint := by
  cases footprint with
  | file number entry =>
      cases resource with
      | file released => exact hcarries
      | listener released => exact hcarries
      | connection released => exact hcarries
  | connection number link =>
      obtain ⟨connection, hconnection, hlink⟩ := hcarries
      cases resource with
      | file released => exact ⟨connection, hconnection, hlink⟩
      | listener released => exact ⟨connection, hconnection, hlink⟩
      | connection released =>
          simp only [Machine.release, raiseSignal, unhold, List.modify_modify_eq]
          by_cases hreleased : released = number
          · subst hreleased
            refine ⟨connection.released, ?_, hlink⟩
            rw [List.getElem?_modify_eq, hconnection]
            rfl
          · refine ⟨connection, ?_, hlink⟩
            rw [List.getElem?_modify_ne _ _ hreleased]
            exact hconnection

end Machine

end ResourceHandles
