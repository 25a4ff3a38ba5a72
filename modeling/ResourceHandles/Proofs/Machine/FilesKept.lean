import ResourceHandles.Proofs.Files.Kept
import ResourceHandles.Proofs.Files.Transfers
import ResourceHandles.Proofs.Machine.Transitions

/-!
# The files of a machine are kept

Only four actions change the files of a machine: opening, reading and writing a file, and
removing one.  None of them gives up the bytes of a file that a location leads to or that
is open, so every run keeps the bytes of all these files.
-/

namespace ResourceHandles

/-- Whether an action looks at the file tree or at an open file. -/
def Action.usesFiles : Action → Bool
  | .openFile _ _ => true
  | .readFile _ _ => true
  | .writeFile _ _ _ => true
  | .unlink _ => true
  | _ => false

namespace Machine

variable {machine other : Machine}

/-- The bytes of every file that can be found or is open are kept. -/
structure FilesKept (machine : Machine) : Prop where
  stored : machine.tree.Stored
  opened :
    ∀ file ∈ machine.files, ∀ number,
      file.entry = .file number → number < machine.tree.contents.length

theorem FilesKept.congr
    (hkept : machine.FilesKept) (htree : other.tree = machine.tree)
    (hfiles : other.files = machine.files) : other.FilesKept := by
  constructor
  · rw [htree]
    exact hkept.stored
  · rw [htree, hfiles]
    exact hkept.opened

theorem FilesKept.evolve
    (hkept : machine.FilesKept) {later : FileTree} (hevolves : machine.tree.Evolves later) :
    FilesKept { machine with tree := later } :=
  ⟨hevolves.stored hkept.stored,
    fun file hfile number hentry =>
      Nat.lt_of_lt_of_le (hkept.opened file hfile number hentry) hevolves.grows⟩

/-- The cursor of an open file may move. -/
theorem FilesKept.setFile
    (hkept : machine.FilesKept) {number : Nat} {file moved : OpenFile}
    (hfile : machine.files[number]? = some file) (hentry : moved.entry = file.entry) :
    FilesKept { machine with files := machine.files.set number moved } := by
  constructor
  · exact hkept.stored
  · intro changed hchanged place hplace
    rcases List.mem_or_eq_of_mem_set hchanged with hmem | rfl
    · exact hkept.opened changed hmem place hplace
    · exact hkept.opened file (List.mem_of_getElem? hfile) place (hentry.symm.trans hplace)

theorem FilesKept.addFile
    (hkept : machine.FilesKept) (space : Nat) {file : OpenFile}
    (hfile :
      ∀ number, file.entry = .file number → number < machine.tree.contents.length) :
    (machine.addFile space file).1.FilesKept := by
  constructor
  · exact hkept.stored
  · intro opened hopened number hentry
    rcases List.mem_append.mp hopened with hmem | hmem
    · exact hkept.opened opened hmem number hentry
    · cases List.mem_singleton.mp hmem
      exact hfile number hentry

/-! ## Actions -/

theorem FilesKept.openFile
    (hkept : machine.FilesKept) (space : Nat) (path : Path) (access : Access) :
    (machine.openFile space path access).1.FilesKept := by
  unfold Machine.openFile
  split
  · exact hkept
  · next opened entry hopen =>
      apply (hkept.evolve (FileTree.openPath_evolves hopen)).addFile
      intro number hentry
      rw [show entry = .file number from hentry] at hopen
      exact FileTree.openPath_lt hkept.stored hopen

theorem FilesKept.readFile
    (hkept : machine.FilesKept) (handle : Handle) (number : Nat) :
    (machine.readFile handle number).1.FilesKept := by
  unfold Machine.readFile
  split
  · exact hkept
  · next file hfile =>
      split
      · exact hkept
      · next moved data hread => exact hkept.setFile hfile (OpenFile.entry_of_read hread)

theorem FilesKept.writeFile
    (hkept : machine.FilesKept) (handle : Handle) (number : Nat) (data : Bytes) :
    (machine.writeFile handle number data).1.FilesKept := by
  unfold Machine.writeFile
  split
  · exact hkept
  · next file hfile =>
      split
      · exact hkept
      · next moved tree hwrite =>
          exact (hkept.setFile hfile (OpenFile.entry_of_write hwrite)).evolve
            (OpenFile.write_evolves hwrite)

/-- What a write does to a machine is what its transfers and the flush behind them do, whichever of
its polls have to wait. -/
theorem FilesKept.writeFile_in_transfers
    (hkept : machine.FilesKept) {number : Nat} {file : OpenFile}
    (hfile : machine.files[number]? = some file) {data : Bytes}
    {script : List (SinkItem FileFault)} {last : FileSink}
    (hplays : FileSink.Plays ⟨file, machine.tree, []⟩ data script last) (perPoll : Option Nat)
    (handle : Handle) :
    ∃ result,
      FileSink.EndsWith file machine.tree last (writeFully perPoll script data).outcome result ∧
        machine.writeFile handle number data =
          match result with
          | .ok (moved, tree) =>
            ({ machine with tree := tree, files := machine.files.set number moved }, .done)
          | .error (stage, fault) => (machine, .failed (.fileNotWritten handle stage fault)) := by
  refine ⟨file.write machine.tree data, ?_, ?_⟩
  · exact hplays.endsWith_write (hkept.opened file (List.mem_of_getElem? hfile)) perPoll
  · simp only [Machine.writeFile, hfile]
    cases file.write machine.tree data with
    | ok written => rfl
    | error failure => rfl

theorem FilesKept.unlink
    (hkept : machine.FilesKept) (path : Path) : (machine.unlink path).1.FilesKept := by
  unfold Machine.unlink
  split
  · exact hkept
  · next tree hunlink => exact hkept.evolve (FileTree.unlink_evolves hunlink)

/-- Actions on sockets leave the files alone. -/
theorem perform_files
    (machine : Machine) (space amount : Nat) {action : Action}
    (huses : action.usesFiles = false) :
    (machine.perform space amount action).1.tree = machine.tree ∧
      (machine.perform space amount action).1.files = machine.files := by
  cases action with
  | openFile path access => cases huses
  | readFile handle number => cases huses
  | writeFile handle number data => cases huses
  | unlink path => cases huses
  | closeFile number => exact ⟨rfl, rfl⟩
  | listen endpoint =>
      simp only [perform, finish, listen]
      split
      · exact ⟨rfl, rfl⟩
      · exact ⟨rfl, rfl⟩
  | connect endpoint =>
      simp only [perform, finish, connect]
      split
      · exact ⟨rfl, rfl⟩
      · exact ⟨rfl, rfl⟩
  | accept number =>
      simp only [perform, accept]
      repeat' split
      all_goals exact ⟨rfl, rfl⟩
  | receive handle number =>
      simp only [perform, receive]
      repeat' split
      all_goals exact ⟨rfl, rfl⟩
  | send handle number data =>
      simp only [perform, send]
      repeat' split
      all_goals exact ⟨rfl, rfl⟩
  | endSending number =>
      simp only [perform, endSending]
      split
      · exact ⟨rfl, rfl⟩
      · exact ⟨rfl, rfl⟩

theorem FilesKept.perform
    (hkept : machine.FilesKept) (space amount : Nat) (action : Action) :
    (machine.perform space amount action).1.FilesKept := by
  cases huses : action.usesFiles with
  | false =>
      obtain ⟨htree, hfiles⟩ := machine.perform_files space amount huses
      exact hkept.congr htree hfiles
  | true =>
      cases action with
      | openFile path access => exact hkept.openFile space path access
      | readFile handle number => exact hkept.readFile handle number
      | writeFile handle number data => exact hkept.writeFile handle number data
      | unlink path => exact hkept.unlink path
      | _ => cases huses

/-! ## Operations that leave the tree alone -/

@[simp] theorem tree_letGo (machine : Machine) (resource : Resource) :
    (machine.letGo resource).tree = machine.tree := by
  rw [letGo_eq]

@[simp] theorem tree_unhold (machine : Machine) (resource : Resource) :
    (machine.unhold resource).tree = machine.tree := by
  cases resource with
  | file number => rfl
  | listener number => rfl
  | connection number => rfl

@[simp] theorem tree_unbind
    (machine : Machine) (space : Nat) (handle : Handle) (resource : Resource) :
    (machine.unbind space handle resource).tree = machine.tree := by
  cases resource with
  | file number => rfl
  | listener number => rfl
  | connection number => rfl

/-! ## Runs -/

theorem FilesKept.letGo
    (hkept : machine.FilesKept) (resource : Resource) : (machine.letGo resource).FilesKept := by
  rw [letGo_eq]
  exact hkept.congr rfl rfl

theorem FilesKept.forget
    (hkept : machine.FilesKept) (pending : Pending) : (machine.forget pending).FilesKept := by
  rw [forget_eq]
  exact hkept.congr rfl rfl

theorem FilesKept.unbind
    (hkept : machine.FilesKept) (space : Nat) (handle : Handle) (resource : Resource) :
    (machine.unbind space handle resource).FilesKept := by
  cases resource with
  | file number => exact hkept.congr rfl rfl
  | listener number => exact hkept.congr rfl rfl
  | connection number => exact hkept.congr rfl rfl

theorem FilesKept.transition
    {record : Record} {next : Machine} (hkept : machine.FilesKept)
    (htransition : machine.Transition record next) : next.FilesKept := by
  cases htransition with
  | refused _ _ _ _ => exact hkept
  | parked _ _ => exact hkept.congr rfl rfl
  | @performed space _ action _ _ _ _ _ hperform =>
      have hafter := hkept.perform space 0 action
      rw [hperform] at hafter
      exact hafter
  | @closed space handle resource _ _ =>
      exact (hkept.unbind space handle resource).letGo resource
  | @closing space handle resource _ _ _ _ =>
      exact (hkept.unbind space handle resource).congr rfl rfl
  | @finished pending amount performed _ _ _ hperform =>
      have hafter := hkept.perform pending.space amount pending.action
      rw [hperform] at hafter
      exact hafter.forget pending
  | @continued pending amount performed _ _ _ hperform =>
      have hafter := hkept.perform pending.space amount pending.action
      rw [hperform] at hafter
      exact hafter.congr rfl rfl
  | @abandoned pending _ => exact hkept.forget pending
  | exhausted _ => exact hkept.congr rfl rfl

theorem filesKept_boot
    {tree : FileTree} (hstored : tree.Stored) (routed : Bool) (capacity : Nat)
    (configurations : List Configuration) :
    (boot tree routed capacity configurations).FilesKept :=
  ⟨hstored, fun _ hfile => absurd hfile List.not_mem_nil⟩

/-- Every run keeps the bytes of every file that can be found or is open. -/
theorem filesKept_play
    {tree : FileTree} (hstored : tree.Stored) (routed : Bool) (capacity : Nat)
    (configurations : List Configuration) (events : List Event) :
    (History.play ⟨boot tree routed capacity configurations, []⟩ events).machine.FilesKept :=
  History.play_invariant (P := fun machine _ => machine.FilesKept)
    (fun _ _ _ _ hkept htransition => hkept.transition htransition)
    (filesKept_boot hstored routed capacity configurations) events

end Machine

end ResourceHandles
