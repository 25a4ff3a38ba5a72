import ResourceHandles.Proofs.Machine.FileOwners
import ResourceHandles.Proofs.Session.Owners

/-!
# The handles of open files

An open file is bound to one handle at most, over all handle spaces, as a listener and a
connection are: it is bound when it is opened, under a number that was not used before and to a
handle that was not used before, and it is never bound again.
-/

namespace ResourceHandles

namespace Machine

variable {machine next : Machine}

/-- What holds of handles and open files at all times. -/
structure FilesSound (machine : Machine) : Prop where
  inRange :
    ∀ space handle number,
      machine.lookup space handle = some (.file number) → number < machine.files.length
  unique :
    ∀ space handle other otherHandle number,
      machine.lookup space handle = some (.file number) →
        machine.lookup other otherHandle = some (.file number) →
          space = other ∧ handle = otherHandle

/-! ## How files are bound -/

theorem length_files_le_perform (machine : Machine) (space amount : Nat) (action : Action) :
    machine.files.length ≤ (machine.perform space amount action).1.files.length := by
  by_cases hopen : ∃ path access, action = .openFile path access
  · obtain ⟨path, access, rfl⟩ := hopen
    simp only [perform, finish, openFile]
    split
    · exact le_rfl
    · simp
  · exact (machine.length_files_perform space amount
      fun path access haction => hopen ⟨path, access, haction⟩).ge

theorem files_letGo (machine : Machine) (resource : Resource) :
    (machine.letGo resource).files = machine.files := by
  rw [letGo_eq]

theorem files_forget (machine : Machine) (pending : Pending) :
    (machine.forget pending).files = machine.files := by
  rw [forget_eq]

theorem files_unbind
    (machine : Machine) (space : Nat) (handle : Handle) (resource : Resource) :
    (machine.unbind space handle resource).files = machine.files := by
  cases resource with
  | file number => rfl
  | listener number => rfl
  | connection number => rfl

theorem Change.length_files (hchange : machine.Change next) :
    machine.files.length ≤ next.files.length := by
  have hperformed :
      ∀ {performed : Machine} {space amount : Nat} {action : Action} {progress : Progress},
        machine.perform space amount action = (performed, progress) →
          machine.files.length ≤ performed.files.length := by
    intro performed space amount action progress hperform
    have hle := machine.length_files_le_perform space amount action
    rwa [hperform] at hle
  cases hchange with
  | same => exact le_rfl
  | parked hleads => exact le_rfl
  | performed hfree hperform => exact hperformed hperform
  | closed hbound => rw [files_letGo, files_unbind]
  | closing hbound haction => exact (congrArg List.length (machine.files_unbind _ _ _)).ge
  | finished hpending hperform =>
      rw [files_forget]
      exact hperformed hperform
  | @continued pending amount performed rest hpending hperform =>
      have hkept : machine.files.length ≤ performed.files.length := hperformed hperform
      exact hkept
  | abandoned hpending => rw [files_forget]
  | exhausted _ => exact le_rfl

/-- A file is bound as it was before, or it is new and bound to a new handle. -/
theorem Performed.lookup_file
    {owner amount : Nat} {action : Action} {progress : Progress}
    (hperformed : machine.Performed owner amount action next progress)
    {space : Nat} {handle : Handle} {number : Nat}
    (hgood : (machine.space space).table.WellFormed)
    (hlookup : next.lookup space handle = some (.file number)) :
    machine.lookup space handle = some (.file number) ∨
      (space = owner ∧ handle = ⟨(machine.space owner).table.next⟩ ∧
        number = machine.files.length ∧ number < next.files.length) := by
  -- What is bound anew is not a file, unless one is opened.
  have hother : ∀ {added : Resource},
      next.spaces = (machine.bindHandle owner added).1.spaces →
        (∀ number, added ≠ .file number) →
          machine.lookup space handle = some (.file number) := by
    intro added hspaces hkind
    rcases lookup_of_bindHandle hspaces hgood hlookup with hold | ⟨-, -, hnew⟩
    · exact hold
    · exact absurd hnew.symm (hkind number)
  cases hperformed with
  | @opened path access tree file =>
      have hspaces :
          ({ machine with tree := tree }.addFile owner file).1.spaces =
            (machine.bindHandle owner (.file machine.files.length)).1.spaces := rfl
      rcases lookup_of_bindHandle hspaces hgood hlookup with hold | ⟨howner, hhandle, hnew⟩
      · exact Or.inl hold
      · cases hnew
        refine Or.inr ⟨howner, hhandle, rfl, ?_⟩
        rw [files_addFile, List.length_append]
        exact Nat.lt_succ_self _
  | listening hbind =>
      exact Or.inl (@hother (.listener machine.listeners.length) rfl (by simp))
  | connected hreach =>
      exact Or.inl (@hother (.connection machine.connections.length) rfl (by simp))
  | accepted htake =>
      exact Or.inl (@hother (.connection machine.connections.length) rfl (by simp))
  | ended =>
      unfold endSending at hlookup
      split at hlookup
      · exact Or.inl hlookup
      · exact Or.inl hlookup
  | _ => exact Or.inl hlookup

/-- At most one file is bound anew, in one space. -/
theorem Change.lookup_file
    (hchange : machine.Change next) (htables : ∀ space, (machine.space space).table.WellFormed) :
    ∃ owner, ∀ space handle number,
      next.lookup space handle = some (.file number) →
        machine.lookup space handle = some (.file number) ∨
          (space = owner ∧ handle = ⟨(machine.space owner).table.next⟩ ∧
            number = machine.files.length ∧ number < next.files.length) := by
  cases hchange with
  | same => exact ⟨0, fun space handle number => Or.inl⟩
  | parked hleads => exact ⟨0, fun space handle number => Or.inl⟩
  | performed hfree hperform =>
      exact ⟨_, fun space handle number hlookup =>
        (performed_of_perform hperform).lookup_file (htables space) hlookup⟩
  | closed hbound =>
      exact ⟨0, fun space handle number hlookup => Or.inl
        (lookup_of_unbind (lt_length_of_lookup hbound) (spaces_letGo _ _) (htables space)
          hlookup).1⟩
  | closing hbound haction =>
      exact ⟨0, fun space handle number hlookup => Or.inl
        (lookup_of_unbind (lt_length_of_lookup hbound) (spaces_park _ _ _) (htables space)
          hlookup).1⟩
  | @finished pending amount performed reply hpending hperform =>
      refine ⟨pending.space, fun space handle number hlookup => ?_⟩
      rw [lookup_congr (spaces_forget performed pending)] at hlookup
      rw [files_forget]
      exact (performed_of_perform hperform).lookup_file (htables space) hlookup
  | @continued pending amount performed rest hpending hperform =>
      exact ⟨pending.space, fun space handle number hlookup =>
        (performed_of_perform hperform).lookup_file (htables space) hlookup⟩
  | abandoned hpending =>
      refine ⟨0, fun space handle number hlookup => Or.inl ?_⟩
      rwa [lookup_congr (spaces_forget machine _)] at hlookup
  | exhausted _ => exact ⟨0, fun space handle number => Or.inl⟩

/-! ## The invariant -/

namespace FilesSound

theorem boot
    (tree : FileTree) (routed : Bool) (capacity : Nat) (configurations : List Configuration) :
    (boot tree routed capacity configurations).FilesSound := by
  have hnone := (filesOwned_boot tree routed capacity configurations).owned
  constructor
  · intro space handle number hlookup
    cases hnone space handle number hlookup
  · intro space handle other otherHandle number hlookup hother
    cases hnone space handle number hlookup

/-- Spaces may change if nothing is bound that was not bound before. -/
theorem shrink
    (hsound : machine.FilesSound) (hfiles : machine.files.length ≤ next.files.length)
    (hlookup :
      ∀ space handle number, next.lookup space handle = some (.file number) →
        machine.lookup space handle = some (.file number)) :
    next.FilesSound := by
  constructor
  · intro space handle number hbound
    exact (hsound.inRange space handle number (hlookup space handle number hbound)).trans_le hfiles
  · intro space handle other otherHandle number hbound hother
    exact hsound.unique space handle other otherHandle number (hlookup _ _ _ hbound)
      (hlookup _ _ _ hother)

theorem congr
    (hsound : machine.FilesSound) (hspaces : next.spaces = machine.spaces)
    (hfiles : machine.files.length ≤ next.files.length) : next.FilesSound := by
  apply hsound.shrink hfiles
  intro space handle number hbound
  rwa [lookup_congr hspaces] at hbound

theorem change
    (hsound : machine.FilesSound)
    (htables : ∀ space, (machine.space space).table.WellFormed) (hchange : machine.Change next) :
    next.FilesSound := by
  obtain ⟨owner, hbinds⟩ := hchange.lookup_file htables
  have hnew : ∀ {space handle number}, machine.lookup space handle = some (.file number) →
      number ≠ machine.files.length :=
    fun hold => (hsound.inRange _ _ _ hold).ne
  constructor
  · intro space handle number hbound
    rcases hbinds space handle number hbound with hold | ⟨-, -, -, hlt⟩
    · exact (hsound.inRange space handle number hold).trans_le hchange.length_files
    · exact hlt
  · intro space handle other otherHandle number hbound hother
    rcases hbinds space handle number hbound with hold | ⟨rfl, rfl, hnumber, -⟩
    · rcases hbinds other otherHandle number hother with hotherOld | ⟨-, -, hnumber, -⟩
      · exact hsound.unique space handle other otherHandle number hold hotherOld
      · exact absurd hnumber (hnew hold)
    · rcases hbinds other otherHandle number hother with hotherOld | ⟨rfl, rfl, -, -⟩
      · exact absurd hnumber (hnew hotherOld)
      · exact ⟨rfl, rfl⟩

end FilesSound

theorem length_files_dropAll (machine : Machine) (resources : List Resource) :
    (resources.foldl drop machine).files.length = machine.files.length := by
  induction resources generalizing machine with
  | nil => rfl
  | cons resource resources ih =>
      rw [List.foldl_cons, ih, drop, files_letGo]
      cases resource with
      | file number => rfl
      | listener number => rfl
      | connection number => rfl

theorem length_files_writeFile
    (machine : Machine) (handle : Handle) (number : Nat) (data : Bytes) :
    (machine.writeFile handle number data).1.files.length = machine.files.length := by
  have hlength :
      (machine.perform 0 0 (.writeFile handle number data)).1.files.length =
        machine.files.length := machine.length_files_perform 0 0 (by simp)
  exact hlength

theorem spaces_writeFile
    (machine : Machine) (handle : Handle) (number : Nat) (data : Bytes) :
    (machine.writeFile handle number data).1.spaces = machine.spaces := by
  unfold writeFile
  split
  · rfl
  · split
    · rfl
    · rfl

/-! ## All resources -/

/-- A machine in which sockets have one owner, and open files, too. -/
structure FullyOwned (machine : Machine) : Prop where
  sockets : machine.Owned
  files : machine.FilesSound

/-- No two handles stand for the same resource. -/
theorem FullyOwned.unique
    (howned : machine.FullyOwned) {resource : Resource} {space other : Nat}
    {handle otherHandle : Handle} (hbound : machine.lookup space handle = some resource)
    (hother : machine.lookup other otherHandle = some resource) :
    space = other ∧ handle = otherHandle := by
  cases resource with
  | file number => exact howned.files.unique space handle other otherHandle number hbound hother
  | listener number => exact howned.sockets.unique (by simp) hbound hother
  | connection number => exact howned.sockets.unique (by simp) hbound hother

theorem fullyOwned_boot
    (tree : FileTree) (routed : Bool) (capacity : Nat) (configurations : List Configuration) :
    (boot tree routed capacity configurations).FullyOwned :=
  ⟨owned_boot tree routed capacity configurations, .boot tree routed capacity configurations⟩

theorem Change.fullyOwned (hchange : machine.Change next) (howned : machine.FullyOwned) :
    next.FullyOwned :=
  ⟨lasting_owned.change machine next hchange howned.sockets,
    howned.files.change howned.sockets.orderly.bindings.tables hchange⟩

theorem lasting_fullyOwned : Lasting FullyOwned where
  change _ _ hchange howned := hchange.fullyOwned howned
  addSpace machine configuration howned := by
    refine ⟨lasting_owned.addSpace machine configuration howned.sockets, ?_⟩
    refine @FilesSound.shrink machine (machine.addSpace configuration).1 howned.files le_rfl ?_
    intro space handle number hbound
    unfold lookup at hbound ⊢
    rw [space_addSpace] at hbound
    split at hbound
    · cases hbound
    · exact hbound
  dropSpace machine space howned := by
    refine ⟨lasting_owned.dropSpace machine space howned.sockets, ?_⟩
    refine @FilesSound.shrink machine (machine.dropSpace space) howned.files
      (length_files_dropAll (machine.setTable space {}) _).ge ?_
    intro other handle number hbound
    exact (lookup_of_dropSpace hbound).1
  writeOpen machine handle number data howned :=
    ⟨lasting_owned.writeOpen machine handle number data howned.sockets,
      howned.files.congr (spaces_writeFile _ _ _ _) (length_files_writeFile _ _ _ _).ge⟩
  writeFile machine path data tree hwrite howned :=
    ⟨lasting_owned.writeFile machine path data tree hwrite howned.sockets,
      howned.files.congr rfl le_rfl⟩
  makeDirectories machine path howned :=
    ⟨lasting_owned.makeDirectories machine path howned.sockets, howned.files.congr rfl le_rfl⟩
  save machine path configuration howned :=
    ⟨lasting_owned.save machine path configuration howned.sockets,
      howned.files.congr rfl le_rfl⟩

end Machine

end ResourceHandles
