import ResourceHandles.Proofs.Files.OpenFiles
import ResourceHandles.Proofs.Files.Walks

/-!
# The bytes of files are kept

A location may lead to a file only if the bytes of this file are kept, and no two locations
lead to the same file.  Every change of a tree sees to that, and no change gives up the
bytes of a file: one that is no longer found may still be open.
-/

namespace ResourceHandles

namespace FileTree

variable {tree opened later : FileTree} {path : Path} {access : Access} {location : Location}

/-- The bytes of every file that a location leads to are kept. -/
def Stored (tree : FileTree) : Prop :=
  ∀ location number,
    tree.entries.find? location = some (.file number) → number < tree.contents.length

/-- No two locations lead to the same file. -/
def Apart (tree : FileTree) : Prop :=
  ∀ location other number,
    tree.entries.find? location = some (.file number) →
      tree.entries.find? other = some (.file number) → location = other

/-- No file loses its place among the contents, and no location leads to a file without one,
or to the file of another location, if none did before. -/
structure Evolves (tree later : FileTree) : Prop where
  stored : tree.Stored → later.Stored
  apart : tree.Stored → tree.Apart → later.Apart
  grows : tree.contents.length ≤ later.contents.length

theorem Evolves.refl (tree : FileTree) : tree.Evolves tree :=
  ⟨id, fun _ hapart => hapart, Nat.le_refl _⟩

theorem Evolves.trans
    (hfirst : tree.Evolves opened) (hsecond : opened.Evolves later) : tree.Evolves later :=
  ⟨hsecond.stored ∘ hfirst.stored,
    fun hstored hapart => hsecond.apart (hfirst.stored hstored) (hfirst.apart hstored hapart),
    Nat.le_trans hfirst.grows hsecond.grows⟩

/-! ## Single changes -/

theorem evolves_setContent (tree : FileTree) (number : Nat) (data : Bytes) :
    tree.Evolves (tree.setContent number data) := by
  have hlength : (tree.setContent number data).contents.length = tree.contents.length :=
    List.length_set
  refine ⟨?_, fun _ hapart => hapart, Nat.le_of_eq hlength.symm⟩
  intro hstored location other hfind
  rw [hlength]
  exact hstored location other hfind

theorem Stored.insert
    {entry : Entry} {contents : List Bytes} (hstored : tree.Stored)
    (hgrows : tree.contents.length ≤ contents.length)
    (hentry : ∀ number, entry = .file number → number < contents.length) :
    Stored ⟨tree.entries.insert location entry, contents⟩ := by
  intro place number hfind
  by_cases hplace : place = location
  · rw [hplace, Store.find?_insert_self] at hfind
    cases hfind
    exact hentry number rfl
  · rw [Store.find?_insert_of_ne _ _ hplace] at hfind
    exact Nat.lt_of_lt_of_le (hstored place number hfind) hgrows

theorem Apart.insert
    {entry : Entry} {contents : List Bytes} (hapart : tree.Apart)
    (hentry :
      ∀ number place, entry = .file number →
        tree.entries.find? place ≠ some (.file number)) :
    Apart ⟨tree.entries.insert location entry, contents⟩ := by
  have hfound : ∀ place number,
      (tree.entries.insert location entry).find? place = some (.file number) →
        place = location ∧ entry = .file number ∨
          tree.entries.find? place = some (.file number) := by
    intro place number hfind
    by_cases hplace : place = location
    · rw [hplace, Store.find?_insert_self] at hfind
      exact Or.inl ⟨hplace, Option.some.inj hfind⟩
    · rw [Store.find?_insert_of_ne _ _ hplace] at hfind
      exact Or.inr hfind
  intro first second number hfirst hsecond
  rcases hfound _ _ hfirst with ⟨rfl, hnew⟩ | hold
  · rcases hfound _ _ hsecond with ⟨rfl, -⟩ | hother
    · rfl
    · exact absurd hother (hentry number second hnew)
  · rcases hfound _ _ hsecond with ⟨-, hnew⟩ | hother
    · exact absurd hold (hentry number first hnew)
    · exact hapart first second number hold hother

theorem find?_of_erase
    {place : Location} {entry : Entry}
    (hfind : (tree.entries.erase location).find? place = some entry) :
    place ≠ location ∧ tree.entries.find? place = some entry := by
  by_cases hplace : place = location
  · rw [hplace, Store.find?_erase_self] at hfind
    cases hfind
  · rw [Store.find?_erase_of_ne _ hplace] at hfind
    exact ⟨hplace, hfind⟩

theorem evolves_erase (tree : FileTree) (location : Location) :
    tree.Evolves { tree with entries := tree.entries.erase location } := by
  refine ⟨?_, ?_, Nat.le_refl _⟩
  · intro hstored place number hfind
    exact hstored place number (find?_of_erase hfind).2
  · intro _ hapart first second number hfirst hsecond
    exact hapart first second number (find?_of_erase hfirst).2 (find?_of_erase hsecond).2

theorem addFile_lt (tree : FileTree) (location : Location) :
    (tree.addFile location).2 < (tree.addFile location).1.contents.length := by
  simp [addFile]

theorem evolves_addFile (tree : FileTree) (location : Location) :
    tree.Evolves (tree.addFile location).1 := by
  have hgrows : tree.contents.length ≤ (tree.contents ++ [[]]).length := by simp
  refine ⟨?_, ?_, hgrows⟩
  · intro hstored
    refine hstored.insert hgrows ?_
    rintro number ⟨⟩
    exact addFile_lt tree location
  · -- The number of the new file was not in use.
    intro hstored hapart
    refine hapart.insert ?_
    rintro number place ⟨⟩ hfind
    exact lt_irrefl _ (hstored place _ hfind)

/-! ## Opening -/

theorem child?_lt
    (hstored : tree.Stored) {directory : Location} {name : String} {number : Nat}
    (hchild : tree.child? directory name = .ok (some (.file number))) :
    number < tree.contents.length :=
  hstored _ _ (child?_eq_ok_iff.mp hchild).2

theorem resolve_lt
    (hstored : tree.Stored) {number : Nat}
    (hresolve : tree.resolve path = .ok (location, .file number)) :
    number < tree.contents.length := by
  unfold resolve at hresolve
  split at hresolve
  · cases hresolve
  · cases hresolve
  · split at hresolve
    · cases hresolve
    · cases hresolve
    · cases hresolve
    · next hchild =>
        split_ifs at hresolve
        cases hresolve
        exact child?_lt hstored hchild

theorem openExisting_eq_ok
    {entry found : Entry} (hopen : tree.openExisting access entry = .ok (opened, found)) :
    found = entry ∧ (opened = tree ∨ ∃ number, opened = tree.setContent number []) := by
  cases entry with
  | directory =>
      simp only [openExisting] at hopen
      split_ifs at hopen
      cases hopen
      exact ⟨rfl, Or.inl rfl⟩
  | file number =>
      simp only [openExisting] at hopen
      split at hopen
      · cases hopen
        exact ⟨rfl, Or.inr ⟨number, rfl⟩⟩
      · cases hopen
        exact ⟨rfl, Or.inl rfl⟩

theorem openExisting_evolves
    {entry found : Entry} (hopen : tree.openExisting access entry = .ok (opened, found)) :
    tree.Evolves opened := by
  rcases (openExisting_eq_ok hopen).2 with rfl | ⟨number, rfl⟩
  · exact Evolves.refl _
  · exact evolves_setContent tree number []

theorem openOrCreate_eq_ok
    {goal : Goal} {entry : Entry} (hopen : tree.openOrCreate access goal = .ok (opened, entry)) :
    ∃ directory name, goal = .name directory name false ∧
      ((tree.child? directory name = .ok none ∧ opened = (tree.addFile (directory ++ [name])).1 ∧
          entry = .file (tree.addFile (directory ++ [name])).2) ∨
        ∃ number, access.createNew = false ∧
          tree.child? directory name = .ok (some (.file number)) ∧
            tree.openExisting access (.file number) = .ok (opened, entry)) := by
  cases goal with
  | here directory => cases hopen
  | name directory name slash =>
      cases slash with
      | true => cases hopen
      | false =>
          simp only [openOrCreate, Bool.false_eq_true, if_false] at hopen
          refine ⟨directory, name, rfl, ?_⟩
          split at hopen
          · cases hopen
          · next hchild =>
              cases hopen
              exact Or.inl ⟨hchild, rfl, rfl⟩
          · next found hchild =>
              split_ifs at hopen with hnew
              cases found with
              | directory => cases hopen
              | file number => exact Or.inr ⟨number, by simpa using hnew, hchild, hopen⟩

/-- A path is opened by creating a file or by opening what it leads to. -/
theorem openPath_eq_ok
    {entry : Entry} (hopen : tree.openPath path access = .ok (opened, entry)) :
    (∃ goal, tree.locate path = .ok goal ∧
        tree.openOrCreate access goal = .ok (opened, entry)) ∨
      (access.create || access.createNew) = false ∧
        ∃ location found, tree.resolve path = .ok (location, found) ∧
          tree.openExisting access found = .ok (opened, entry) := by
  unfold openPath at hopen
  split at hopen
  · cases hopen
  · split at hopen
    · cases hopen
    · split at hopen
      · split at hopen
        · cases hopen
        · next goal hlocate => exact Or.inl ⟨goal, hlocate, hopen⟩
      · next hcreate =>
          rw [Bool.not_eq_true] at hcreate
          split at hopen
          · cases hopen
          · next location found hresolve =>
              exact Or.inr ⟨hcreate, location, found, hresolve, hopen⟩

theorem openPath_evolves
    {entry : Entry} (hopen : tree.openPath path access = .ok (opened, entry)) :
    tree.Evolves opened := by
  rcases openPath_eq_ok hopen with ⟨goal, -, hcreate⟩ | ⟨-, location, found, -, hexisting⟩
  · obtain ⟨directory, name, -, hfound⟩ := openOrCreate_eq_ok hcreate
    rcases hfound with ⟨-, rfl, -⟩ | ⟨number, -, -, hexisting⟩
    · exact evolves_addFile tree _
    · exact openExisting_evolves hexisting
  · exact openExisting_evolves hexisting

/-- The bytes of a file that was opened are kept. -/
theorem openPath_lt
    (hstored : tree.Stored) {number : Nat}
    (hopen : tree.openPath path access = .ok (opened, .file number)) :
    number < opened.contents.length := by
  rcases openPath_eq_ok hopen with ⟨goal, -, hcreate⟩ | ⟨-, location, found, hresolve, hexisting⟩
  · obtain ⟨directory, name, -, hfound⟩ := openOrCreate_eq_ok hcreate
    rcases hfound with ⟨-, rfl, hnumber⟩ | ⟨other, -, hchild, hexisting⟩
    · cases hnumber
      exact addFile_lt tree _
    · cases (openExisting_eq_ok hexisting).1
      exact Nat.lt_of_lt_of_le (child?_lt hstored hchild) (openExisting_evolves hexisting).grows
  · cases (openExisting_eq_ok hexisting).1
    exact Nat.lt_of_lt_of_le (resolve_lt hstored hresolve) (openExisting_evolves hexisting).grows

theorem writeFile_evolves
    {data : Bytes} (hwrite : tree.writeFile path data = .ok later) : tree.Evolves later := by
  unfold writeFile at hwrite
  split at hwrite
  · cases hwrite
  · cases hwrite
  · next opened number hopen =>
      cases hwrite
      exact (openPath_evolves hopen).trans (evolves_setContent opened number data)

/-! ## Directories -/

theorem makeDirectory_evolves (hmake : tree.makeDirectory path = .ok later) :
    tree.Evolves later := by
  unfold makeDirectory at hmake
  split at hmake
  · cases hmake
  · cases hmake
  · split at hmake
    · cases hmake
    · cases hmake
    · cases hmake
      refine ⟨fun hstored => hstored.insert (Nat.le_refl _) ?_, fun _ hapart => hapart.insert ?_,
        Nat.le_refl _⟩
      · rintro number ⟨⟩
      · rintro number place ⟨⟩

theorem evolves_makeNested (tree : FileTree) (paths : List Path) :
    tree.Evolves (tree.makeNested paths).1 := by
  induction paths with
  | nil => exact Evolves.refl tree
  | cons path above ih =>
      rw [makeNested]
      split
      · next grown hmake => exact makeDirectory_evolves hmake
      · split
        · next grown fault hnested =>
            rw [hnested] at ih
            exact ih
        · next grown hnested =>
            rw [hnested] at ih
            split
            · next complete hmake => exact ih.trans (makeDirectory_evolves hmake)
            · split
              · exact ih
              · exact ih
      · split
        · exact Evolves.refl tree
        · exact Evolves.refl tree

theorem evolves_makeDirectories (tree : FileTree) (path : Path) :
    tree.Evolves (tree.makeDirectories path).1 := by
  unfold makeDirectories
  split
  · exact Evolves.refl tree
  · exact evolves_makeNested tree _

/-! ## Removing and moving -/

theorem unlink_evolves (hunlink : tree.unlink path = .ok later) : tree.Evolves later := by
  unfold unlink at hunlink
  split at hunlink
  · cases hunlink
  · cases hunlink
  · split at hunlink
    · cases hunlink
    · cases hunlink
    · cases hunlink
    · split_ifs at hunlink
      cases hunlink
      exact evolves_erase tree _

/-- What moves a file, and where to. -/
theorem rename_eq_ok
    {source target : Path} (hrename : tree.rename source target = .ok later) :
    ∃ directory name targetDirectory targetName number found,
      tree.locate source = .ok (.name directory name false) ∧
        tree.child? directory name = .ok (some (.file number)) ∧
          tree.locate target = .ok (.name targetDirectory targetName false) ∧
            tree.child? targetDirectory targetName = .ok found ∧ found ≠ some .directory ∧
              (found = some (.file number) ∧ later = tree ∨
                found ≠ some (.file number) ∧
                  later = { tree with
                    entries := (tree.entries.erase (directory ++ [name])).insert
                      (targetDirectory ++ [targetName]) (.file number) }) := by
  unfold rename at hrename
  split at hrename
  · cases hrename
  · next sourceGoal hsource =>
      split at hrename
      · cases hrename
      · next targetGoal htarget =>
          split at hrename
          · next directory name sourceSlash targetDirectory targetName targetSlash =>
              split at hrename
              · cases hrename
              · cases hrename
              · next entry hentry =>
                  split at hrename
                  · cases hrename
                  · next found hfound =>
                      split at hrename
                      · cases hrename
                      · next hslash =>
                          split at hrename
                          · cases hrename
                          · next hdirectory =>
                              simp only [Bool.or_eq_true, not_or, Bool.not_eq_true] at hslash
                              rw [not_or] at hdirectory
                              rw [hslash.1] at hsource
                              rw [hslash.2] at htarget
                              cases entry with
                              | directory => exact absurd rfl hdirectory.1
                              | file number =>
                                  refine ⟨directory, name, targetDirectory, targetName, number,
                                    found, hsource, hentry, htarget, hfound, hdirectory.2, ?_⟩
                                  split at hrename
                                  · next hsame =>
                                      cases hrename
                                      exact Or.inl ⟨hsame, rfl⟩
                                  · next hother =>
                                      cases hrename
                                      exact Or.inr ⟨hother, rfl⟩
          · cases hrename

theorem rename_evolves
    {source target : Path} (hrename : tree.rename source target = .ok later) :
    tree.Evolves later := by
  obtain ⟨directory, name, targetDirectory, targetName, number, found, -, hmoved, -, -, -,
    ⟨-, rfl⟩ | ⟨-, rfl⟩⟩ := rename_eq_ok hrename
  · exact Evolves.refl _
  · have herased := evolves_erase tree (directory ++ [name])
    refine ⟨?_, ?_, Nat.le_refl _⟩
    · intro hstored
      refine (herased.stored hstored).insert (Nat.le_refl _) ?_
      rintro number ⟨⟩
      exact child?_lt hstored hmoved
    · -- The file was at its old location only.
      intro hstored hapart
      refine (herased.apart hstored hapart).insert ?_
      rintro number place ⟨⟩ hfind
      obtain ⟨hne, hplace⟩ := find?_of_erase hfind
      exact hne (hapart place _ number hplace (child?_eq_ok_iff.mp hmoved).2)

end FileTree

/-! ## Open files -/

theorem OpenFile.write_evolves
    {file moved : OpenFile} {tree later : FileTree} {data : Bytes}
    (hwrite : file.write tree data = .ok (moved, later)) : tree.Evolves later := by
  rcases write_eq_ok hwrite with ⟨-, -, rfl⟩ | ⟨-, hput⟩
  · exact FileTree.Evolves.refl _
  · obtain ⟨_, -, -, -, rfl⟩ := put_eq_ok hput
    exact FileTree.evolves_setContent _ _ _

end ResourceHandles
