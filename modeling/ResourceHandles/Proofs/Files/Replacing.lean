import ResourceHandles.Proofs.Files.Kept

/-!
# Writing a file and moving it

A file that is written is found where the path leads, with the bytes that were written.
A file that is moved is found under its new path, whatever was there before, and has the
bytes that it had.  What is written makes no difference to where it ends up.
-/

namespace ResourceHandles.FileTree

variable {tree : FileTree} {path : Path} {data : Bytes}

/-! ## Writing -/

theorem content_setContent
    {number : Nat} (hlt : number < tree.contents.length) (data : Bytes) :
    (tree.setContent number data).content number = data := by
  simp [content, FileTree.setContent, List.getD_eq_getElem?_getD, hlt]

/-- A file that is opened to be replaced is there afterwards, and no directory has
changed. -/
theorem openOrCreate_replaceAccess
    {goal : Goal} {opened : FileTree} {number : Nat}
    (hopen : tree.openOrCreate replaceAccess goal = .ok (opened, .file number)) :
    ∃ directory name, goal = .name directory name false ∧ tree.SameDirectories opened ∧
      opened.child? directory name = .ok (some (.file number)) := by
  obtain ⟨directory, name, hgoal, hfound⟩ := openOrCreate_eq_ok hopen
  refine ⟨directory, name, hgoal, ?_⟩
  rcases hfound with ⟨hchild, rfl, hnumber⟩ | ⟨other, -, hchild, hexisting⟩
  · obtain ⟨hfits, hnone⟩ := child?_eq_ok_iff.mp hchild
    cases hnumber
    constructor
    · apply sameDirectories_insert
      rw [find?_concat, hnone]
      simp
    · exact child?_eq_ok_iff.mpr ⟨hfits, Store.find?_insert_self _ _ _⟩
  · cases hexisting
    exact ⟨fun location => Iff.rfl, hchild⟩

/-- A written file is found at the end of the path, and no directory has changed. -/
theorem writeFile_eq_ok
    (hstored : tree.Stored) {written : FileTree}
    (hwrite : tree.writeFile path data = .ok written) :
    ∃ directory name number, tree.locate path = .ok (.name directory name false) ∧
      tree.SameDirectories written ∧
        written.child? directory name = .ok (some (.file number)) ∧
          written.content number = data := by
  unfold writeFile at hwrite
  split at hwrite
  · cases hwrite
  · cases hwrite
  · next opened number hopen =>
      cases hwrite
      have hcontent := content_setContent (openPath_lt hstored hopen) data
      rcases openPath_eq_ok hopen with ⟨goal, hlocate, hcreate⟩ | ⟨hcreate, -⟩
      · obtain ⟨directory, name, rfl, hsame, hchild⟩ := openOrCreate_replaceAccess hcreate
        exact ⟨directory, name, number, hlocate, hsame, hchild, hcontent⟩
      · cases hcreate

/-! ## Moving -/

/-- Moving a file that takes the place of no directory leaves all directories alone. -/
theorem sameDirectories_move
    {location target : Location} (hsource : tree.find? location ≠ some .directory)
    (htarget : tree.find? target ≠ some .directory) (number : Nat) :
    tree.SameDirectories
      { tree with entries := (tree.entries.erase location).insert target (.file number) } := by
  have herase := sameDirectories_erase hsource
  exact herase.trans
    (sameDirectories_insert (fun hdirectory => htarget ((herase _).mpr hdirectory)) number
      tree.contents)

/-- A moved file is found under its new path. -/
theorem resolve_rename
    {target : Path} {location directory : Location} {name : String} {number : Nat}
    {found : Option Entry} (hsource : tree.find? location ≠ some .directory)
    (htarget : tree.locate target = .ok (.name directory name false))
    (hfound : tree.child? directory name = .ok found) (hother : found ≠ some .directory) :
    resolve
        { tree with
          entries :=
            (tree.entries.erase location).insert (directory ++ [name]) (.file number) }
        target =
      .ok (directory ++ [name], .file number) := by
  obtain ⟨hfits, hentry⟩ := child?_eq_ok_iff.mp hfound
  have hplace : tree.find? (directory ++ [name]) ≠ some .directory := by
    rw [find?_concat, hentry]
    exact hother
  have hsame := sameDirectories_move hsource hplace number
  have hchild : child?
      { tree with
        entries := (tree.entries.erase location).insert (directory ++ [name]) (.file number) }
      directory name = .ok (some (.file number)) :=
    child?_eq_ok_iff.mpr ⟨hfits, Store.find?_insert_self _ _ _⟩
  unfold resolve
  rw [hsame.locate htarget]
  simp only [hchild]
  rfl

/-- A file that was written under one path and moved to another is found under the other
one with the bytes that were written. -/
theorem readFile_of_moved
    (hstored : tree.Stored) {source target : Path} {written renamed : FileTree}
    (hwrite : tree.writeFile source data = .ok written)
    (hrename : written.rename source target = .ok renamed) :
    renamed.readFile target = .ok data ∧ renamed.pathExists target = true := by
  obtain ⟨directory, name, number, hlocate, hsame, hchild, hcontent⟩ :=
    writeFile_eq_ok hstored hwrite
  obtain ⟨fromDirectory, fromName, intoDirectory, intoName, moved, found, hsource, hmoved,
    htarget, hfound, hother, hrenamed⟩ := rename_eq_ok hrename
  -- The file that is moved is the one that was written.
  cases (hsame.locate hlocate).symm.trans hsource
  cases hchild.symm.trans hmoved
  have hresolve : renamed.resolve target = .ok (intoDirectory ++ [intoName], .file number) ∧
      renamed.content number = data := by
    rcases hrenamed with ⟨rfl, rfl⟩ | ⟨-, rfl⟩
    · refine ⟨?_, hcontent⟩
      unfold resolve
      rw [htarget]
      simp only [hfound]
      rfl
    · have hfile : written.find? (directory ++ [name]) ≠ some .directory := by
        rw [find?_concat, (child?_eq_ok_iff.mp hchild).2]
        simp
      exact ⟨resolve_rename hfile htarget hfound hother, hcontent⟩
  constructor
  · rw [readFile, hresolve.1]
    exact congrArg Except.ok hresolve.2
  · rw [pathExists, hresolve.1]

/-! ## What is written makes no difference -/

theorem walk_setContent
    (tree : FileTree) (number : Nat) (data : Bytes) (directory : Location)
    (names : List String) :
    (tree.setContent number data).walk directory names = tree.walk directory names := by
  induction names generalizing directory with
  | nil => rfl
  | cons name names ih =>
      simp only [walk, ih]
      rfl

theorem locate_setContent (tree : FileTree) (number : Nat) (data : Bytes) (path : Path) :
    (tree.setContent number data).locate path = tree.locate path := by
  simp only [locate, walk_setContent]

theorem rename_setContent
    (tree : FileTree) (number : Nat) (data : Bytes) (source target : Path) :
    (tree.setContent number data).rename source target =
      (tree.rename source target).map fun renamed => renamed.setContent number data := by
  have hchild : ∀ directory name,
      (tree.setContent number data).child? directory name = tree.child? directory name :=
    fun _ _ => rfl
  simp only [rename, locate_setContent, hchild]
  cases tree.locate source with
  | error fault => rfl
  | ok sourceGoal =>
      cases tree.locate target with
      | error fault => rfl
      | ok targetGoal =>
          cases sourceGoal with
          | here directory => rfl
          | name directory name slash =>
              cases targetGoal with
              | here targetDirectory => rfl
              | name targetDirectory targetName targetSlash =>
                  dsimp only
                  cases tree.child? directory name with
                  | error fault => rfl
                  | ok entry =>
                      cases entry with
                      | none => rfl
                      | some entry =>
                          dsimp only
                          cases tree.child? targetDirectory targetName with
                          | error fault => rfl
                          | ok found =>
                              dsimp only
                              split_ifs
                              · rfl
                              · rfl
                              · rfl
                              · rfl

end ResourceHandles.FileTree
