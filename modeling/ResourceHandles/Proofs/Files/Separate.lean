import ResourceHandles.Proofs.Files.Replacing

/-!
# Where a change is seen

A change of a file is seen at the locations that lead to it.  In the trees of a session no
two locations lead to the same file, so it is seen at one location only.  Directories are
made where nothing was, and so no file is lost by that either.
-/

namespace ResourceHandles.FileTree

variable {tree opened later : FileTree} {path : Path} {location place : Location}
  {number : Nat} {data : Bytes}

/-- The bytes of the file at a location. -/
def fileBytes? (tree : FileTree) (location : Location) : Option Bytes :=
  match tree.find? location with
  | some (.file number) => some (tree.content number)
  | _ => none

/-- Every file that a location leads to is kept, and it is found at no other location. -/
structure Separate (tree : FileTree) : Prop where
  stored : tree.Stored
  apart : tree.Apart

theorem Evolves.separate (hevolves : tree.Evolves later) (hseparate : tree.Separate) :
    later.Separate :=
  ⟨hevolves.stored hseparate.stored, hevolves.apart hseparate.stored hseparate.apart⟩

theorem separate_empty : Separate {} := by
  constructor
  · intro location number hfind
    cases hfind
  · intro location other number hfind
    cases hfind

/-- A change is seen at one location at most. -/
def AgreesExcept (tree later : FileTree) (location : Location) : Prop :=
  ∀ place, place ≠ location → later.fileBytes? place = tree.fileBytes? place

/-- The same locations lead to the same files, and these have the same bytes. -/
structure SameFiles (tree later : FileTree) : Prop where
  find :
    ∀ location number,
      later.find? location = some (.file number) ↔ tree.find? location = some (.file number)
  contents : later.contents = tree.contents

theorem SameFiles.refl (tree : FileTree) : tree.SameFiles tree :=
  ⟨fun _ _ => Iff.rfl, rfl⟩

theorem SameFiles.trans
    (hsame : tree.SameFiles opened) (hlater : opened.SameFiles later) : tree.SameFiles later :=
  ⟨fun location number => (hlater.find location number).trans (hsame.find location number),
    hlater.contents.trans hsame.contents⟩

theorem AgreesExcept.trans
    (hfirst : tree.AgreesExcept opened location) (hsecond : opened.AgreesExcept later location) :
    tree.AgreesExcept later location :=
  fun place hplace => (hsecond place hplace).trans (hfirst place hplace)

/-! ## What a location leads to -/

theorem entry_of_find?_file (hfind : tree.find? location = some (.file number)) :
    tree.entries.find? location = some (.file number) := by
  rwa [find?_of_ne_nil tree] at hfind
  rintro rfl
  cases hfind

theorem fileBytes?_of_file (hfind : tree.find? location = some (.file number)) :
    tree.fileBytes? location = some (tree.content number) := by
  unfold fileBytes?
  rw [hfind]

/-- Two trees agree on a location where they lead to the same file, if that has the same
bytes. -/
theorem fileBytes?_congr
    (hfind :
      ∀ number,
        later.find? location = some (.file number) ↔ tree.find? location = some (.file number))
    (hcontent :
      ∀ number, tree.find? location = some (.file number) →
        later.content number = tree.content number) :
    later.fileBytes? location = tree.fileBytes? location := by
  cases hentry : tree.find? location with
  | none =>
      unfold fileBytes?
      rw [hentry]
      split
      · next number hlater =>
          rw [hfind, hentry] at hlater
          cases hlater
      · rfl
  | some entry =>
      cases entry with
      | file number =>
          rw [fileBytes?_of_file ((hfind number).mpr hentry), fileBytes?_of_file hentry,
            hcontent number hentry]
      | directory =>
          unfold fileBytes?
          rw [hentry]
          split
          · next number hlater =>
              rw [hfind, hentry] at hlater
              cases hlater
          · rfl

theorem SameFiles.fileBytes?_eq (hsame : tree.SameFiles later) (location : Location) :
    later.fileBytes? location = tree.fileBytes? location := by
  apply fileBytes?_congr (hsame.find location)
  intro number _
  unfold content
  rw [hsame.contents]

/-! ## Writing -/

theorem content_setContent_of_ne {other : Nat} (hne : other ≠ number) (data : Bytes) :
    (tree.setContent number data).content other = tree.content other := by
  simp [content, FileTree.setContent, List.getD_eq_getElem?_getD, hne.symm]

/-- Writing a file is seen where it is found, and nowhere else. -/
theorem Separate.agreesExcept_setContent
    (hseparate : tree.Separate) (hfind : tree.find? location = some (.file number))
    (data : Bytes) : tree.AgreesExcept (tree.setContent number data) location := by
  intro place hplace
  apply fileBytes?_congr
  · exact fun _ => Iff.rfl
  · intro other hother
    have hne : other ≠ number := by
      rintro rfl
      exact hplace (hseparate.apart _ _ _ (entry_of_find?_file hother) (entry_of_find?_file hfind))
    exact content_setContent_of_ne hne data

/-! ## Opening -/

theorem find?_addFile_of_ne (hne : place ≠ location) :
    (tree.addFile location).1.find? place = tree.find? place := by
  by_cases hroot : place = []
  · rw [hroot]
    rfl
  · rw [find?_of_ne_nil _ hroot, find?_of_ne_nil _ hroot]
    exact Store.find?_insert_of_ne _ _ hne

theorem agreesExcept_addFile (hstored : tree.Stored) (location : Location) :
    tree.AgreesExcept (tree.addFile location).1 location := by
  intro place hplace
  apply fileBytes?_congr
  · intro number
    rw [find?_addFile_of_ne hplace]
  · intro number hfind
    have hlt := hstored _ _ (entry_of_find?_file hfind)
    simp [content, FileTree.addFile, List.getD_eq_getElem?_getD, List.getElem?_append_left hlt]

/-- A file that was opened to be replaced is empty. -/
theorem setContent_of_openPath
    (hopen : tree.openPath path replaceAccess = .ok (opened, .file number)) :
    opened.setContent number [] = opened := by
  rcases openPath_eq_ok hopen with ⟨goal, -, hcreate⟩ | ⟨hcreate, -⟩
  · obtain ⟨directory, name, -, hfound⟩ := openOrCreate_eq_ok hcreate
    rcases hfound with ⟨-, rfl, hnumber⟩ | ⟨other, -, -, hexisting⟩
    · cases hnumber
      simp [FileTree.setContent, FileTree.addFile]
    · cases hexisting
      simp [FileTree.setContent]
  · cases hcreate

/-- What opening a file to replace it comes to: there is a file at the end of the path, the
one that was there or a new one, and nothing else has changed. -/
structure Emptied (tree opened : FileTree) (location : Location) (number : Nat) : Prop where
  stored : opened.Stored
  directories : tree.SameDirectories opened
  find : opened.find? location = some (.file number)
  found : tree.find? location = some (.file number) ∨ tree.contents.length ≤ number
  names : ∀ place, place ≠ location → opened.find? place = tree.find? place
  bytes :
    ∀ other, other ≠ number → other < tree.contents.length →
      opened.content other = tree.content other

theorem Stored.emptied_of_openPath
    (hstored : tree.Stored)
    (hopen : tree.openPath path replaceAccess = .ok (opened, .file number)) :
    ∃ directory name, tree.locate path = .ok (.name directory name false) ∧
      tree.Emptied opened (directory ++ [name]) number := by
  have hlater := (openPath_evolves hopen).stored hstored
  rcases openPath_eq_ok hopen with ⟨goal, hlocate, hcreate⟩ | ⟨hcreate, -⟩
  · obtain ⟨directory, name, rfl, hfound⟩ := openOrCreate_eq_ok hcreate
    refine ⟨directory, name, hlocate, ?_⟩
    rcases hfound with ⟨hchild, rfl, hnumber⟩ | ⟨other, -, hchild, hexisting⟩
    · obtain ⟨hfits, hnone⟩ := child?_eq_ok_iff.mp hchild
      cases hnumber
      refine ⟨hlater, ?_, ?_, Or.inr le_rfl, fun place hplace => find?_addFile_of_ne hplace, ?_⟩
      · apply sameDirectories_insert
        rw [find?_concat, hnone]
        simp
      · rw [find?_concat]
        exact Store.find?_insert_self _ _ _
      · intro other _ hlt
        simp [content, FileTree.addFile, List.getD_eq_getElem?_getD,
          List.getElem?_append_left hlt]
    · cases hexisting
      have hfind : tree.find? (directory ++ [name]) = some (.file number) := by
        rw [find?_concat]
        exact (child?_eq_ok_iff.mp hchild).2
      exact ⟨hlater, fun place => Iff.rfl, hfind, Or.inl hfind, fun _ _ => rfl,
        fun other hother _ => content_setContent_of_ne hother []⟩
  · cases hcreate

/-! ## Directories -/

theorem makeDirectory_eq_ok (hmake : tree.makeDirectory path = .ok later) :
    ∃ location, tree.find? location = none ∧
      later = { tree with entries := tree.entries.insert location .directory } := by
  unfold makeDirectory at hmake
  split at hmake
  · cases hmake
  · cases hmake
  · next directory name slash hlocate =>
      split at hmake
      · cases hmake
      · cases hmake
      · next hchild =>
          cases hmake
          refine ⟨directory ++ [name], ?_, rfl⟩
          rw [find?_concat]
          exact (child?_eq_ok_iff.mp hchild).2

theorem find?_insert_directory
    (hnone : tree.find? location = none) (place : Location) :
    FileTree.find? { tree with entries := tree.entries.insert location .directory } place =
      if place = location then some .directory else tree.find? place := by
  have hne : location ≠ [] := by
    rintro rfl
    cases hnone
  by_cases hroot : place = []
  · rw [hroot, if_neg hne.symm]
    rfl
  · rw [find?_of_ne_nil _ hroot, find?_of_ne_nil _ hroot]
    by_cases hplace : place = location
    · rw [if_pos hplace, hplace, Store.find?_insert_self]
    · rw [if_neg hplace, Store.find?_insert_of_ne _ _ hplace]

/-- Making a directory is seen at no file. -/
theorem sameFiles_makeDirectory (hmake : tree.makeDirectory path = .ok later) :
    tree.SameFiles later := by
  obtain ⟨location, hnone, rfl⟩ := makeDirectory_eq_ok hmake
  refine ⟨fun place number => ?_, rfl⟩
  rw [find?_insert_directory hnone]
  by_cases hplace : place = location
  · rw [if_pos hplace, hplace, hnone]
    simp
  · rw [if_neg hplace]

/-! ## Moving -/

/-- Moving a file is seen at its old and at its new location only. -/
theorem fileBytes?_rename
    {source target place : Location} (hsource : tree.find? source ≠ some .directory)
    (htarget : target ≠ []) (hne : source ≠ target) :
    let renamed : FileTree :=
      { tree with entries := (tree.entries.erase source).insert target (.file number) }
    (renamed.fileBytes? target = some (tree.content number) ∧ renamed.find? source = none) ∧
      (place ≠ source → place ≠ target → renamed.fileBytes? place = tree.fileBytes? place) := by
  intro renamed
  have hroot := ne_nil_of_find? hsource
  refine ⟨⟨?_, ?_⟩, ?_⟩
  · apply fileBytes?_of_file
    rw [find?_of_ne_nil renamed htarget]
    exact Store.find?_insert_self _ _ _
  · rw [find?_of_ne_nil renamed hroot]
    exact (Store.find?_insert_of_ne _ _ hne).trans (Store.find?_erase_self _ _)
  · intro hnotSource hnotTarget
    have hfind : renamed.find? place = tree.find? place := by
      by_cases hplace : place = []
      · rw [hplace]
        rfl
      · rw [find?_of_ne_nil renamed hplace, find?_of_ne_nil tree hplace]
        exact (Store.find?_insert_of_ne _ _ hnotTarget).trans
          (Store.find?_erase_of_ne _ hnotSource)
    refine fileBytes?_congr (fun number => ?_) fun _ _ => rfl
    rw [hfind]

/-- What moving a file from one path to another comes to. -/
structure Moved (tree moved : FileTree) (source target : Path) (place into : Location)
    (number : Nat) : Prop where
  from_place : tree.destination? source = some place
  into_place : tree.destination? target = some into
  find : tree.find? place = some (.file number)
  read : moved.readFile target = .ok (tree.content number)
  apart :
    tree.find? into ≠ some (.file number) →
      moved.fileBytes? into = some (tree.content number) ∧ moved.pathExists source = false ∧
        ∀ other, other ≠ place → other ≠ into → moved.fileBytes? other = tree.fileBytes? other

theorem moved_of_rename
    {source target : Path} (hrename : tree.rename source target = .ok later) :
    ∃ place into number, tree.Moved later source target place into number := by
  obtain ⟨directory, name, intoDirectory, intoName, number, found, hsource, hmoved, htarget,
    hfound, hother, hrenamed⟩ := rename_eq_ok hrename
  have hfind : tree.find? (directory ++ [name]) = some (.file number) := by
    rw [find?_concat]
    exact (child?_eq_ok_iff.mp hmoved).2
  have hinto : tree.find? (intoDirectory ++ [intoName]) = found := by
    rw [find?_concat]
    exact (child?_eq_ok_iff.mp hfound).2
  have hplaces :
      tree.destination? source = some (directory ++ [name]) ∧
        tree.destination? target = some (intoDirectory ++ [intoName]) :=
    ⟨destination?_eq_some_iff.mpr ⟨directory, name, hsource, rfl⟩,
      destination?_eq_some_iff.mpr ⟨intoDirectory, intoName, htarget, rfl⟩⟩
  refine ⟨directory ++ [name], intoDirectory ++ [intoName], number, ?_⟩
  rcases hrenamed with ⟨rfl, rfl⟩ | ⟨hdifferent, hrenamed⟩
  · refine ⟨hplaces.1, hplaces.2, hfind, ?_, fun hdifferent => absurd hinto hdifferent⟩
    rw [readFile, resolve, htarget]
    simp only [hfound]
    rfl
  · have hfile : tree.find? (directory ++ [name]) ≠ some .directory := by
      rw [hfind]
      simp
    have hnoDirectory : tree.find? (intoDirectory ++ [intoName]) ≠ some .directory := by
      rwa [hinto]
    have hapart : directory ++ [name] ≠ intoDirectory ++ [intoName] := by
      intro hsame
      rw [hsame, hinto] at hfind
      exact hdifferent hfind
    have hdirectories := sameDirectories_move hfile hnoDirectory number
    have hresolve := @resolve_rename tree target _ _ _ number found hfile htarget hfound hother
    have hfiles := fun other =>
      @fileBytes?_rename tree number _ (intoDirectory ++ [intoName]) other hfile (by simp) hapart
    rw [← hrenamed] at hdirectories hresolve hfiles
    refine ⟨hplaces.1, hplaces.2, hfind, ?_, ?_⟩
    · rw [readFile, hresolve, hrenamed]
      rfl
    · intro _
      obtain ⟨⟨hbytes, hnone⟩, -⟩ := hfiles []
      have hgone : later.child? directory name = .ok none := by
        refine child?_eq_ok_iff.mpr ⟨(child?_eq_ok_iff.mp hmoved).1, ?_⟩
        rw [← find?_concat]
        exact hnone
      have hresolved : later.resolve source = .error .notFound := by
        rw [resolve, hdirectories.locate hsource]
        simp only [hgone]
      exact ⟨hbytes, by rw [pathExists, hresolved], fun other => (hfiles other).2⟩

end ResourceHandles.FileTree
