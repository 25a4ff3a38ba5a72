import ResourceHandles.Proofs.Configuration.Saving
import ResourceHandles.Proofs.Files.TemporaryPath

/-!
# A file is replaced at once

Whoever looks at the tree while a configuration is saved sees the old file or the whole
new one, and nothing but the temporary file beside it has changed.  If the save fails, the
old file stays.

The temporary file is not made anew: a file that is found under its name is emptied and
written.  So all this takes for granted that the file which is found there is not the old
file under another name.
-/

namespace ResourceHandles

namespace Configuration

/-- The directories that a save makes for a path. -/
def made (tree : FileTree) (path : Path) : FileTree × Option FileFault :=
  match path.parent? with
  | none => (tree, none)
  | some parent => tree.makeDirectories parent

/-- The location of the file that a save is to replace. -/
def target? (tree : FileTree) (path : Path) : Option Location :=
  (made tree path).1.destination? path

/-- The location of the temporary file of a save. -/
def temporary? (tree : FileTree) (path : Path) : Option Location :=
  (made tree path).1.destination? (temporaryPath path)

theorem target?_ne_temporary?
    {tree : FileTree} {path : Path} {location : Location}
    (htarget : target? tree path = some location) : temporary? tree path ≠ some location := by
  intro htemporary
  obtain ⟨directory, name, hlocate, rfl⟩ := FileTree.destination?_eq_some_iff.mp htarget
  obtain ⟨other, next, hother, hsame⟩ := FileTree.destination?_eq_some_iff.mp htemporary
  apply FileTree.name_ne_of_locate hlocate hother
  have hlast := congrArg List.getLast? hsame
  simpa using hlast

/-- A location leads to the temporary file of a save: it is the location of that file, or it
leads to the file that is there before the save. -/
def LeadsToTemporary (tree : FileTree) (path : Path) (location : Location) : Prop :=
  ∃ place, temporary? tree path = some place ∧
    (location = place ∨
      ∃ number,
        tree.find? place = some (.file number) ∧ tree.find? location = some (.file number))

/-- In the trees of a session the file that is to be replaced has no other name. -/
theorem not_leadsToTemporary_of_separate
    {tree : FileTree} {path : Path} {location : Location} (hseparate : tree.Separate)
    (htarget : target? tree path = some location) : ¬LeadsToTemporary tree path location := by
  rintro ⟨place, hplace, rfl | ⟨number, hfind, hother⟩⟩
  · exact target?_ne_temporary? htarget hplace
  · have hsame := hseparate.apart _ _ _ (FileTree.entry_of_find?_file hfind)
      (FileTree.entry_of_find?_file hother)
    exact target?_ne_temporary? htarget (hsame ▸ hplace)

/-- What a tree has in common with the one before a save whatever has been done so far, up to
the last step: files are as they were, and none but the temporary one can be gone. -/
structure Spared (tree : FileTree) (path : Path) (now : FileTree) : Prop where
  bytes :
    ∀ location, ¬LeadsToTemporary tree path location →
      now.fileBytes? location = tree.fileBytes? location
  found :
    ∀ location, temporary? tree path ≠ some location → tree.fileBytes? location ≠ none →
      now.fileBytes? location ≠ none

theorem spared_of_sameFiles
    {tree now : FileTree} (hsame : tree.SameFiles now) (path : Path) : Spared tree path now where
  bytes location _ := hsame.fileBytes?_eq location
  found location _ hfound := by rwa [hsame.fileBytes?_eq]

namespace Saving

variable {tree now : FileTree} {path : Path} {data : Bytes} {saving : Saving} {errand : Errand}
variable {place location : Location} {number : Nat}

/-- The temporary file is open, and no other file has changed. -/
structure Opened (tree : FileTree) (path : Path) (now : FileTree) (place : Location)
    (number : Nat) : Prop where
  destination : temporary? tree path = some place
  stored : tree.Stored
  nowStored : now.Stored
  directories : (made tree path).1.SameDirectories now
  find : now.find? place = some (.file number)
  owned : tree.find? place = some (.file number) ∨ tree.contents.length ≤ number
  names :
    ∀ location other, location ≠ place →
      (now.find? location = some (.file other) ↔ tree.find? location = some (.file other))
  bytes :
    ∀ other, other ≠ number → other < tree.contents.length →
      now.content other = tree.content other

/-- Only what leads to the temporary file leads to the file that is open. -/
theorem Opened.ne_of_apart
    {other : Nat} (hopened : Opened tree path now place number)
    (hapart : ¬LeadsToTemporary tree path location)
    (hfind : tree.find? location = some (.file other)) : other ≠ number := by
  rintro rfl
  rcases hopened.owned with howned | hnew
  · exact hapart ⟨place, hopened.destination, Or.inr ⟨other, howned, hfind⟩⟩
  · exact absurd (hopened.stored _ _ (FileTree.entry_of_find?_file hfind)) (Nat.not_lt.mpr hnew)

theorem Opened.spared (hopened : Opened tree path now place number) : Spared tree path now where
  bytes location hapart := by
    have hne : location ≠ place := fun hsame =>
      hapart ⟨place, hopened.destination, Or.inl hsame⟩
    refine FileTree.fileBytes?_congr (fun other => hopened.names location other hne) ?_
    intro other hfind
    exact hopened.bytes other (hopened.ne_of_apart hapart hfind)
      (hopened.stored _ _ (FileTree.entry_of_find?_file hfind))
  found location hother hfound := by
    have hne : location ≠ place := by
      rintro rfl
      exact hother hopened.destination
    unfold FileTree.fileBytes? at hfound
    split at hfound
    · next other hfind =>
        rw [FileTree.fileBytes?_of_file ((hopened.names location other hne).mpr hfind)]
        exact Option.some_ne_none _
    · exact absurd rfl hfound

theorem Opened.setContent
    (hopened : Opened tree path now place number) (written : Bytes) :
    Opened tree path (now.setContent number written) place number where
  destination := hopened.destination
  stored := hopened.stored
  nowStored := (FileTree.evolves_setContent _ _ _).stored hopened.nowStored
  directories := hopened.directories
  find := hopened.find
  owned := hopened.owned
  names := hopened.names
  bytes other hne hlt :=
    (FileTree.content_setContent_of_ne hne written).trans (hopened.bytes other hne hlt)

/-- The file has been replaced, and no other file has changed. -/
structure Replaced (tree : FileTree) (path : Path) (data : Bytes) (now : FileTree) : Prop where
  target :
    ∃ location, target? tree path = some location ∧ now.fileBytes? location = some data
  read : now.readFile path = .ok data
  gone : now.pathExists (temporaryPath path) = false
  others :
    ∀ location, target? tree path ≠ some location → ¬LeadsToTemporary tree path location →
      now.fileBytes? location = tree.fileBytes? location
  found :
    ∀ location, temporary? tree path ≠ some location → tree.fileBytes? location ≠ none →
      now.fileBytes? location ≠ none

/-- What holds at each stage of a save. -/
inductive Kept (tree : FileTree) (path : Path) (data : Bytes) : Saving → Prop where
  | descending {now : FileTree} {todo tried : List Path} (same : tree.SameFiles now)
      (stored : now.Stored) (made : remake tried (now.makeNested todo) = made tree path) :
      Kept tree path data ⟨now, .descending todo tried⟩
  | ascending {now : FileTree} {tried : List Path} (same : tree.SameFiles now)
      (stored : now.Stored) (made : now.ensureEach tried = made tree path) :
      Kept tree path data ⟨now, .ascending tried⟩
  | opening {now : FileTree} (same : tree.SameFiles now) (stored : now.Stored)
      (made : (now, none) = made tree path) : Kept tree path data ⟨now, .opening⟩
  | writing {now : FileTree} {place : Location} {number : Nat} {rest : Bytes}
      (opened : Opened tree path now place number) (whole : now.content number ++ rest = data) :
      Kept tree path data ⟨now, .writing number rest⟩
  | moving {now : FileTree} {place : Location} {number : Nat}
      (opened : Opened tree path now place number) (whole : now.content number = data) :
      Kept tree path data ⟨now, .moving⟩
  | failed {now : FileTree} {fault : ConfigurationFault} (spared : Spared tree path now) :
      Kept tree path data ⟨now, .ended (some fault)⟩
  | replaced {now : FileTree} (replaced : Replaced tree path data now) :
      Kept tree path data ⟨now, .ended none⟩

/-! ## The first stage -/

theorem kept_start
    (hstored : tree.Stored) (path : Path) (configuration : Configuration) (data : Bytes) :
    Kept tree path data (start tree path configuration) := by
  have hsame : tree.SameFiles tree := .refl tree
  unfold start
  cases configuration.fault? with
  | some fault => exact .failed (spared_of_sameFiles hsame path)
  | none =>
      cases hparent : path.parent? with
      | none => exact .failed (spared_of_sameFiles hsame path)
      | some parent =>
          have hmade : made tree path = tree.makeDirectories parent := by rw [made, hparent]
          rw [FileTree.makeDirectories] at hmade
          dsimp only
          split
          · next hempty =>
              rw [if_pos hempty] at hmade
              exact .ascending hsame hstored hmade.symm
          · next hnonempty =>
              rw [if_neg hnonempty] at hmade
              exact .descending hsame hstored ((remake_nil _).trans hmade.symm)

/-! ## Directories -/

theorem kept_descending
    {todo tried : List Path} (amount : Nat)
    (hkept : Kept tree path data ⟨now, .descending todo tried⟩) :
    Kept tree path data (step errand amount ⟨now, .descending todo tried⟩) := by
  cases hkept with
  | descending hsame hstored hmade =>
      cases todo with
      | nil => exact .ascending hsame hstored hmade
      | cons directory above =>
          obtain ⟨hensured, hstill⟩ := hstored.ensureDirectory directory
          have hfiles := hsame.trans hensured
          simp only [step]
          cases hensure : now.ensureDirectory directory with
          | mk grown fault =>
              rw [hensure] at hfiles hstill
              cases fault with
              | none =>
                  rw [makeNested_of_ne_notFound above hensure (by simp)] at hmade
                  exact .ascending hfiles hstill hmade
              | some fault =>
                  by_cases hmissing : fault = .notFound
                  · subst hmissing
                    rw [remake_makeNested hensure] at hmade
                    exact .descending hfiles hstill hmade
                  · simp only [hmissing, if_false]
                    exact .failed (spared_of_sameFiles hfiles path)

theorem kept_ascending
    {tried : List Path} (amount : Nat)
    (hkept : Kept tree path data ⟨now, .ascending tried⟩) :
    Kept tree path data (step errand amount ⟨now, .ascending tried⟩) := by
  cases hkept with
  | ascending hsame hstored hmade =>
      cases tried with
      | nil => exact .opening hsame hstored hmade
      | cons directory tried =>
          obtain ⟨hensured, hstill⟩ := hstored.ensureDirectory directory
          have hfiles := hsame.trans hensured
          rw [FileTree.ensureEach] at hmade
          simp only [step]
          cases hensure : now.ensureDirectory directory with
          | mk grown fault =>
              rw [hensure] at hfiles hstill hmade
              cases fault with
              | none => exact .ascending hfiles hstill hmade
              | some fault => exact .failed (spared_of_sameFiles hfiles path)

/-! ## The temporary file -/

theorem kept_opening
    (amount : Nat) (htree : tree.Stored) (hpath : errand.path = path) (hdata : errand.data = data)
    (hkept : Kept tree path data ⟨now, .opening⟩) :
    Kept tree path data (step errand amount ⟨now, .opening⟩) := by
  cases hkept with
  | opening hsame hstored hmade =>
      simp only [step, hpath, hdata]
      have htemporary : temporary? tree path = now.destination? (temporaryPath path) := by
        rw [temporary?, ← hmade]
      generalize temporaryPath path = temporary at htemporary ⊢
      cases hopen : now.openPath temporary FileTree.replaceAccess with
      | error fault => exact .failed (spared_of_sameFiles hsame path)
      | ok result =>
          obtain ⟨opened, entry⟩ := result
          cases entry with
          | directory => exact .failed (spared_of_sameFiles hsame path)
          | file number =>
              obtain ⟨directory, name, hlocate, hemptied⟩ := hstored.emptied_of_openPath hopen
              have hlength : now.contents.length = tree.contents.length := by
                rw [hsame.contents]
              refine @Kept.writing _ _ _ _ (directory ++ [name]) _ _
                { destination := ?_
                  stored := htree
                  nowStored := hemptied.stored
                  directories := ?_
                  find := hemptied.find
                  owned := ?_
                  names := ?_
                  bytes := ?_ } ?_
              · rw [htemporary]
                exact FileTree.destination?_eq_some_iff.mpr ⟨directory, name, hlocate, rfl⟩
              · rw [← hmade]
                exact hemptied.directories
              · exact hemptied.found.imp (hsame.find _ _).mp fun hnew => hlength ▸ hnew
              · intro location other hother
                rw [hemptied.names location hother]
                exact hsame.find location other
              · intro other hother hlt
                rw [hemptied.bytes other hother (hlength.symm ▸ hlt)]
                unfold FileTree.content
                rw [hsame.contents]
              · rw [content_of_emptied (FileTree.setContent_of_openPath hopen), List.nil_append]

theorem kept_writing
    {rest : Bytes} (amount : Nat) (hkept : Kept tree path data ⟨now, .writing number rest⟩) :
    Kept tree path data (step errand amount ⟨now, .writing number rest⟩) := by
  cases hkept with
  | writing hopened hwhole =>
      simp only [step]
      by_cases hrest : rest = []
      · rw [if_pos hrest]
        rw [hrest, List.append_nil] at hwhole
        exact .moving hopened hwhole
      · rw [if_neg hrest]
        have hlt := hopened.nowStored _ _ (FileTree.entry_of_find?_file hopened.find)
        refine .writing (hopened.setContent _) ?_
        rw [FileTree.content_setContent hlt, List.append_assoc, List.take_append_drop]
        exact hwhole

/-! ## The move -/

/-- After the move the new bytes are found under the path, and the temporary file is gone. -/
theorem replaced_of_rename
    {moved : FileTree} (hopened : Opened tree path now place number)
    (hown : ∀ location, target? tree path = some location → ¬LeadsToTemporary tree path location)
    (hcontent : now.content number = data)
    (hrename : now.rename (temporaryPath path) path = .ok moved) :
    Replaced tree path data moved := by
  obtain ⟨source, into, other, hmoved⟩ := FileTree.moved_of_rename hrename
  -- The directories are those that were made in the beginning.
  have hback := hopened.directories.symm
  have htemporary : temporary? tree path = some source := hback.destination? hmoved.from_place
  have htarget : target? tree path = some into := hback.destination? hmoved.into_place
  have hplace : place = source :=
    Option.some.inj (hopened.destination.symm.trans htemporary)
  subst hplace
  cases hopened.find.symm.trans hmoved.find
  have hinto : into ≠ place := by
    rintro rfl
    exact target?_ne_temporary? htarget htemporary
  have hdifferent : now.find? into ≠ some (.file number) := by
    rw [ne_eq, hopened.names into number hinto]
    intro hfind
    exact hopened.ne_of_apart (hown into htarget) hfind rfl
  obtain ⟨hbytes, hgone, hothers⟩ := hmoved.apart hdifferent
  have hspared := hopened.spared
  constructor
  · exact ⟨into, htarget, hcontent ▸ hbytes⟩
  · exact hcontent ▸ hmoved.read
  · exact hgone
  · intro location hnotTarget hapart
    have hnotInto : location ≠ into := by
      rintro rfl
      exact hnotTarget htarget
    have hnotPlace : location ≠ place := fun hsame => hapart ⟨place, htemporary, Or.inl hsame⟩
    rw [hothers location hnotPlace hnotInto]
    exact hspared.bytes location hapart
  · intro location hother hfound
    by_cases hsame : location = into
    · rw [hsame, hbytes]
      exact Option.some_ne_none _
    · have hnotPlace : location ≠ place := by
        rintro rfl
        exact hother htemporary
      rw [hothers location hnotPlace hsame]
      exact hspared.found location hother hfound

theorem kept_moving
    (amount : Nat) (hpath : errand.path = path)
    (hown : ∀ location, target? tree path = some location → ¬LeadsToTemporary tree path location)
    (hkept : Kept tree path data ⟨now, .moving⟩) :
    Kept tree path data (step errand amount ⟨now, .moving⟩) := by
  cases hkept with
  | @moving _ place number hopened hwhole =>
      simp only [step, hpath]
      cases hrename : now.rename (temporaryPath path) path with
      | error fault => exact .failed hopened.spared
      | ok moved => exact .replaced (replaced_of_rename hopened hown hwhole hrename)

/-! ## All stages -/

theorem kept_step
    (amount : Nat) (htree : tree.Stored)
    (hown : ∀ location, target? tree path = some location → ¬LeadsToTemporary tree path location)
    (hpath : errand.path = path) (hdata : errand.data = data)
    (hkept : Kept tree path data saving) :
    Kept tree path data (saving.step errand amount) := by
  obtain ⟨now, stage⟩ := saving
  cases stage with
  | descending todo tried => exact kept_descending amount hkept
  | ascending tried => exact kept_ascending amount hkept
  | opening => exact kept_opening amount htree hpath hdata hkept
  | writing number rest => exact kept_writing amount hkept
  | moving => exact kept_moving amount hpath hown hkept
  | ended fault => exact hkept

theorem kept_run
    (htree : tree.Stored) (path : Path)
    (hown : ∀ location, target? tree path = some location → ¬LeadsToTemporary tree path location)
    (configuration : Configuration) (amounts : List Nat) :
    Kept tree path (Bytes.ofString configuration.render)
      ((start tree path configuration).run (Configuration.errand path configuration) amounts) :=
  run_preserves (P := Kept tree path (Bytes.ofString configuration.render))
    (fun _ amount hkept => kept_step amount htree hown rfl rfl hkept)
    (kept_start htree path configuration (Bytes.ofString configuration.render)) amounts

/-- Before the last step every file but the temporary one is as it was. -/
theorem Kept.spared
    (hkept : Kept tree path data saving) (hunended : saving.stage ≠ .ended none) :
    Spared tree path saving.tree := by
  cases hkept with
  | descending hsame => exact spared_of_sameFiles hsame path
  | ascending hsame => exact spared_of_sameFiles hsame path
  | opening hsame => exact spared_of_sameFiles hsame path
  | writing hopened => exact hopened.spared
  | moving hopened => exact hopened.spared
  | failed hspared => exact hspared
  | replaced => exact absurd rfl hunended

/-- After the last step the file has been replaced. -/
theorem Kept.replaced_of_ended
    (hkept : Kept tree path data saving) (hended : saving.stage = .ended none) :
    Replaced tree path data saving.tree := by
  cases hkept with
  | replaced hreplaced => exact hreplaced
  | _ => cases hended

end Saving

/-! ## Saving -/

/-- A save can be carried out to its end. -/
theorem exists_run_ended (tree : FileTree) (path : Path) (configuration : Configuration) :
    ∃ amounts,
      ((Saving.start tree path configuration).run (errand path configuration) amounts).stage =
        .ended (save tree path configuration).2 := by
  have hlength :=
    Nat.le_of_eq
      (List.length_replicate
        (n := (Saving.start tree path configuration).remaining (errand path configuration))
        (a := 0)).symm
  obtain ⟨fault, hended⟩ := Saving.ended_of_remaining_le hlength
  have hfault : fault = (save tree path configuration).2 :=
    congrArg Prod.snd (Saving.save_of_ended hended)
  rw [hfault] at hended
  exact ⟨_, hended⟩

/-- At every point of a save, the file under the path is the old one or, after the last
step, the whole new one, and every other file but the temporary one is as it was.  A save
that fails leaves the old file; one that succeeds leaves the new one and no temporary
file.  All this holds unless the old file has the name of the temporary one as well; other
names of files make no difference. -/
theorem save_replaces_atomically
    {tree : FileTree} (hstored : tree.Stored) (path : Path) (configuration : Configuration)
    (hown :
      ∀ location, target? tree path = some location → ¬LeadsToTemporary tree path location) :
    let text := Bytes.ofString configuration.render
    let saved := save tree path configuration
    let saving := (Saving.start tree path configuration).run (errand path configuration)
    (∀ amounts location, ¬LeadsToTemporary tree path location →
      (saving amounts).tree.fileBytes? location = tree.fileBytes? location ∨
        (saving amounts).stage = .ended none ∧ target? tree path = some location ∧
          (saving amounts).tree.fileBytes? location = some text) ∧
    (∀ amounts location, temporary? tree path ≠ some location →
      tree.fileBytes? location ≠ none → (saving amounts).tree.fileBytes? location ≠ none) ∧
    (∀ amounts fault, (saving amounts).stage = .ended fault →
      ((saving amounts).tree, fault) = saved) ∧
    (∃ bound, ∀ amounts, bound ≤ amounts.length →
      ∃ fault, (saving amounts).stage = .ended fault) ∧
    (saved.2 ≠ none → ∀ location, ¬LeadsToTemporary tree path location →
      saved.1.fileBytes? location = tree.fileBytes? location) ∧
    (saved.2 = none →
      (∃ location, target? tree path = some location ∧
        saved.1.fileBytes? location = some text) ∧
      saved.1.readFile path = .ok text ∧ saved.1.pathExists (temporaryPath path) = false) ∧
    (∀ location, target? tree path = some location → temporary? tree path ≠ some location) ∧
    (path.fileName? ≠ none → temporaryPath path ≠ path) := by
  intro text saved saving
  have hkept : ∀ amounts, Saving.Kept tree path text (saving amounts) :=
    Saving.kept_run hstored path hown configuration
  obtain ⟨last, hlast⟩ := exists_run_ended tree path configuration
  have hend : (saving last).tree = saved.1 := congrArg Prod.fst (Saving.save_of_ended hlast)
  refine ⟨?_, ?_, ?_, ?_, ?_, ?_, ?_, ?_⟩
  · intro amounts location hapart
    by_cases hended : (saving amounts).stage = .ended none
    · have hreplaced := (hkept amounts).replaced_of_ended hended
      by_cases htarget : target? tree path = some location
      · obtain ⟨place, hplace, hbytes⟩ := hreplaced.target
        cases hplace.symm.trans htarget
        exact Or.inr ⟨hended, htarget, hbytes⟩
      · exact Or.inl (hreplaced.others location htarget hapart)
    · exact Or.inl (((hkept amounts).spared hended).bytes location hapart)
  · intro amounts
    by_cases hended : (saving amounts).stage = .ended none
    · exact ((hkept amounts).replaced_of_ended hended).found
    · exact ((hkept amounts).spared hended).found
  · intro amounts fault hended
    exact Saving.save_of_ended hended
  · exact ⟨_, fun amounts hlength => Saving.ended_of_remaining_le hlength⟩
  · intro hfailed location hapart
    rw [← hend]
    refine ((hkept last).spared ?_).bytes location hapart
    intro hended
    exact hfailed (Stage.ended.inj (hlast.symm.trans hended))
  · intro hnone
    have hreplaced := (hkept last).replaced_of_ended (hlast.trans (congrArg Stage.ended hnone))
    rw [hend] at hreplaced
    exact ⟨hreplaced.target, hreplaced.read, hreplaced.gone⟩
  · exact fun location => target?_ne_temporary?
  · intro hname
    obtain ⟨name, hname⟩ := Option.ne_none_iff_exists'.mp hname
    exact Path.withExtension_ne hname

/-- The tree with one file, which has two names. -/
theorem stored_of_two_names (location other : Location) (data : Bytes) :
    FileTree.Stored
      ⟨Store.insert (Store.insert {} location (.file 0)) other (.file 0), [data]⟩ := by
  have hkept : ∀ number, Entry.file 0 = .file number → number < [data].length := by
    rintro number ⟨⟩
    exact Nat.one_pos
  have hone : FileTree.Stored ⟨Store.insert {} location (.file 0), [data]⟩ :=
    FileTree.separate_empty.stored.insert (Nat.zero_le _) hkept
  exact hone.insert le_rfl hkept

/-- An old configuration of three bytes is replaced; it has another name, under which it is
still found. -/
theorem save_over_old_file :
    let tree : FileTree :=
      { entries := Store.insert (Store.insert {} ["unio.toml"] (.file 0)) ["copy"] (.file 0)
        contents := [[1, 2, 3]] }
    tree.Stored ∧
      (∀ location, target? tree ⟨"unio.toml"⟩ = some location →
        ¬LeadsToTemporary tree ⟨"unio.toml"⟩ location) ∧
      tree.readFile ⟨"unio.toml"⟩ = .ok [1, 2, 3] ∧ (save tree ⟨"unio.toml"⟩ {}).2 = none ∧
        (save tree ⟨"unio.toml"⟩ {}).1.readFile ⟨"unio.toml"⟩ =
          .ok (Bytes.ofString (render {})) ∧
        (save tree ⟨"unio.toml"⟩ {}).1.fileBytes? ["copy"] = some [1, 2, 3] := by
  intro tree
  have hstored : tree.Stored := stored_of_two_names _ _ _
  have htemporary : temporary? tree ⟨"unio.toml"⟩ = some ["unio.toml.tmp"] := by
    decide +kernel +zetaReduce
  have hfree : tree.find? ["unio.toml.tmp"] = none := by decide +kernel +zetaReduce
  have hapart : ∀ location, location ≠ ["unio.toml.tmp"] →
      ¬LeadsToTemporary tree ⟨"unio.toml"⟩ location := by
    rintro location hne ⟨place, hplace, hleads⟩
    cases htemporary.symm.trans hplace
    rcases hleads with hsame | ⟨number, hfind, -⟩
    · exact hne hsame
    · cases hfree.symm.trans hfind
  have hown : ∀ location, target? tree ⟨"unio.toml"⟩ = some location →
      ¬LeadsToTemporary tree ⟨"unio.toml"⟩ location := by
    intro location htarget
    apply hapart
    rintro rfl
    exact target?_ne_temporary? htarget htemporary
  have hread : tree.readFile ⟨"unio.toml"⟩ = .ok [1, 2, 3] := by
    decide +kernel +zetaReduce
  have hsave : (save tree ⟨"unio.toml"⟩ {}).2 = none := by
    decide +kernel +zetaReduce
  have hcopy : (save tree ⟨"unio.toml"⟩ {}).1.fileBytes? ["copy"] = some [1, 2, 3] := by
    decide +kernel +zetaReduce
  clear_value tree
  obtain ⟨-, -, -, -, -, hsaved, -⟩ :=
    save_replaces_atomically hstored ⟨"unio.toml"⟩ {} hown
  exact ⟨hstored, hown, hread, hsave, (hsaved hsave).2.1, hcopy⟩

/-- If the old file has the name of the temporary one as well, it is empty before it is
written, and it keeps both names. -/
theorem file_with_both_names_half_written :
    let tree : FileTree :=
      { entries :=
          Store.insert (Store.insert {} ["unio.toml"] (.file 0)) ["unio.toml.tmp"] (.file 0)
        contents := [[1, 2, 3]] }
    let opened := (Saving.start tree ⟨"unio.toml"⟩ {}).run (errand ⟨"unio.toml"⟩ {}) [0, 0]
    tree.Stored ∧ target? tree ⟨"unio.toml"⟩ = some ["unio.toml"] ∧
      tree.fileBytes? ["unio.toml"] = some [1, 2, 3] ∧
        opened.tree.fileBytes? ["unio.toml"] = some [] ∧ Bytes.ofString (render {}) ≠ [] ∧
          (save tree ⟨"unio.toml"⟩ {}).2 = none ∧
            (save tree ⟨"unio.toml"⟩ {}).1.pathExists (temporaryPath ⟨"unio.toml"⟩) = true := by
  intro tree opened
  exact ⟨stored_of_two_names _ _ _, by decide +kernel +zetaReduce⟩

end Configuration

end ResourceHandles
