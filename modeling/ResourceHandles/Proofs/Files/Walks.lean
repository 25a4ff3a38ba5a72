import ResourceHandles.Files.Changes
import Mathlib.Tactic

/-!
# Walks through a file tree

A walk looks at directories only.  Trees that have the same directories, whatever files
they hold, have the same walks, so a path that was found stays where it was when a file
is made, filled, moved or removed.
-/

namespace ResourceHandles.FileTree

variable {tree other : FileTree} {path : Path} {location directory : Location} {name : String}

/-- Two trees have the same directories. -/
def SameDirectories (tree other : FileTree) : Prop :=
  ∀ location, tree.find? location = some .directory ↔ other.find? location = some .directory

theorem SameDirectories.symm (hsame : tree.SameDirectories other) : other.SameDirectories tree :=
  fun location => (hsame location).symm

theorem SameDirectories.trans
    {last : FileTree} (hsame : tree.SameDirectories other) (hlast : other.SameDirectories last) :
    tree.SameDirectories last :=
  fun location => (hsame location).trans (hlast location)

/-! ## Entries -/

theorem find?_concat (tree : FileTree) (directory : Location) (name : String) :
    tree.find? (directory ++ [name]) = tree.entries.find? (directory ++ [name]) := by
  rw [find?, if_neg (by simp)]

theorem child?_eq_ok_iff
    {found : Option Entry} :
    tree.child? directory name = .ok found ↔
      name.utf8ByteSize ≤ maxNameSize ∧ tree.entries.find? (directory ++ [name]) = found := by
  unfold child?
  rw [find?_concat]
  split
  · next hlong => simp [Nat.not_le.mpr hlong]
  · next hfits => simp [Nat.not_lt.mp hfits]

theorem find?_of_ne_nil
    (tree : FileTree) (hne : location ≠ []) :
    tree.find? location = tree.entries.find? location :=
  if_neg hne

theorem ne_nil_of_find?
    (hother : tree.find? location ≠ some .directory) : location ≠ [] := by
  rintro rfl
  exact hother rfl

/-- A file takes the place of no directory. -/
theorem sameDirectories_insert
    (hother : tree.find? location ≠ some .directory) (number : Nat) (contents : List Bytes) :
    tree.SameDirectories ⟨tree.entries.insert location (.file number), contents⟩ := by
  intro place
  have hne := ne_nil_of_find? hother
  by_cases hplace : place = location
  · rw [hplace]
    simp only [hother, false_iff]
    rw [find?_of_ne_nil ⟨_, _⟩ hne, Store.find?_insert_self]
    simp
  · by_cases hroot : place = []
    · rw [hroot]
      exact Iff.rfl
    · rw [find?_of_ne_nil tree hroot, find?_of_ne_nil ⟨_, _⟩ hroot,
        Store.find?_insert_of_ne _ _ hplace]

theorem sameDirectories_erase
    (hother : tree.find? location ≠ some .directory) :
    tree.SameDirectories { tree with entries := tree.entries.erase location } := by
  intro place
  have hne := ne_nil_of_find? hother
  by_cases hplace : place = location
  · rw [hplace]
    simp only [hother, false_iff]
    rw [find?_of_ne_nil ⟨_, _⟩ hne, Store.find?_erase_self]
    simp
  · by_cases hroot : place = []
    · rw [hroot]
      exact Iff.rfl
    · rw [find?_of_ne_nil tree hroot, find?_of_ne_nil ⟨_, _⟩ hroot,
        Store.find?_erase_of_ne _ hplace]

/-! ## Walks -/

theorem SameDirectories.child?
    (hsame : tree.SameDirectories other)
    (hchild : tree.child? directory name = .ok (some .directory)) :
    other.child? directory name = .ok (some .directory) := by
  rw [child?_eq_ok_iff, ← find?_concat] at hchild ⊢
  exact ⟨hchild.1, (hsame _).mp hchild.2⟩

theorem SameDirectories.walk
    (hsame : tree.SameDirectories other) {names : List String} {reached : Location}
    (hwalk : tree.walk directory names = .ok reached) :
    other.walk directory names = .ok reached := by
  induction names generalizing directory with
  | nil => exact hwalk
  | cons name names ih =>
      rw [FileTree.walk] at hwalk ⊢
      split at hwalk
      · next hdot =>
          rw [if_pos hdot]
          exact ih hwalk
      · next hdot =>
          rw [if_neg hdot]
          split at hwalk
          · next hup =>
              rw [if_pos hup]
              exact ih hwalk
          · next hup =>
              rw [if_neg hup]
              split at hwalk
              · cases hwalk
              · cases hwalk
              · cases hwalk
              · next hchild =>
                  rw [hsame.child? hchild]
                  exact ih hwalk

theorem SameDirectories.locate
    (hsame : tree.SameDirectories other) {goal : Goal} (hlocate : tree.locate path = .ok goal) :
    other.locate path = .ok goal := by
  unfold FileTree.locate at hlocate ⊢
  split_ifs at hlocate ⊢ with hnull hempty hlong
  cases hlast : path.names.getLast? with
  | none =>
      rw [hlast] at hlocate
      exact hlocate
  | some last =>
      simp only [hlast] at hlocate ⊢
      split at hlocate
      · cases hlocate
      · next reached hwalk =>
          rw [hsame.walk hwalk]
          exact hlocate

/-! ## Files at the ends of paths -/

/-- The location of the file that a path leads to, or of the one that could be made
there. -/
def destination? (tree : FileTree) (path : Path) : Option Location :=
  match tree.locate path with
  | .ok (.name directory name false) => some (directory ++ [name])
  | _ => none

theorem destination?_eq_some_iff :
    tree.destination? path = some location ↔
      ∃ directory name, tree.locate path = .ok (.name directory name false) ∧
        directory ++ [name] = location := by
  unfold destination?
  split
  · next directory name hlocate =>
      rw [hlocate]
      simp
  · next hother =>
      simp only [reduceCtorEq, false_iff]
      rintro ⟨directory, name, hlocate, -⟩
      exact hother directory name hlocate

theorem SameDirectories.destination?
    (hsame : tree.SameDirectories other) (hdestination : tree.destination? path = some location) :
    other.destination? path = some location := by
  rw [destination?_eq_some_iff] at hdestination ⊢
  obtain ⟨directory, name, hlocate, hlocation⟩ := hdestination
  exact ⟨directory, name, hsame.locate hlocate, hlocation⟩

end ResourceHandles.FileTree
