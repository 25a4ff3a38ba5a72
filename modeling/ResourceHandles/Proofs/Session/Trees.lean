import ResourceHandles.Proofs.Configuration.RoundTrip
import ResourceHandles.Proofs.Files.Separate
import ResourceHandles.Proofs.Machine.FilesKept
import ResourceHandles.Proofs.Session.Keeping

/-!
# The tree of a session

Whatever is done in a session, the bytes of no file are given up, and no two locations come
to share a file.
-/

namespace ResourceHandles

namespace Machine

variable {machine next : Machine}

/-! ## Calls -/

theorem evolves_perform (machine : Machine) (space amount : Nat) (action : Action) :
    machine.tree.Evolves (machine.perform space amount action).1.tree := by
  cases huses : action.usesFiles with
  | false =>
      rw [(machine.perform_files space amount huses).1]
      exact .refl _
  | true =>
      cases action with
      | openFile path access =>
          simp only [perform, finish, openFile]
          split
          · exact .refl _
          · next opened entry hopen => exact FileTree.openPath_evolves hopen
      | readFile handle number =>
          simp only [perform, finish, readFile]
          split
          · exact .refl _
          · split
            · exact .refl _
            · exact .refl _
      | writeFile handle number data =>
          simp only [perform, finish, writeFile]
          split
          · exact .refl _
          · split
            · exact .refl _
            · next hwrite => exact OpenFile.write_evolves hwrite
      | unlink path =>
          simp only [perform, finish, unlink]
          split
          · exact .refl _
          · next tree hunlink => exact FileTree.unlink_evolves hunlink
      | _ => cases huses

theorem Change.evolves (hchange : machine.Change next) : machine.tree.Evolves next.tree := by
  have hperformed : ∀ {space amount action performed progress},
      machine.perform space amount action = (performed, progress) →
        machine.tree.Evolves performed.tree := by
    intro space amount action performed progress hperform
    have hevolves := machine.evolves_perform space amount action
    rwa [hperform] at hevolves
  cases hchange with
  | same => exact .refl _
  | parked hleads => exact .refl _
  | performed hfree hperform => exact hperformed hperform
  | closed hbound =>
      rw [tree_letGo, tree_unbind]
      exact .refl _
  | @closing space handle resource action hbound haction =>
      show machine.tree.Evolves (machine.unbind space handle resource).tree
      rw [tree_unbind]
      exact .refl _
  | finished hpending hperform =>
      have hevolves := hperformed hperform
      rw [forget_eq]
      exact hevolves
  | continued hpending hperform =>
      have hevolves := hperformed hperform
      exact hevolves
  | abandoned hpending =>
      rw [forget_eq]
      exact .refl _
  | exhausted _ => exact .refl _

theorem tree_dropAll (machine : Machine) (resources : List Resource) :
    (resources.foldl drop machine).tree = machine.tree := by
  induction resources generalizing machine with
  | nil => rfl
  | cons resource resources ih => rw [List.foldl_cons, ih, drop, tree_letGo, tree_unhold]

/-! ## Sessions -/

theorem lasting_evolves (tree : FileTree) :
    Lasting fun machine => tree.Evolves machine.tree where
  change machine next hchange hevolves := hevolves.trans hchange.evolves
  addSpace machine configuration hevolves := hevolves
  dropSpace machine space hevolves := by
    rw [dropSpace, tree_dropAll]
    exact hevolves
  writeOpen machine handle number data hevolves :=
    hevolves.trans (machine.evolves_perform 0 0 (.writeFile handle number data))
  writeFile machine path data tree hwrite hevolves :=
    hevolves.trans (FileTree.writeFile_evolves hwrite)
  makeDirectories machine path hevolves :=
    hevolves.trans (machine.tree.evolves_makeDirectories path)
  save machine path configuration hevolves :=
    hevolves.trans (Configuration.evolves_save machine.tree path configuration)

end Machine

/-- Whatever is done in a session, no two locations come to share a file. -/
theorem Session.separate_afterAll
    {tree : FileTree} (hseparate : tree.Separate) (routed : Bool) (capacity : Nat)
    (configurations : List Configuration) (steps : List Step) :
    ((boot tree routed capacity configurations).afterAll steps).machine.tree.Separate := by
  have hevolves :=
    @Lasting.afterAll _ (boot tree routed capacity configurations)
      (Machine.lasting_evolves tree) steps (FileTree.Evolves.refl tree)
  exact hevolves.separate hseparate

end ResourceHandles
