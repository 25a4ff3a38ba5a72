import ResourceHandles.Proofs.Configuration.Rendering
import ResourceHandles.Proofs.Files.Replacing

/-!
# A saved configuration is loaded again

Saving puts the text of a configuration under a path, and loading the path reads this
text.  So whenever saving succeeds, loading gives the configuration that was saved.
Whether saving succeeds depends on the tree and the path, and not on the size.
-/

namespace ResourceHandles

/-! ## Bytes -/

theorem toList_loop (data : ByteArray) (start : Nat) (read : List UInt8) :
    ByteArray.toList.loop data start read = read.reverse ++ data.data.toList.drop start := by
  fun_induction ByteArray.toList.loop data start read with
  | case1 start read hlt ih =>
      have hlength : start < data.data.toList.length := by simpa using hlt
      rw [ih, List.drop_eq_getElem_cons hlength]
      simp [ByteArray.get!, hlt]
  | case2 start read hend =>
      rw [List.drop_eq_nil_of_le (by simpa using Nat.le_of_not_lt hend)]
      simp

theorem Bytes.toString?_ofString (text : String) : toString? (ofString text) = some text := by
  have hbytes : (⟨(ofString text).toArray⟩ : ByteArray) = text.toByteArray := by
    apply ByteArray.ext
    show (ByteArray.toList.loop text.toByteArray 0 []).toArray = text.toByteArray.data
    rw [toList_loop]
    simp
  rw [toString?, hbytes, String.fromUTF8?, dif_pos text.isValidUTF8]
  rfl

namespace Configuration

variable {tree : FileTree} {path : Path} {configuration : Configuration}

/-! ## The file -/

theorem replaceFile_eq_none
    {data : Bytes} (hreplace : (replaceFile tree path data).2 = none) :
    ∃ written, tree.writeFile (temporaryPath path) data = .ok written ∧
      written.rename (temporaryPath path) path = .ok (replaceFile tree path data).1 := by
  unfold replaceFile at hreplace ⊢
  generalize temporaryPath path = temporary at hreplace ⊢
  dsimp only at hreplace ⊢
  split at hreplace
  · cases hreplace
  · next written hwrite =>
      split at hreplace
      · cases hreplace
      · next renamed hrename =>
          simp only [hwrite]
          exact ⟨written, rfl, hrename⟩

/-- Whether a file can be replaced does not depend on its bytes. -/
theorem replaceFile_fault_eq (tree : FileTree) (path : Path) (data other : Bytes) :
    (replaceFile tree path data).2 = (replaceFile tree path other).2 := by
  unfold replaceFile FileTree.writeFile
  generalize temporaryPath path = temporary
  dsimp only
  cases tree.openPath temporary FileTree.replaceAccess with
  | error fault => rfl
  | ok opened =>
      obtain ⟨opened, entry⟩ := opened
      cases entry with
      | directory => rfl
      | file number =>
          simp only [FileTree.rename_setContent]
          cases opened.rename temporary path with
          | error fault => rfl
          | ok renamed => rfl

theorem evolves_replaceFile (tree : FileTree) (path : Path) (data : Bytes) :
    tree.Evolves (replaceFile tree path data).1 := by
  unfold replaceFile
  generalize temporaryPath path = temporary
  dsimp only
  split
  · exact FileTree.Evolves.refl tree
  · next written hwrite =>
      split
      · exact FileTree.writeFile_evolves hwrite
      · next replaced hrename =>
          exact (FileTree.writeFile_evolves hwrite).trans (FileTree.rename_evolves hrename)

/-! ## Saving and loading -/

theorem load_replaceFile
    (hstored : tree.Stored) (hsize : configuration.bufferSize < bufferSizeLimit)
    (hsound : configuration.fault? = none)
    (hreplace : (replaceFile tree path (Bytes.ofString configuration.render)).2 = none) :
    load (replaceFile tree path (Bytes.ofString configuration.render)).1 path =
      .ok configuration := by
  obtain ⟨written, hwrite, hrename⟩ := replaceFile_eq_none hreplace
  obtain ⟨hread, hexists⟩ := FileTree.readFile_of_moved hstored hwrite hrename
  simp [load, hexists, FileTree.readText, hread, Bytes.toString?_ofString, parse?_render hsize,
    hsound]

theorem save_of_sound
    (hsound : configuration.fault? = none) :
    save tree path configuration =
      match path.parent? with
      | none => (tree, some (.noParent path))
      | some parent =>
        match tree.makeDirectories parent with
        | (grown, some fault) => (grown, some (.noDirectory parent fault))
        | (grown, none) => replaceFile grown path (Bytes.ofString configuration.render) := by
  unfold save
  split
  next hfault =>
      cases hsound.symm.trans hfault
  next => rfl

/-- Saving gives up the bytes of no file, so after any number of saves the tree can be
saved to again. -/
theorem evolves_save (tree : FileTree) (path : Path) (configuration : Configuration) :
    tree.Evolves (save tree path configuration).1 := by
  cases hsound : configuration.fault? with
  | some fault =>
      rw [save, hsound]
      exact FileTree.Evolves.refl tree
  | none =>
      rw [save_of_sound hsound]
      cases path.parent? with
      | none => exact FileTree.Evolves.refl tree
      | some parent =>
          have hgrown := tree.evolves_makeDirectories parent
          cases hmake : tree.makeDirectories parent with
          | mk grown fault =>
              rw [hmake] at hgrown
              cases fault with
              | some fault => simpa only [hmake] using hgrown
              | none =>
                  simpa only [hmake] using hgrown.trans (evolves_replaceFile grown path _)

theorem load_save
    (hstored : tree.Stored) (hsize : configuration.bufferSize < bufferSizeLimit)
    (hsave : (save tree path configuration).2 = none) :
    load (save tree path configuration).1 path = .ok configuration := by
  cases hsound : configuration.fault? with
  | some fault =>
      rw [save, hsound] at hsave
      cases hsave
  | none =>
      rw [save_of_sound hsound] at hsave ⊢
      cases hparent : path.parent? with
      | none =>
          rw [hparent] at hsave
          cases hsave
      | some parent =>
          have hgrown := (tree.evolves_makeDirectories parent).stored hstored
          simp only [hparent] at hsave ⊢
          cases hmake : tree.makeDirectories parent with
          | mk grown fault =>
              rw [hmake] at hsave hgrown
              cases fault with
              | some fault => cases hsave
              | none => exact load_replaceFile hgrown hsize hsound hsave

theorem save_fault_eq
    {other : Configuration} (hsound : configuration.fault? = none)
    (hother : other.fault? = none) :
    (save tree path configuration).2 = (save tree path other).2 := by
  rw [save_of_sound hsound, save_of_sound hother]
  cases path.parent? with
  | none => rfl
  | some parent =>
      cases hmake : tree.makeDirectories parent with
      | mk grown fault =>
          cases fault with
          | some fault => simp only [hmake]
          | none =>
              simp only [hmake]
              exact replaceFile_fault_eq grown path _ _

theorem fault?_resized
    (hsound : configuration.fault? = none) {size : Nat} (hpositive : 0 < size) :
    Configuration.fault? { configuration with bufferSize := size } = none := by
  unfold fault? at hsound ⊢
  split_ifs at hsound with hzero hblank
  rw [if_neg (Nat.ne_of_gt hpositive), if_neg hblank]

/-- A configuration that was saved is loaded again, field for field, and no size is too
large to be saved. -/
theorem save_load_roundtrip
    {tree : FileTree} (hstored : tree.Stored) (path : Path) {configuration : Configuration}
    (hsize : configuration.bufferSize < bufferSizeLimit) :
    ((save tree path configuration).2 = none →
      load (save tree path configuration).1 path = .ok configuration) ∧
    ∀ size, 0 < size → configuration.fault? = none →
      (save tree path { configuration with bufferSize := size }).2 =
        (save tree path configuration).2 := by
  constructor
  · exact load_save hstored hsize
  · intro size hpositive hsound
    exact save_fault_eq (fault?_resized hsound hpositive) hsound

/-- A size beyond signed 64-bit integers and a host with quotes, a line break and a control
character, in a directory that has to be made. -/
theorem save_load_quoted_host :
    let configuration : Configuration :=
      { mode := .deferred, bufferSize := 18446744073709551615,
        wildcardHost := "'''a\"\\\n\x01" }
    FileTree.Stored {} ∧ configuration.bufferSize < bufferSizeLimit ∧
      (save {} ⟨"etc/unio.toml"⟩ configuration).2 = none ∧
        load (save {} ⟨"etc/unio.toml"⟩ configuration).1 ⟨"etc/unio.toml"⟩ =
          .ok configuration := by
  intro configuration
  have hstored : FileTree.Stored {} := by
    intro location number hfind
    cases hfind
  have hsize : configuration.bufferSize < bufferSizeLimit := by
    decide +kernel +zetaReduce
  have hsave : (save {} ⟨"etc/unio.toml"⟩ configuration).2 = none := by
    decide +kernel +zetaReduce
  exact ⟨hstored, hsize, hsave, (save_load_roundtrip hstored ⟨"etc/unio.toml"⟩ hsize).1 hsave⟩

/-- The least size that fits no signed 64-bit integer is saved. -/
theorem save_wide_buffer :
    let configuration : Configuration := { bufferSize := 9223372036854775808 }
    configuration.fault? = none ∧ 9223372036854775808 ≤ configuration.bufferSize ∧
      (save {} ⟨"u.toml"⟩ configuration).2 = none ∧
        (save {} ⟨"u.toml"⟩ configuration).1 ≠ {} := by
  decide +kernel

end Configuration

end ResourceHandles
