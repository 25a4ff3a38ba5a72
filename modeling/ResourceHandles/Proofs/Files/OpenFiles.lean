import ResourceHandles.Files.OpenFile

/-!
# What reads and writes of an open file come to

A transfer succeeds on a file that was opened for writing, and on nothing else.  A write of some
bytes succeeds exactly when one transfer of all of them does.  Neither reads nor writes change what
a file is open on.
-/

namespace ResourceHandles

/-! ## Bytes -/

namespace Bytes

theorem overwrite_end (content data : Bytes) :
    content.overwrite content.length data = content ++ data := by
  simp [overwrite]

theorem overwrite_middle (before content data : Bytes) :
    overwrite (before ++ content) before.length data =
      before ++ data ++ content.drop data.length := by
  simp [overwrite, List.drop_append]

theorem overwrite_append (content : Bytes) (position : Nat) (first second : Bytes) :
    (content.overwrite position first).overwrite (position + first.length) second =
      content.overwrite position (first ++ second) := by
  let before : Bytes := content.take position ++ List.replicate (position - content.length) 0
  have hlength : (before ++ first).length = position + first.length := by
    simp only [before, List.length_append, List.length_take, List.length_replicate]
    omega
  calc
    (content.overwrite position first).overwrite (position + first.length) second =
        overwrite (before ++ first ++ content.drop (position + first.length))
          (before ++ first).length second := by
          rw [hlength]
          rfl
    _ = before ++ first ++ second ++ (content.drop (position + first.length)).drop second.length :=
          overwrite_middle _ _ _
    _ = content.overwrite position (first ++ second) := by
          simp only [overwrite, before, List.drop_drop, List.length_append, List.append_assoc,
            Nat.add_assoc]

end Bytes

namespace OpenFile

variable {file moved : OpenFile} {tree later : FileTree} {data : Bytes} {number : Nat}

/-! ## Transfers -/

theorem put_file
    (hwrites : file.access.canWrite = true) (hentry : file.entry = .file number)
    (tree : FileTree) (data : Bytes) :
    let content := tree.content number
    let position := file.writePosition content
    file.put tree data =
      .ok ({ file with cursor := position + data.length },
        tree.setContent number (content.overwrite position data)) := by
  simp only [put, hwrites, hentry, Bool.not_true, Bool.false_eq_true, if_false]

theorem put_of_not_canWrite
    (hwrites : file.access.canWrite = false) (tree : FileTree) (data : Bytes) :
    file.put tree data = .error .badDescriptor := by
  simp only [put, hwrites, Bool.not_false, if_true]

theorem put_eq_ok
    (hput : file.put tree data = .ok (moved, later)) :
    ∃ number,
      file.access.canWrite = true ∧ file.entry = .file number ∧
        moved =
          { file with cursor := file.writePosition (tree.content number) + data.length } ∧
        later =
          tree.setContent number
            ((tree.content number).overwrite (file.writePosition (tree.content number)) data) := by
  unfold put at hput
  split at hput
  · cases hput
  · next hwrites =>
    split at hput
    · cases hput
    · next number hentry =>
      cases hput
      exact ⟨number, by simpa using hwrites, hentry, rfl, rfl⟩

/-- Whether a transfer fails, and how, depends on the open file alone. -/
theorem put_eq_error
    {fault : FileFault} (hput : file.put tree data = .error fault) (other : FileTree)
    (more : Bytes) : file.put other more = .error fault := by
  unfold put at hput ⊢
  split at hput
  · next hreadonly => rw [if_pos hreadonly, hput]
  · next hwrites =>
    rw [if_neg hwrites]
    split at hput
    · exact hput
    · cases hput

/-! ## Writes -/

@[simp] theorem write_nil (file : OpenFile) (tree : FileTree) :
    file.write tree [] = .ok (file, tree) :=
  rfl

theorem write_of_put
    (hput : file.put tree data = .ok (moved, later)) (hdata : data ≠ []) :
    file.write tree data = .ok (moved, later) := by
  simp only [write, List.isEmpty_iff, hdata, if_false, hput]

theorem write_of_put_error
    {fault : FileFault} (hput : file.put tree data = .error fault) (hdata : data ≠ []) :
    file.write tree data =
      .error (if data.length ≤ transferLimit then .flush else .write, fault) := by
  simp only [write, List.isEmpty_iff, hdata, if_false, hput]

theorem write_eq_ok
    (hwrite : file.write tree data = .ok (moved, later)) :
    data = [] ∧ moved = file ∧ later = tree ∨
      data ≠ [] ∧ file.put tree data = .ok (moved, later) := by
  unfold write at hwrite
  split at hwrite
  · next hempty =>
    cases hwrite
    exact .inl ⟨List.isEmpty_iff.mp hempty, rfl, rfl⟩
  · next hdata =>
    split at hwrite
    · cases hwrite
    · next hput =>
      cases hwrite
      exact .inr ⟨fun hempty => hdata (List.isEmpty_iff.mpr hempty), hput⟩

/-! ## What a file is open on -/

theorem entry_of_read (hread : file.read tree = .ok (moved, data)) : moved.entry = file.entry := by
  unfold read at hread
  split at hread
  · cases hread
    rfl
  · split at hread
    · cases hread
    · split at hread
      · cases hread
      · cases hread
        rfl

theorem entry_of_put
    (hput : file.put tree data = .ok (moved, later)) : moved.entry = file.entry := by
  obtain ⟨_, -, -, rfl, -⟩ := put_eq_ok hput
  rfl

theorem entry_of_write
    (hwrite : file.write tree data = .ok (moved, later)) : moved.entry = file.entry := by
  rcases write_eq_ok hwrite with ⟨-, rfl, -⟩ | ⟨-, hput⟩
  · rfl
  · exact entry_of_put hput

end OpenFile

end ResourceHandles
