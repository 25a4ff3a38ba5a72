import ResourceHandles.Proofs.Files.OpenFiles
import ResourceHandles.Proofs.Files.Replacing

/-!
# What a path leads to and what is written there

A path leads to a file with some bytes.  Opening the path for writing leaves these bytes,
or none if the file is emptied or new.  Writes then either go over the bytes from their
start, one behind the other, or are put behind all of them.
-/

namespace ResourceHandles

namespace FileTree

variable {tree opened : FileTree} {path : Path} {access : Access} {number : Nat}
  {content data : Bytes}

/-- The number and the bytes of the file that a path leads to. -/
def fileAt? (tree : FileTree) (path : Path) : Option (Nat × Bytes) :=
  match tree.resolve path with
  | .ok (_, .file number) => some (number, tree.content number)
  | _ => none

/-- The bytes that a path leads to; if there is no file, there are none. -/
def bytesAt (tree : FileTree) (path : Path) : Bytes :=
  ((tree.fileAt? path).map Prod.snd).getD []

theorem fileAt?_eq_some_iff :
    tree.fileAt? path = some (number, content) ↔
      (∃ location, tree.resolve path = .ok (location, .file number)) ∧
        tree.content number = content := by
  unfold fileAt?
  split
  · next location other hresolve =>
      rw [hresolve]
      simp only [Option.some.injEq, Prod.mk.injEq, Except.ok.injEq, Entry.file.injEq,
        exists_and_right, exists_eq', true_and]
      constructor
      · rintro ⟨rfl, hcontent⟩
        exact ⟨rfl, hcontent⟩
      · rintro ⟨rfl, hcontent⟩
        exact ⟨rfl, hcontent⟩
  · next hother =>
      simp only [reduceCtorEq, false_iff]
      rintro ⟨⟨location, hresolve⟩, -⟩
      exact hother location number hresolve

theorem readFile_of_fileAt?
    (hfile : tree.fileAt? path = some (number, content)) :
    tree.readFile path = .ok content := by
  obtain ⟨⟨location, hresolve⟩, hcontent⟩ := fileAt?_eq_some_iff.mp hfile
  rw [readFile, hresolve, ← hcontent]

theorem lt_of_fileAt?
    (hstored : tree.Stored) (hfile : tree.fileAt? path = some (number, content)) :
    number < tree.contents.length := by
  obtain ⟨⟨location, hresolve⟩, -⟩ := fileAt?_eq_some_iff.mp hfile
  exact resolve_lt hstored hresolve

/-- A walk that ends at the name of a file leads to this file. -/
theorem resolve_of_locate
    {directory : Location} {name : String}
    (hlocate : tree.locate path = .ok (.name directory name false))
    (hchild : tree.child? directory name = .ok (some (.file number))) :
    tree.resolve path = .ok (directory ++ [name], .file number) := by
  unfold resolve
  rw [hlocate]
  simp only [hchild]
  rfl

theorem resolve_setContent (tree : FileTree) (number : Nat) (data : Bytes) (path : Path) :
    (tree.setContent number data).resolve path = tree.resolve path := by
  have hchild : ∀ directory name,
      (tree.setContent number data).child? directory name = tree.child? directory name :=
    fun _ _ => rfl
  simp only [resolve, locate_setContent, hchild]

theorem fileAt?_setContent
    (hstored : tree.Stored) (hfile : tree.fileAt? path = some (number, content))
    (data : Bytes) : (tree.setContent number data).fileAt? path = some (number, data) := by
  rw [fileAt?_eq_some_iff]
  constructor
  · rw [resolve_setContent]
    exact (fileAt?_eq_some_iff.mp hfile).1
  · exact content_setContent (lt_of_fileAt? hstored hfile) data

/-! ## Opening for writing -/

theorem fileAt?_openExisting
    (hstored : tree.Stored) (hfile : tree.fileAt? path = some (number, content))
    {entry : Entry}
    (hopen : tree.openExisting access (.file number) = .ok (opened, entry)) :
    entry = .file number ∧
      opened.fileAt? path = some (number, if access.truncate then [] else content) := by
  simp only [openExisting] at hopen
  split at hopen
  · next htruncate =>
      cases hopen
      rw [if_pos htruncate]
      exact ⟨rfl, fileAt?_setContent hstored hfile []⟩
  · next htruncate =>
      cases hopen
      rw [if_neg htruncate]
      exact ⟨rfl, hfile⟩

theorem fileAt?_addFile
    {directory : Location} {name : String}
    (hlocate : tree.locate path = .ok (.name directory name false))
    (hchild : tree.child? directory name = .ok none) :
    (tree.addFile (directory ++ [name])).1.fileAt? path = some (tree.contents.length, []) := by
  obtain ⟨hfits, hnone⟩ := child?_eq_ok_iff.mp hchild
  have hsame : tree.SameDirectories (tree.addFile (directory ++ [name])).1 := by
    apply sameDirectories_insert
    rw [find?_concat, hnone]
    simp
  have hnew : (tree.addFile (directory ++ [name])).1.child? directory name =
      .ok (some (.file tree.contents.length)) :=
    child?_eq_ok_iff.mpr ⟨hfits, Store.find?_insert_self _ _ _⟩
  rw [fileAt?_eq_some_iff]
  constructor
  · exact ⟨_, resolve_of_locate (hsame.locate hlocate) hnew⟩
  · simp [addFile, FileTree.content, List.getD_eq_getElem?_getD]

theorem fileAt?_of_child?_none
    {directory : Location} {name : String} {slash : Bool}
    (hlocate : tree.locate path = .ok (.name directory name slash))
    (hchild : tree.child? directory name = .ok none) : tree.fileAt? path = none := by
  unfold fileAt? resolve
  rw [hlocate]
  simp only [hchild]

/-- Opening for writing leads to a file.  Its bytes are those that were there, unless it
is emptied or new. -/
theorem fileAt?_openPath
    (hstored : tree.Stored) {entry : Entry} (hwrites : access.canWrite = true)
    (hopen : tree.openPath path access = .ok (opened, entry)) :
    ∃ number, entry = .file number ∧
      opened.fileAt? path =
        some (number,
          if access.truncate || access.createNew then [] else tree.bytesAt path) := by
  rcases openPath_eq_ok hopen
    with ⟨goal, hlocate, hcreate⟩ | ⟨hcreate, location, found, hresolve, hexisting⟩
  · obtain ⟨directory, name, rfl, hfound⟩ := openOrCreate_eq_ok hcreate
    rcases hfound with ⟨hchild, rfl, rfl⟩ | ⟨number, hnew, hchild, hexisting⟩
    · refine ⟨_, rfl, ?_⟩
      rw [fileAt?_addFile hlocate hchild, bytesAt, fileAt?_of_child?_none hlocate hchild]
      simp [addFile]
    · have hfile : tree.fileAt? path = some (number, tree.content number) :=
        fileAt?_eq_some_iff.mpr ⟨⟨_, resolve_of_locate hlocate hchild⟩, rfl⟩
      obtain ⟨rfl, hopened⟩ := fileAt?_openExisting hstored hfile hexisting
      refine ⟨number, rfl, ?_⟩
      rw [hopened, bytesAt, hfile, hnew, Bool.or_false]
      rfl
  · cases found with
    | directory =>
        simp [openExisting, hwrites] at hexisting
    | file number =>
        have hfile : tree.fileAt? path = some (number, tree.content number) :=
          fileAt?_eq_some_iff.mpr ⟨⟨_, hresolve⟩, rfl⟩
        obtain ⟨rfl, hopened⟩ := fileAt?_openExisting hstored hfile hexisting
        refine ⟨number, rfl, ?_⟩
        rw [hopened, bytesAt, hfile, (Bool.or_eq_false_iff.mp hcreate).2, Bool.or_false]
        rfl

/-! ## Opening for reading -/

/-- A path that leads to a file can be opened for reading, which changes nothing. -/
theorem openPath_read
    (hfile : tree.fileAt? path = some (number, content)) :
    tree.openPath path (.ofFlags (some [.read])) = .ok (tree, .file number) := by
  obtain ⟨⟨location, hresolve⟩, -⟩ := fileAt?_eq_some_iff.mp hfile
  have hnull : path.hasNull = false := by
    by_contra hnull
    rw [Bool.not_eq_false] at hnull
    simp [resolve, locate, hnull] at hresolve
  unfold openPath
  rw [hnull]
  have hfault : (Access.ofFlags (some [.read])).fault? = none := rfl
  have hcreate : ((Access.ofFlags (some [.read])).create ||
      (Access.ofFlags (some [.read])).createNew) = false := rfl
  simp only [hfault, hcreate, hresolve, Bool.false_eq_true, if_false]
  rfl

end FileTree

/-! ## Writing through one handle -/

/-- What a path leads to after it was opened and `data` was written; it led to `content`
before. -/
def Access.written (access : Access) (content data : Bytes) : Bytes :=
  if access.truncate || access.createNew then data
  else if access.append then content ++ data
  else data ++ content.drop data.length

theorem Access.written_nil (access : Access) (content : Bytes) :
    access.written content [] =
      if access.truncate || access.createNew then [] else content := by
  unfold written
  split
  · rfl
  · simp

/-- A write goes on where the writes before it have stopped. -/
theorem Access.overwrite_written
    (access : Access) (content data more : Bytes) {cursor : Nat}
    (hcursor : access.append = false → cursor = data.length) :
    (access.written content data).overwrite
        (if access.append then (access.written content data).length else cursor) more =
      access.written content (data ++ more) := by
  cases happend : access.append with
  | true =>
      rw [if_pos rfl, Bytes.overwrite_end]
      unfold written
      rw [happend]
      split
      · rfl
      · simp
  | false =>
      rw [if_neg Bool.false_ne_true, hcursor happend]
      unfold written
      rw [happend]
      split
      · exact Bytes.overwrite_end data more
      · simp only [Bool.false_eq_true, if_false]
        rw [Bytes.overwrite_middle, List.drop_drop, List.length_append]

theorem OpenFile.write_written
    {file : OpenFile} {tree : FileTree} {path : Path} {number : Nat} {content data : Bytes}
    (hstored : tree.Stored) (hwrites : file.access.canWrite = true)
    (hentry : file.entry = .file number)
    (hfile : tree.fileAt? path = some (number, file.access.written content data))
    (hcursor : file.access.append = false → file.cursor = data.length) (more : Bytes) :
    ∃ cursor later,
      file.write tree more = .ok ({ file with cursor := cursor }, later) ∧
        (file.access.append = false → cursor = (data ++ more).length) ∧
          later.fileAt? path = some (number, file.access.written content (data ++ more)) := by
  have hcontent := (FileTree.fileAt?_eq_some_iff.mp hfile).2
  rcases eq_or_ne more [] with rfl | hmore
  · exact ⟨file.cursor, tree, rfl, by simpa using hcursor, by simpa using hfile⟩
  · refine ⟨_, _, write_of_put (put_file hwrites hentry tree more) hmore, ?_, ?_⟩
    · intro happend
      rw [writePosition, happend, if_neg Bool.false_ne_true, hcursor happend,
        List.length_append]
    · rw [FileTree.fileAt?_setContent hstored hfile, hcontent, writePosition,
        file.access.overwrite_written content data more hcursor]

/-! ## Reading in chunks -/

/-- A read of a file passes on what lies at its cursor, as much as it has room for. -/
theorem OpenFile.read_file
    {file : OpenFile} {number : Nat} (hreads : file.access.read = true)
    (hsize : 0 < file.bufferSize) (hentry : file.entry = .file number) (tree : FileTree) :
    let chunk := ((tree.content number).drop file.cursor).take (min file.bufferSize transferLimit)
    file.read tree = .ok ({ file with cursor := file.cursor + chunk.length }, chunk) := by
  unfold read
  simp only [hsize.ne', hreads, hentry, Bool.not_true, Bool.false_eq_true, if_false]

/-- The chunks of a content, and empty ones behind its end. -/
def Bytes.ReadInChunks (content : Bytes) (size : Nat) (chunks : List Bytes) : Prop :=
  ∃ full empty,
    chunks = full ++ List.replicate empty [] ∧
      (∀ chunk ∈ full, chunk ≠ [] ∧ chunk.length ≤ size) ∧
        full.flatten <+: content ∧
          (0 < empty ∨ content.length ≤ chunks.length → full.flatten = content)

namespace Bytes

theorem length_le_length_flatten
    {chunks : List Bytes} (hfull : ∀ chunk ∈ chunks, chunk ≠ []) :
    chunks.length ≤ chunks.flatten.length := by
  induction chunks with
  | nil => simp
  | cons chunk chunks ih =>
      have hrest := ih (fun other hmem => hfull other (List.mem_cons_of_mem _ hmem))
      have hchunk := List.length_pos_iff.mpr (hfull chunk List.mem_cons_self)
      rw [List.flatten_cons, List.length_append, List.length_cons]
      omega

theorem readInChunks_nil (content : Bytes) (size : Nat) : content.ReadInChunks size [] := by
  refine ⟨[], 0, rfl, by simp, List.nil_prefix, ?_⟩
  rintro (hempty | hlength)
  · exact absurd hempty (lt_irrefl 0)
  · exact (List.length_eq_zero_iff.mp (Nat.le_zero.mp hlength)).symm

/-- A chunk that starts where the chunks before it end, and is cut off at the end of the
content only, is one more chunk. -/
theorem ReadInChunks.snoc
    {content : Bytes} {size room : Nat} {chunks : List Bytes}
    (hchunks : content.ReadInChunks size chunks) (hroom : 0 < room) (hsize : room ≤ size) :
    content.ReadInChunks size
      (chunks ++ [(content.drop chunks.flatten.length).take room]) := by
  obtain ⟨full, empty, rfl, hfull, hprefix, hcomplete⟩ := hchunks
  have hflatten : (full ++ List.replicate empty []).flatten = full.flatten := by simp
  rw [hflatten]
  by_cases hend : full.flatten = content
  · -- All of the content has been read.
    have hnone : (content.drop full.flatten.length).take room = [] := by simp [hend]
    refine ⟨full, empty + 1, ?_, hfull, hprefix, fun _ => hend⟩
    rw [hnone, List.append_assoc, List.replicate_succ']
  · have hempty : empty = 0 := by
      by_contra hpositive
      exact hend (hcomplete (Or.inl (Nat.pos_of_ne_zero hpositive)))
    subst hempty
    obtain ⟨rest, rfl⟩ := hprefix
    have hrest : rest ≠ [] := by
      rintro rfl
      exact hend (List.append_nil _).symm
    have hchunk : ((full.flatten ++ rest).drop full.flatten.length).take room =
        rest.take room := by
      rw [List.drop_left]
    have hnonempty : rest.take room ≠ [] := by
      rw [Ne, List.take_eq_nil_iff]
      rintro (hzero | hnil)
      · exact hroom.ne' hzero
      · exact hrest hnil
    have hgrown : ∀ chunk ∈ full ++ [rest.take room], chunk ≠ [] ∧ chunk.length ≤ size := by
      intro chunk hmem
      rw [List.mem_append, List.mem_singleton] at hmem
      rcases hmem with hold | rfl
      · exact hfull chunk hold
      · exact ⟨hnonempty, (List.length_take_le _ _).trans hsize⟩
    have hflat : (full ++ [rest.take room]).flatten = full.flatten ++ rest.take room := by simp
    have hleads : (full ++ [rest.take room]).flatten <+: full.flatten ++ rest := by
      rw [hflat]
      exact (List.prefix_append_right_inj _).mpr (List.take_prefix _ _)
    rw [hchunk, List.replicate_zero, List.append_nil]
    refine ⟨full ++ [rest.take room], 0, by simp, hgrown, hleads, ?_⟩
    rintro (hzero | hlength)
    · exact absurd hzero (lt_irrefl 0)
    · apply hleads.eq_of_length_le
      exact hlength.trans
        (length_le_length_flatten fun chunk hmem => (hgrown chunk hmem).1)

end Bytes

end ResourceHandles
