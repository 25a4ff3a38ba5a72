import ResourceHandles.Proofs.Files.Contents
import ResourceHandles.Proofs.Files.Separate
import ResourceHandles.Proofs.Machine.Belongings
import ResourceHandles.Proofs.Session.Idle
import ResourceHandles.Proofs.Session.Trees

/-!
# Round trips through a file

A round trip puts some data into a file, reads the file back and removes it.  The file is
created if there is none, but one that is there is not emptied, and so what it held behind the
end of the data comes back with the data.  Nothing else is changed: neither another file, nor
what stands for any handle.
-/

namespace ResourceHandles

/-! ## The file of a round trip -/

namespace FileTree

variable {tree later : FileTree} {path : Path} {location : Location} {number : Nat}
  {content : Bytes}

/-- A file can be at the end of a path: the directory is there, and under the name in it there
is a file or nothing. -/
def CanHoldFile (tree : FileTree) (path : Path) (location : Location) : Prop :=
  ∃ directory name found, location = directory ++ [name] ∧
    tree.locate path = .ok (.name directory name false) ∧
      tree.child? directory name = .ok found ∧ found ≠ some .directory

/-- The path leads to a file with some bytes, and all other places are as they were. -/
structure LeadsTo (tree later : FileTree) (path : Path) (location : Location) (number : Nat)
    (content : Bytes) : Prop where
  separate : later.Separate
  located :
    ∃ directory name, location = directory ++ [name] ∧
      later.locate path = .ok (.name directory name false) ∧
        later.child? directory name = .ok (some (.file number))
  content : later.content number = content
  entries : ∀ place, place ≠ location → later.find? place = tree.find? place
  agrees : tree.AgreesExcept later location

theorem LeadsTo.fileAt?_eq (hleads : tree.LeadsTo later path location number content) :
    later.fileAt? path = some (number, content) := by
  obtain ⟨directory, name, rfl, hlocate, hchild⟩ := hleads.located
  exact fileAt?_eq_some_iff.mpr
    ⟨⟨_, resolve_of_locate hlocate hchild⟩, hleads.content⟩

theorem LeadsTo.setContent
    (hleads : tree.LeadsTo later path location number content) (data : Bytes) :
    tree.LeadsTo (later.setContent number data) path location number data := by
  obtain ⟨directory, name, hlocation, hlocate, hchild⟩ := hleads.located
  have hfind : later.find? location = some (.file number) := by
    rw [hlocation, find?_concat]
    exact (child?_eq_ok_iff.mp hchild).2
  refine ⟨(evolves_setContent _ _ _).separate hleads.separate,
    ⟨directory, name, hlocation, (locate_setContent _ _ _ _).trans hlocate, hchild⟩,
    content_setContent (lt_of_fileAt? hleads.separate.stored hleads.fileAt?_eq) data,
    hleads.entries, ?_⟩
  exact hleads.agrees.trans (hleads.separate.agreesExcept_setContent hfind data)

/-- A file is opened for writing with the bytes that it has, and made if it is not there. -/
theorem Separate.openPath_create
    (hseparate : tree.Separate) (hpath : tree.CanHoldFile path location) :
    ∃ opened number,
      tree.openPath path (.ofFlags (some [.write, .create])) = .ok (opened, .file number) ∧
        tree.LeadsTo opened path location number (tree.bytesAt path) := by
  obtain ⟨directory, name, found, rfl, hlocate, hchild, hfound⟩ := hpath
  have hnull : path.hasNull = false := by
    by_contra hnull
    rw [Bool.not_eq_false] at hnull
    simp [locate, hnull] at hlocate
  have hopen :
      tree.openPath path (.ofFlags (some [.write, .create])) =
        tree.openOrCreate (.ofFlags (some [.write, .create])) (.name directory name false) := by
    have hfault : (Access.ofFlags (some [.write, .create])).fault? = none := rfl
    have hcreate : ((Access.ofFlags (some [.write, .create])).create ||
        (Access.ofFlags (some [.write, .create])).createNew) = true := rfl
    simp only [openPath, hnull, hfault, hcreate, hlocate, Bool.false_eq_true, if_false, if_true]
  obtain ⟨hfits, hentry⟩ := child?_eq_ok_iff.mp hchild
  cases found with
  | none =>
      refine ⟨(tree.addFile (directory ++ [name])).1, tree.contents.length, ?_, ?_⟩
      · rw [hopen]
        simp only [openOrCreate, hchild, Bool.false_eq_true, if_false]
        rfl
      · have hsame : tree.SameDirectories (tree.addFile (directory ++ [name])).1 := by
          apply sameDirectories_insert
          rw [find?_concat, hentry]
          simp
        have hfile := fileAt?_addFile hlocate hchild
        refine ⟨(evolves_addFile _ _).separate hseparate,
          ⟨directory, name, rfl, hsame.locate hlocate,
            child?_eq_ok_iff.mpr ⟨hfits, Store.find?_insert_self _ _ _⟩⟩, ?_,
          fun place hplace => find?_addFile_of_ne hplace, agreesExcept_addFile hseparate.stored _⟩
        rw [bytesAt, fileAt?_of_child?_none hlocate hchild]
        exact (fileAt?_eq_some_iff.mp hfile).2
  | some entry =>
      cases entry with
      | directory => exact absurd rfl hfound
      | file number =>
          refine ⟨tree, number, ?_, ?_⟩
          · rw [hopen]
            have hnew : (Access.ofFlags (some [.write, .create])).createNew = false := rfl
            have htruncate : (Access.ofFlags (some [.write, .create])).truncate = false := rfl
            simp only [openOrCreate, openExisting, hchild, hnew, htruncate, Bool.false_eq_true,
              if_false]
          · have hfile : tree.fileAt? path = some (number, tree.content number) :=
              fileAt?_eq_some_iff.mpr ⟨⟨_, resolve_of_locate hlocate hchild⟩, rfl⟩
            refine ⟨hseparate, ⟨directory, name, rfl, hlocate, hchild⟩, ?_, fun _ _ => rfl,
              fun _ _ => rfl⟩
            rw [bytesAt, hfile]
            rfl

/-- A write at the start of the file goes over what is there. -/
theorem LeadsTo.write_eq
    (file : OpenFile) (hleads : tree.LeadsTo later path location number content)
    (hentry : file.entry = .file number) (hwrites : file.access.canWrite = true)
    (happend : file.access.append = false) (hcursor : file.cursor = 0) (data : Bytes) :
    ∃ moved written, file.write later data = .ok (moved, written) ∧
      tree.LeadsTo written path location number (data ++ content.drop data.length) := by
  cases data with
  | nil => exact ⟨file, later, rfl, by simpa using hleads⟩
  | cons byte rest =>
      have hover := Bytes.overwrite_middle [] content (byte :: rest)
      have hwritten := hleads.setContent (content.overwrite 0 (byte :: rest))
      have hput := OpenFile.put_file hwrites hentry later (byte :: rest)
      rw [List.nil_append, List.nil_append, List.length_nil] at hover
      rw [hover] at hwritten
      simp only [OpenFile.writePosition, happend, Bool.false_eq_true, if_false, hcursor,
        hleads.content, hover] at hput
      exact ⟨_, _, OpenFile.write_of_put hput (List.cons_ne_nil _ _), hwritten⟩

/-- The tree after a file at the end of a path was removed. -/
structure Unlinked (tree last : FileTree) (path : Path) (location : Location) : Prop where
  gone : last.pathExists path = false
  free : last.find? location = none
  entries : ∀ place, place ≠ location → last.find? place = tree.find? place
  agrees : tree.AgreesExcept last location

theorem LeadsTo.unlink_eq (hleads : tree.LeadsTo later path location number content) :
    ∃ last, later.unlink path = .ok last ∧ tree.Unlinked last path location := by
  obtain ⟨directory, name, rfl, hlocate, hchild⟩ := hleads.located
  obtain ⟨hfits, hentry⟩ := child?_eq_ok_iff.mp hchild
  let last : FileTree := { later with entries := later.entries.erase (directory ++ [name]) }
  have hroot : directory ++ [name] ≠ [] := by simp
  have hothers : ∀ place, place ≠ directory ++ [name] → last.find? place = later.find? place := by
    intro place hplace
    by_cases hempty : place = []
    · rw [hempty]
      rfl
    · rw [find?_of_ne_nil last hempty, find?_of_ne_nil later hempty]
      exact Store.find?_erase_of_ne _ hplace
  have hfree : last.find? (directory ++ [name]) = none := by
    rw [find?_of_ne_nil last hroot]
    exact Store.find?_erase_self _ _
  have hsame : later.SameDirectories last := by
    apply sameDirectories_erase
    rw [find?_concat, hentry]
    simp
  refine ⟨last, ?_, ?_, hfree, fun place hplace => (hothers place hplace).trans
    (hleads.entries place hplace), ?_⟩
  · simp only [unlink, hlocate, hchild, Bool.false_eq_true, if_false]
    rfl
  · have hnone : last.child? directory name = .ok none := by
      refine child?_eq_ok_iff.mpr ⟨hfits, ?_⟩
      rw [← find?_concat]
      exact hfree
    have hresolve : last.resolve path = .error .notFound := by
      rw [resolve, hsame.locate hlocate]
      simp only [hnone]
    rw [pathExists, hresolve]
  · exact hleads.agrees.trans fun place hplace =>
      fileBytes?_congr (fun number => by rw [hothers place hplace]) fun _ _ => rfl

end FileTree

/-! ## Calls on files -/

/-- A handle that was just bound to a file and is unbound again leaves the table with one
handle less to give. -/
theorem HandleTable.WellFormed.remove_insert_file
    {table : HandleTable Nat Nat Nat} (hgood : table.WellFormed) (number : Nat) :
    ((table.insert (.file number)).1).remove ⟨table.next⟩ =
      ({ table with next := table.next + 1 }, some (.file number)) := by
  have hfiles : (⟨table.next⟩ : Handle) ∉ table.files.keys := by
    intro hmem
    apply hgood.next_notMem
    unfold keys
    exact List.mem_append_left _ hmem
  simp only [HandleTable.remove, HandleTable.insert, Store.find?_insert_self,
    Store.erase_insert hfiles]

theorem HandleTable.WellFormed.skip
    {table : HandleTable Nat Nat Nat} (hgood : table.WellFormed) :
    ({ table with next := table.next + 1 } : HandleTable Nat Nat Nat).WellFormed := by
  refine ⟨?_, hgood.nodup, hgood.first_le, ?_⟩
  · exact hgood.first_le_next.trans (Int.le_add_one le_rfl)
  · intro handle hmem
    exact (hgood.lt_next handle hmem).trans (Int.lt_succ _)

namespace Machine

variable {machine base : Machine} {space number : Nat} {handle : Handle} {path : Path}
  {tree : FileTree} {files : List OpenFile} {table : HandleTable Nat Nat Nat}

/-- A machine with other files, some of them open, and another table for one of its spaces. -/
def filed (base : Machine) (space : Nat) (tree : FileTree) (files : List OpenFile)
    (table : HandleTable Nat Nat Nat) : Machine :=
  { base.setTable space table with tree := tree, files := files }

theorem filed_self (base : Machine) (space : Nat) :
    base.filed space base.tree base.files (base.space space).table = base := by
  have hspaces : (base.spaces.modify space fun owner =>
      { owner with table := (base.space space).table }) = base.spaces := by
    apply List.ext_getElem?
    intro position
    rw [List.getElem?_modify]
    by_cases hposition : space = position
    · subst hposition
      unfold Machine.space
      rw [List.getD_eq_getElem?_getD]
      cases base.spaces[space]? with
      | none => rfl
      | some owner => simp
    · cases base.spaces[position]? with
      | none => rfl
      | some owner => simp [hposition]
  simp only [filed, setTable, hspaces]

theorem space_filed (hspace : space < base.spaces.length) :
    (base.filed space tree files table).space space =
      { base.space space with table := table } :=
  base.space_setTable_self table hspace

theorem setTable_filed (later : HandleTable Nat Nat Nat) :
    (base.filed space tree files table).setTable space later =
      base.filed space tree files later := by
  have hspaces : (base.spaces.modify space fun owner => { owner with table := table }).modify
      space (fun owner => { owner with table := later }) =
        base.spaces.modify space fun owner => { owner with table := later } := by
    rw [List.modify_modify_eq]
    rfl
  simp only [filed, setTable, hspaces]

theorem alone_open
    {flags : Option (List OpenFlag)} {opened : FileTree} {entry : Entry}
    (hspace : space < base.spaces.length)
    (hopen : tree.openPath path (.ofFlags flags) = .ok (opened, entry)) :
    (base.filed space tree files table).alone space (.open path flags) =
      (base.filed space opened
        (files ++ [⟨entry, .ofFlags flags, (base.space space).configuration.bufferSize, 0⟩])
        (table.insert (.file files.length)).1, some (.handle ⟨table.next⟩)) := by
  have hsize : ((base.filed space tree files table).space space).configuration =
      (base.space space).configuration := by
    rw [space_filed hspace]
  have hadded : ∀ file,
      Machine.addFile { base.filed space tree files table with tree := opened } space file =
        (base.filed space opened (files ++ [file]) (table.insert (.file files.length)).1,
          ⟨table.next⟩) := by
    intro file
    show ((base.filed space opened (files ++ [file]) table).bindHandle space
      (.file files.length)) = _
    unfold bindHandle
    rw [space_filed hspace]
    simp only [setTable_filed, HandleTable.insert_handle]
  have htree : (base.filed space tree files table).tree = tree := rfl
  simp only [alone, plan, carryOut, perform, finish, openFile, htree, hopen, hsize, hadded, letGoOf,
    Action.resource?]

theorem alone_read
    {file moved : OpenFile} {data : Bytes} (hspace : space < base.spaces.length)
    (hbound : table.get? handle = some (.file number)) (hfile : files[number]? = some file)
    (hread : file.read tree = .ok (moved, data)) :
    (base.filed space tree files table).alone space (.read handle) =
      (base.filed space tree (files.set number moved) table, some (.bytes data)) := by
  have hfound : ((base.filed space tree files table).space space).table.get? handle =
      some (.file number) := by
    rw [space_filed hspace]
    exact hbound
  have htree : (base.filed space tree files table).tree = tree := rfl
  have hfiles : (base.filed space tree files table).files = files := rfl
  simp only [alone, plan, hfound, carryOut, perform, finish, readFile, htree, hfiles, hfile, hread,
    letGoOf, Action.resource?, letGo, ite_self]
  rfl

theorem alone_write
    {file moved : OpenFile} {later : FileTree} {data : Bytes}
    (hspace : space < base.spaces.length) (hbound : table.get? handle = some (.file number))
    (hfile : files[number]? = some file) (hwrite : file.write tree data = .ok (moved, later)) :
    (base.filed space tree files table).alone space (.write handle data) =
      (base.filed space later (files.set number moved) table, some .done) := by
  have hfound : ((base.filed space tree files table).space space).table.get? handle =
      some (.file number) := by
    rw [space_filed hspace]
    exact hbound
  have htree : (base.filed space tree files table).tree = tree := rfl
  have hfiles : (base.filed space tree files table).files = files := rfl
  simp only [alone, plan, hfound, carryOut, perform, finish, writeFile, htree, hfiles, hfile,
    hwrite, letGoOf, Action.resource?, letGo, ite_self]
  rfl

theorem alone_close
    {later : HandleTable Nat Nat Nat} (hspace : space < base.spaces.length)
    (hremove : table.remove handle = (later, some (.file number))) :
    (base.filed space tree files table).alone space (.close handle) =
      (base.filed space tree files later, some .done) := by
  have hremoved : ((base.filed space tree files table).space space).table.remove handle =
      (later, some (.file number)) := by
    rw [space_filed hspace]
    exact hremove
  unfold alone
  simp only [plan, hremoved, closingAction, setTable_filed]
  split
  · next hplan =>
      split at hplan
      · cases hplan
      · cases hplan
        simp only [letGo, ite_self]
        rfl
  · next hplan =>
      split at hplan
      · next haction =>
          cases hplan
          cases haction
          simp only [carryOut, perform, letGoOf, Action.resource?, letGo, ite_self]
          rfl
      · cases hplan

theorem alone_unlink {later : FileTree} (hunlink : tree.unlink path = .ok later) :
    (base.filed space tree files table).alone space (.unlink path) =
      (base.filed space later files table, some .done) := by
  have htree : (base.filed space tree files table).tree = tree := rfl
  simp only [alone, plan, carryOut, perform, finish, unlink, htree, hunlink, letGoOf,
    Action.resource?]
  rfl

end Machine

/-! ## Playing -/

namespace Script

variable {machine next last base : Machine} {space count number : Nat} {script : Script}
  {outcome : Outcome} {call : Call} {reply : Reply} {path : Path}

theorem Plays.after_call
    (hplays : Plays space machine script count last outcome) (hturn : script.turn = .call call)
    (halone : machine.alone space call = (next, some reply)) :
    ∃ fewer, count = fewer + 1 ∧ Plays space next (script.after reply) fewer last outcome := by
  cases hplays with
  | finished hfinish => cases hturn.symm.trans hfinish
  | answered hcall hother hlater =>
      cases hturn.symm.trans hcall
      cases halone.symm.trans hother
      exact ⟨_, rfl, hlater⟩
  | unanswered hcall hother =>
      cases hturn.symm.trans hcall
      cases halone.symm.trans hother

theorem Plays.of_ended
    {ended : Outcome} (hplays : Plays space machine (.ended ended) count last outcome) :
    last = machine ∧ outcome = ended := by
  cases hplays with
  | finished hfinish => exact ⟨rfl, (Turn.finish.inj hfinish).symm⟩
  | answered hcall => cases hcall
  | unanswered hcall => cases hcall

/-- Reading goes on until all that lies behind the cursor has been gathered. -/
theorem Plays.reads
    {tree : FileTree} {files : List OpenFile} {table : HandleTable Nat Nat Nat} {handle : Handle}
    {file : OpenFile} {place : Nat} {chunks : List Bytes} (hspace : space < base.spaces.length)
    (hbound : table.get? handle = some (.file number)) (hfile : files[number]? = some file)
    (hreads : file.access.read = true) (hsize : 0 < file.bufferSize)
    (hentry : file.entry = .file place)
    (hplays :
      Plays space (base.filed space tree files table) (.roundTrip path (.read handle chunks))
        count last outcome) :
    ∃ moved fewer,
      Plays space (base.filed space tree moved table)
        (.roundTrip path
          (.closeRead handle (joined chunks ++ (tree.content place).drop file.cursor)))
        fewer last outcome := by
  induction count generalizing files file chunks with
  | zero =>
      cases hplays with
      | finished hfinish => cases hfinish
  | succ count ih =>
      let chunk := ((tree.content place).drop file.cursor).take (min file.bufferSize transferLimit)
      let moved : OpenFile := { file with cursor := file.cursor + chunk.length }
      have hread : file.read tree = .ok (moved, chunk) :=
        OpenFile.read_file hreads hsize hentry tree
      have halone :
          (base.filed space tree files table).alone space (.read handle) =
            (base.filed space tree (files.set number moved) table, some (.bytes chunk)) :=
        Machine.alone_read hspace hbound hfile hread
      obtain ⟨fewer, hcount, hlater⟩ := hplays.after_call rfl halone
      obtain rfl := Nat.succ.inj hcount
      cases hchunk : chunk with
      | nil =>
          have hroom : min file.bufferSize transferLimit ≠ 0 := by
            unfold transferLimit
            omega
          have hend := (List.take_eq_nil_iff.mp hchunk).resolve_left hroom
          rw [hchunk] at hlater
          rw [hend, List.append_nil]
          exact ⟨_, _, hlater⟩
      | cons byte rest =>
          rw [hchunk] at hlater
          have hmoved : (files.set number moved)[number]? = some moved :=
            List.getElem?_set_self (List.getElem?_eq_some_iff.mp hfile).1
          obtain ⟨after, fewer, hdone⟩ := ih hmoved hreads hsize hentry hlater
          have hgathered : joined ((byte :: rest) :: chunks) ++
              (tree.content place).drop moved.cursor =
                joined chunks ++ (tree.content place).drop file.cursor := by
            have hprefix : chunk <+: (tree.content place).drop file.cursor := List.take_prefix _ _
            have hrest := List.prefix_iff_eq_append.mp hprefix
            rw [← hchunk]
            simp only [joined, moved, List.reverse_cons, List.flatten_append,
              List.flatten_singleton, List.append_assoc, ← List.drop_drop, hrest]
          rw [hgathered] at hdone
          exact ⟨after, fewer, hdone⟩

section

variable {location : Location} {data : Bytes}

/-- A round trip gives back the data and whatever was behind its end. -/
theorem Plays.roundTrip
    (hspace : space < base.spaces.length) (hgood : (base.space space).table.WellFormed)
    (hsize : 0 < (base.space space).configuration.bufferSize) (hseparate : base.tree.Separate)
    (hpath : base.tree.CanHoldFile path location)
    (hplays : Plays space base (.roundTrip path (.create data)) count last outcome) :
    outcome = .bytes (data ++ (base.tree.bytesAt path).drop data.length) ∧
      ∃ tree files, base.tree.Unlinked tree path location ∧
        last = base.filed space tree files
          { (base.space space).table with next := (base.space space).table.next + 1 + 1 } := by
  rw [← base.filed_self space] at hplays
  generalize (base.space space).table = table at hgood hplays ⊢
  obtain ⟨opened, place, hopen, hleads⟩ := hseparate.openPath_create hpath
  obtain ⟨_, -, hfill⟩ := hplays.after_call rfl (Machine.alone_open hspace hopen)
  -- The file is filled through its first handle, which is closed,
  have hfirst := hgood.get?_insert_self (.file base.files.length)
  obtain ⟨moved, written, hwrite, hwritten⟩ :=
    hleads.write_eq ⟨.file place, .ofFlags (some [.write, .create]), _, 0⟩ rfl rfl rfl rfl data
  obtain ⟨_, -, hclose⟩ := hfill.after_call rfl
    (Machine.alone_write hspace hfirst List.getElem?_concat_length hwrite)
  obtain ⟨_, -, hreopen⟩ := hclose.after_call rfl
    (Machine.alone_close hspace (hgood.remove_insert_file base.files.length))
  generalize (base.files ++ _).set base.files.length moved = files at hreopen
  have hskipped := hgood.skip
  generalize hlater : ({ table with next := table.next + 1 } : HandleTable Nat Nat Nat) = later
    at hreopen hskipped
  -- and read through its second one, which is closed, too,
  obtain ⟨_, -, hreading⟩ := hreopen.after_call rfl
    (Machine.alone_open hspace (FileTree.openPath_read hwritten.fileAt?_eq))
  have hsecond := hskipped.get?_insert_self (.file files.length)
  obtain ⟨_, _, hread⟩ := hreading.reads hspace hsecond List.getElem?_concat_length rfl hsize rfl
  obtain ⟨_, -, hremove⟩ := hread.after_call rfl
    (Machine.alone_close hspace (hskipped.remove_insert_file files.length))
  -- and is removed.
  obtain ⟨tree, hunlink, hunlinked⟩ := hwritten.unlink_eq
  obtain ⟨_, -, hended⟩ := hremove.after_call rfl (Machine.alone_unlink hunlink)
  obtain ⟨rfl, rfl⟩ := hended.of_ended
  refine ⟨?_, tree, _, hunlinked, by rw [← hlater]⟩
  rw [hwritten.content]
  rfl

end

end Script

/-! ## Round trips in a session -/

/-- A machine whose table has given away handles that stand for nothing any more. -/
theorem Machine.space_filed_skip
    (base : Machine) (space other : Nat) (tree : FileTree) (files : List OpenFile) (later : Int) :
    let table := (base.space space).table
    ∃ next, (base.filed space tree files { table with next := later }).space other =
      { base.space other with table := { (base.space other).table with next := next } } := by
  intro table
  by_cases hother : other = space
  · subst hother
    by_cases hspace : other < base.spaces.length
    · exact ⟨later, base.space_filed hspace⟩
    · refine ⟨(base.space other).table.next, ?_⟩
      simp [filed, setTable, Machine.space, List.getD_eq_getElem?_getD, hspace]
  · exact ⟨(base.space other).table.next, base.space_setTable_of_ne _ hother⟩

namespace Session

variable {session : Session} {runtime : Nat} {path : Path} {location : Location}

/-- A round trip gives back the data, and behind it what the file held there before: the data
alone only if the file held no more.  The file is gone then, and every other one, every handle
and the network are as they were. -/
theorem round_trip_gives_back
    (hidle : session.Idle) (hspace : session.spaceOf runtime < session.machine.spaces.length)
    (hsize : 0 < (session.space runtime).configuration.bufferSize)
    (hseparate : session.machine.tree.Separate)
    (hpath : session.machine.tree.CanHoldFile path location) (data : Bytes) :
    ∃ machine,
      session.step (.roundTrip runtime path data) =
          ({ session with machine := machine },
            .bytes (data ++ (session.machine.tree.bytesAt path).drop data.length)) ∧
        session.machine.tree.Unlinked machine.tree path location ∧
          (∀ space handle,
            machine.lookup space handle = session.machine.lookup space handle) ∧
            ({ session with machine := machine } : Session).openHandles = session.openHandles ∧
              machine.network = session.machine.network := by
  have hwithin : session.machine.bare.Within session.bytes :=
    ⟨session.within_bytes.contents, session.within_bytes.inboxes⟩
  have hlength : session.spaceOf runtime < session.machine.bare.spaces.length := hspace
  have htable : (session.machine.bare.space (session.spaceOf runtime)).table.WellFormed :=
    hidle.orderly.bindings.tables _
  have hends :
      Script.EndsWithin session.machine.bare (session.spaceOf runtime)
        (.roundTrip path (.create data)) (session.bytes + data.length + 7) :=
    Script.endsWithin_create hwithin htable data
  obtain ⟨count, last, outcome, hcount, hplays⟩ := hends
  obtain ⟨machine, hrun, hbare, -⟩ := run_idle hidle hplays hcount
  obtain ⟨rfl, tree, files, hunlinked, hlast⟩ :=
    hplays.roundTrip hlength htable hsize hseparate hpath
  rw [hlast] at hbare
  have hspaces : ∀ space, ∃ next,
      (machine.space space).table = { (session.machine.space space).table with next := next } := by
    intro space
    obtain ⟨next, hnext⟩ :=
      session.machine.bare.space_filed_skip (session.spaceOf runtime) space tree files
        ((session.machine.bare.space (session.spaceOf runtime)).table.next + 1 + 1)
    refine ⟨next, ?_⟩
    rw [← hbare] at hnext
    exact congrArg HandleSpace.table hnext
  have htree := congrArg Machine.tree hbare
  have hnetwork := congrArg Machine.network hbare
  refine ⟨machine, hrun, ?_, ?_, ?_, hnetwork⟩
  · rw [show machine.tree = tree from htree]
    exact hunlinked
  · intro space handle
    obtain ⟨next, hnext⟩ := hspaces space
    unfold Machine.lookup
    rw [hnext]
    rfl
  · apply List.map_congr_left
    intro space _
    obtain ⟨next, hnext⟩ := hspaces space
    dsimp only
    rw [hnext]
    rfl

/-- A runtime that defers its calls, and that has another file open, makes a round trip through
a file that is longer than the data. -/
theorem longer_file_given_back :
    let session :=
      (boot {} true 65536 [{ mode := .deferred }]).afterAll
        [.seed ⟨"trip"⟩ [1, 2, 3, 4], .call 0 (.open ⟨"kept"⟩ (some [.write, .create]))]
    session.Idle ∧ session.spaceOf 0 < session.machine.spaces.length ∧
      0 < (session.space 0).configuration.bufferSize ∧ session.machine.tree.Separate ∧
        session.machine.tree.CanHoldFile ⟨"trip"⟩ ["trip"] ∧
          ∃ machine,
            session.step (.roundTrip 0 ⟨"trip"⟩ [7, 8]) =
                ({ session with machine := machine }, .bytes [7, 8, 3, 4]) ∧
              session.machine.tree.Unlinked machine.tree ⟨"trip"⟩ ["trip"] ∧
                machine.lookup 0 ⟨3⟩ = some (.file 0) ∧
                  ({ session with machine := machine } : Session).openHandles = [1] := by
  intro session
  have hidle : session.Idle :=
    ⟨by decide +kernel, by decide +kernel, by decide +kernel,
      Machine.lasting_orderly.afterAll _ (Machine.orderly_boot _ _ _ _)⟩
  have hspace : session.spaceOf 0 < session.machine.spaces.length := by decide +kernel
  have hsize : 0 < (session.space 0).configuration.bufferSize := by decide +kernel
  have hseparate : session.machine.tree.Separate :=
    separate_afterAll FileTree.separate_empty _ _ _ _
  have hpath : session.machine.tree.CanHoldFile ⟨"trip"⟩ ["trip"] :=
    ⟨[], "trip", some (.file 0), rfl, by decide +kernel, by decide +kernel, by decide⟩
  obtain ⟨machine, hstep, hunlinked, hlookup, hopen, -⟩ :=
    round_trip_gives_back hidle hspace hsize hseparate hpath [7, 8]
  have hheld : session.machine.lookup 0 ⟨3⟩ = some (.file 0) := by decide +kernel
  have hcount : session.openHandles = [1] := by decide +kernel
  have hbytes : session.machine.tree.bytesAt ⟨"trip"⟩ = [1, 2, 3, 4] := by decide +kernel
  rw [hbytes] at hstep
  exact ⟨hidle, hspace, hsize, hseparate, hpath, machine, hstep, hunlinked,
    (hlookup 0 ⟨3⟩).trans hheld, hopen.trans hcount⟩

/-- Two bytes are put into a file that holds more, and come back with the rest of it. -/
theorem old_tail_not_cut_off :
    (boot {} true 65536 [{}]).runAll
        [.seed ⟨"file.txt"⟩ (Bytes.ofString "longer than payload"),
          .roundTrip 0 ⟨"file.txt"⟩ (Bytes.ofString "hi"), .list] =
      [(.done, [0]), (.bytes (Bytes.ofString "hinger than payload"), [0]), (.listing [], [0])] := by
  decide +kernel

end Session

end ResourceHandles
