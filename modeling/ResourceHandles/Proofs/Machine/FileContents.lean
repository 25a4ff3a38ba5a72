import ResourceHandles.Proofs.Files.Contents
import ResourceHandles.Proofs.Machine.FileOwners

/-!
# The content of a file that is written and read through handles

A call opens a path for writing, and nobody else changes what the path leads to.  Then
the path leads at every moment to what the writes have made of the content up to then,
and a handle that is opened for reading passes this content on in chunks.
-/

namespace ResourceHandles

/-! ## Openings, and the bytes that are put and got through a handle -/

/-- A call that opened a path: the handle that was handed out for it, and what the path
was opened for. -/
structure Opening where
  owner : Owner
  path : Path
  access : Access
  deriving Repr, DecidableEq

/-- The opening that a record tells of. -/
def Record.opening? : Record → Option Opening
  | .started space (.open path flags) _ (.answered (.handle handle)) =>
    some ⟨⟨space, handle⟩, path, .ofFlags flags⟩
  | .advanced ⟨_, space, .openFile path access⟩ (some (.handle handle)) =>
    some ⟨⟨space, handle⟩, path, access⟩
  | _ => none

/-- The bytes that were put into a file through a handle. -/
def Record.put? (owner : Owner) : Record → Option Bytes
  | .advanced ⟨_, space, .writeFile handle _ data⟩ (some .done) =>
    if (⟨space, handle⟩ : Owner) = owner then some data else none
  | _ => none

/-- The bytes that were got from a file through a handle. -/
def Record.got? (owner : Owner) : Record → Option Bytes
  | .advanced ⟨_, space, .readFile handle _⟩ (some (.bytes data)) =>
    if (⟨space, handle⟩ : Owner) = owner then some data else none
  | _ => none

/-- What was put into a file through a handle, write by write. -/
def putBy (owner : Owner) (log : List Record) : List Bytes :=
  log.filterMap (Record.put? owner)

/-- What was got from a file through a handle, read by read. -/
def gotBy (owner : Owner) (log : List Record) : List Bytes :=
  log.filterMap (Record.got? owner)

theorem putBy_snoc (owner : Owner) (log : List Record) (record : Record) :
    putBy owner (log ++ [record]) = putBy owner log ++ (record.put? owner).toList :=
  filterMap_snoc _ log record

theorem gotBy_snoc (owner : Owner) (log : List Record) (record : Record) :
    gotBy owner (log ++ [record]) = gotBy owner log ++ (record.got? owner).toList :=
  filterMap_snoc _ log record

/-- Whether a path leads to the same file with the same bytes through some events, apart
from those that are `exempt`. -/
def History.untouched
    (path : Path) (exempt : Record → Bool) : History → List Event → Bool
  | _, [] => true
  | history, event :: events =>
    (match history.machine.step? event with
      | some (next, record) =>
        exempt record || next.tree.fileAt? path == history.machine.tree.fileAt? path
      | none => true) &&
      (history.after event).untouched path exempt events

namespace Machine

variable {machine next : Machine} {record : Record} {owners : List Owner} {owner : Owner}
  {number : Nat}

/-! ## What a transition does to one open file -/

/-- An action on an open file that a transition has finished. -/
structure Carried
    (machine : Machine) (record : Record) (next : Machine) (owner : Owner) (action : Action)
    (performed : Machine) (reply : Reply) : Prop where
  perform_eq : machine.perform owner.space 0 action = (performed, .finished reply)
  record_eq : ∃ ticket, record = .advanced ⟨ticket, owner.space, action⟩ (some reply)
  files_eq : next.files = performed.files
  tree_eq : next.tree = performed.tree

/-- A transition leaves an open file alone, or carries out a read or a write through its
handle. -/
inductive FileStep (machine : Machine) (record : Record) (next : Machine) (owner : Owner)
    (number : Nat) : Prop where
  | other (hfile : next.files[number]? = machine.files[number]?)
      (hput : record.put? owner = none) (hgot : record.got? owner = none)
  | read {performed : Machine} {reply : Reply}
      (hcarried :
        machine.Carried record next owner (.readFile owner.handle number) performed reply)
  | write {data : Bytes} {performed : Machine} {reply : Reply}
      (hcarried :
        machine.Carried record next owner (.writeFile owner.handle number data) performed reply)

theorem files_perform_of_fileUse?
    (space amount : Nat) {action : Action} (hlt : number < machine.files.length)
    (huse : ∀ handle, action.fileUse? ≠ some (handle, number)) :
    (machine.perform space amount action).1.files[number]? = machine.files[number]? := by
  cases huses : action.usesFiles with
  | false => rw [(machine.perform_files space amount huses).2]
  | true =>
      cases action with
      | openFile path access =>
          simp only [perform, finish, openFile]
          split
          · rfl
          · rw [files_addFile, List.getElem?_append_left hlt]
      | readFile handle other =>
          have hne : other ≠ number := by
            rintro rfl
            exact huse handle rfl
          simp only [perform, finish, readFile]
          repeat' split
          · rfl
          · rfl
          · exact List.getElem?_set_ne hne
      | writeFile handle other data =>
          have hne : other ≠ number := by
            rintro rfl
            exact huse handle rfl
          simp only [perform, finish, writeFile]
          repeat' split
          · rfl
          · rfl
          · exact List.getElem?_set_ne hne
      | unlink path =>
          simp only [perform, finish, unlink]
          split
          · rfl
          · rfl
      | _ => cases huses

/-- Files do not care how many bytes the network may move. -/
theorem perform_amount_of_fileUse?
    {space amount : Nat} {action : Action} {use : Handle × Nat}
    (huse : action.fileUse? = some use) :
    machine.perform space amount action = machine.perform space 0 action := by
  cases action with
  | readFile handle number => rfl
  | writeFile handle number data => rfl
  | _ => cases huse

/-- An action that does not use a file puts nothing through its handle and gets nothing. -/
theorem other_of_fileUse?
    (howned : machine.FilesOwned owners) (howner : owners[number]? = some owner)
    {pending : Pending} (hmem : pending ∈ machine.pending) (reply : Option Reply)
    (huse : ¬∃ handle, pending.action.fileUse? = some (handle, number)) :
    (Record.advanced pending reply).put? owner = none ∧
      (Record.advanced pending reply).got? owner = none := by
  have hother : ∀ other, pending.space = owner.space →
      pending.action.fileUse? ≠ some (owner.handle, other) := by
    intro other hspace hused
    have hsame := howned.used pending hmem owner.handle other hused
    rw [hspace] at hsame
    rw [howned.unique hsame howner] at hused
    exact huse ⟨owner.handle, hused⟩
  constructor
  · unfold Record.put?
    split
    · next ticket space handle other data hrecord =>
        cases hrecord
        split
        · next hself =>
            subst hself
            exact absurd rfl (hother other rfl)
        · rfl
    · rfl
  · unfold Record.got?
    split
    · next ticket space handle other data hrecord =>
        cases hrecord
        split
        · next hself =>
            subst hself
            exact absurd rfl (hother other rfl)
        · rfl
    · rfl

theorem Transition.fileStep
    (howned : machine.FilesOwned owners) (howner : owners[number]? = some owner)
    (htransition : machine.Transition record next) :
    machine.FileStep record next owner number := by
  have hlt : number < machine.files.length := by
    rw [← howned.length_eq]
    exact (List.getElem?_eq_some_iff.mp howner).1
  cases htransition with
  | refused hspace hfound hclose hreply => exact FileStep.other rfl rfl rfl
  | parked hspace hleads => exact FileStep.other rfl rfl rfl
  | @performed space call action performed reply hspace hcall hfree hperform =>
      have huse : ∀ handle, action.fileUse? ≠ some (handle, number) := by
        intro handle huse
        cases action with
        | readFile _ _ => cases hfree
        | writeFile _ _ _ => cases hfree
        | _ => cases huse
      have hkept := files_perform_of_fileUse? space 0 hlt huse
      rw [hperform] at hkept
      exact FileStep.other hkept rfl rfl
  | @closed space handle resource hspace hbound =>
      refine FileStep.other ?_ rfl rfl
      rw [letGo_eq]
      cases resource <;> rfl
  | @closing space handle resource action hspace hbound haction =>
      refine FileStep.other ?_ rfl rfl
      cases resource <;> rfl
  | @finished pending amount performed reply hpending hturn hperform =>
      have hmem := mem_of_pending? hpending
      have hfiles : (performed.forget pending).files = performed.files := by rw [forget_eq]
      have htree : (performed.forget pending).tree = performed.tree := by rw [forget_eq]
      by_cases huse : ∃ handle, pending.action.fileUse? = some (handle, number)
      · obtain ⟨handle, huse⟩ := huse
        have hsame := howner.symm.trans (howned.used pending hmem handle number huse)
        cases hsame
        obtain ⟨ticket, space, action⟩ := pending
        rw [perform_amount_of_fileUse? huse] at hperform
        cases action with
        | readFile used other =>
            cases huse
            exact FileStep.read ⟨hperform, ⟨ticket, rfl⟩, hfiles, htree⟩
        | writeFile used other data =>
            cases huse
            exact FileStep.write ⟨hperform, ⟨ticket, rfl⟩, hfiles, htree⟩
        | _ => cases huse
      · obtain ⟨hput, hgot⟩ := other_of_fileUse? howned howner hmem (some reply) huse
        refine FileStep.other ?_ hput hgot
        have hkept := files_perform_of_fileUse? pending.space amount hlt
          (fun handle hhandle => huse ⟨handle, hhandle⟩)
        rw [hperform] at hkept
        rw [hfiles]
        exact hkept
  | @continued pending amount performed rest hpending hturn hperform =>
      obtain ⟨handle, other, data, count, haction, -⟩ :=
        (performed_of_perform hperform).continues
      have hmem := mem_of_pending? hpending
      have huse : ¬∃ handle, pending.action.fileUse? = some (handle, number) := by
        rw [haction]
        rintro ⟨_, ⟨⟩⟩
      obtain ⟨hput, hgot⟩ := other_of_fileUse? howned howner hmem none huse
      refine FileStep.other ?_ hput hgot
      have hkept := files_perform_of_fileUse? pending.space amount hlt
        (fun handle hhandle => huse ⟨handle, hhandle⟩)
      rw [hperform] at hkept
      exact hkept
  | @abandoned pending hpending =>
      refine FileStep.other ?_ rfl rfl
      rw [forget_eq]
  | exhausted _ => exact FileStep.other rfl rfl rfl

/-! ## A file that is held -/

/-- A handle owns an open file, and the path of this file leads to some content. -/
structure Holds (machine : Machine) (opening : Opening) (size number place cursor : Nat)
    (content : Bytes) : Prop where
  sound : machine.Sound
  kept : machine.FilesKept
  owned : ∃ owners, machine.FilesOwned owners ∧ owners[number]? = some opening.owner
  file : machine.files[number]? = some ⟨.file place, opening.access, size, cursor⟩
  found : machine.tree.fileAt? opening.path = some (place, content)

variable {opening : Opening} {size place cursor : Nat} {content : Bytes}

theorem Holds.transition
    {moved : Nat} {after : Bytes}
    (hholds : machine.Holds opening size number place cursor content)
    (htransition : machine.Transition record next)
    (hfile : next.files[number]? = some ⟨.file place, opening.access, size, moved⟩)
    (hfound : next.tree.fileAt? opening.path = some (place, after)) :
    next.Holds opening size number place moved after := by
  obtain ⟨owners, howned, howner⟩ := hholds.owned
  obtain ⟨added, hadded⟩ := howned.transition htransition
  refine ⟨htransition.sound hholds.sound, hholds.kept.transition htransition, ⟨_, hadded, ?_⟩,
    hfile, hfound⟩
  rw [List.getElem?_append_left (List.getElem?_eq_some_iff.mp howner).1]
  exact howner

theorem Holds.fileStep
    (hholds : machine.Holds opening size number place cursor content)
    (htransition : machine.Transition record next) :
    machine.FileStep record next opening.owner number := by
  obtain ⟨owners, howned, howner⟩ := hholds.owned
  exact htransition.fileStep howned howner

/-- A file that is held is used under its own number. -/
theorem Holds.number_eq
    (hholds : machine.Holds opening size number place cursor content)
    {pending : Pending} (hmem : pending ∈ machine.pending)
    (hspace : pending.space = opening.owner.space) {used : Nat}
    (huse : pending.action.fileUse? = some (opening.owner.handle, used)) : used = number := by
  obtain ⟨owners, howned, howner⟩ := hholds.owned
  have hused := howned.used pending hmem _ _ huse
  rw [hspace] at hused
  exact howned.unique hused howner

theorem lt_length_of_getElem? {file : OpenFile} (hfile : machine.files[number]? = some file) :
    number < machine.files.length :=
  (List.getElem?_eq_some_iff.mp hfile).1

/-! ## Writing -/

theorem Holds.writeFile
    {base data : Bytes}
    (hholds :
      machine.Holds opening size number place cursor (opening.access.written base data))
    (hwrites : opening.access.canWrite = true)
    (hcursor : opening.access.append = false → cursor = data.length)
    (handle : Handle) (more : Bytes) :
    ∃ moved later,
      machine.writeFile handle number more =
          ({ machine with
              files := machine.files.set number ⟨.file place, opening.access, size, moved⟩
              tree := later }, .done) ∧
        (opening.access.append = false → moved = (data ++ more).length) ∧
          later.fileAt? opening.path =
            some (place, opening.access.written base (data ++ more)) := by
  obtain ⟨moved, later, hwrite, hmoved, hlater⟩ :=
    @OpenFile.write_written ⟨.file place, opening.access, size, cursor⟩ machine.tree
      opening.path place base data hholds.kept.stored hwrites rfl hholds.found hcursor more
  refine ⟨moved, later, ?_, hmoved, hlater⟩
  unfold Machine.writeFile
  rw [hholds.file]
  simp only [hwrite]

theorem readFile_cases (machine : Machine) (handle : Handle) (number : Nat) :
    (∃ data, (machine.readFile handle number).2 = .bytes data) ∨
      machine.readFile handle number = (machine, (machine.readFile handle number).2) := by
  unfold Machine.readFile
  split
  · exact Or.inl ⟨[], rfl⟩
  · split
    · exact Or.inr rfl
    · next moved data hread => exact Or.inl ⟨data, rfl⟩

/-- What a path leads to grows by the bytes that are put through the handle, and changes
in no other way. -/
theorem Holds.put
    {base data : Bytes}
    (hholds :
      machine.Holds opening size number place cursor (opening.access.written base data))
    (hwrites : opening.access.canWrite = true)
    (hcursor : opening.access.append = false → cursor = data.length)
    (htransition : machine.Transition record next)
    (hgot : record.got? opening.owner = none)
    (hrest :
      (record.put? opening.owner).isSome = true ∨
        next.tree.fileAt? opening.path = machine.tree.fileAt? opening.path) :
    ∃ moved,
      next.Holds opening size number place moved
          (opening.access.written base (data ++ (record.put? opening.owner).getD [])) ∧
        (opening.access.append = false →
          moved = (data ++ (record.put? opening.owner).getD []).length) := by
  have hlt := lt_length_of_getElem? hholds.file
  cases hholds.fileStep htransition with
  | other hfile hput _ =>
      rw [hput] at hrest ⊢
      have hsame := hrest.resolve_left (by simp)
      rw [Option.getD_none, List.append_nil]
      refine ⟨cursor, hholds.transition htransition ?_ ?_, hcursor⟩
      · rw [hfile, hholds.file]
      · rw [hsame, hholds.found]
  | @read performed reply hcarried =>
      obtain ⟨ticket, rfl⟩ := hcarried.record_eq
      have hread : machine.readFile opening.owner.handle number = (performed, reply) := by
        have hperform := hcarried.perform_eq
        simp only [Machine.perform, finish, Prod.mk.injEq, Progress.finished.injEq] at hperform
        exact Prod.ext hperform.1 hperform.2
      rcases machine.readFile_cases opening.owner.handle number with ⟨got, hbytes⟩ | hfailed
      · rw [hread] at hbytes
        dsimp only at hbytes
        subst hbytes
        simp [Record.got?] at hgot
      · rw [hread] at hfailed
        cases hfailed
        have hput : Record.put? opening.owner
            (.advanced ⟨ticket, opening.owner.space, .readFile opening.owner.handle number⟩
              (some reply)) = none := rfl
        rw [hput, Option.getD_none, List.append_nil]
        refine ⟨cursor, hholds.transition htransition ?_ ?_, hcursor⟩
        · rw [hcarried.files_eq, hholds.file]
        · rw [hcarried.tree_eq, hholds.found]
  | @write more performed reply hcarried =>
      obtain ⟨ticket, rfl⟩ := hcarried.record_eq
      obtain ⟨moved, later, hwrite, hmoved, hlater⟩ :=
        hholds.writeFile hwrites hcursor opening.owner.handle more
      have hperform := hcarried.perform_eq
      simp only [Machine.perform, finish, hwrite, Prod.mk.injEq, Progress.finished.injEq]
        at hperform
      obtain ⟨rfl, rfl⟩ := hperform
      have hput : Record.put? opening.owner
          (.advanced ⟨ticket, opening.owner.space, .writeFile opening.owner.handle number more⟩
            (some .done)) = some more := by
        simp [Record.put?]
      rw [hput, Option.getD_some]
      refine ⟨moved, hholds.transition htransition ?_ ?_, hmoved⟩
      · rw [hcarried.files_eq]
        exact List.getElem?_set_self hlt
      · rw [hcarried.tree_eq]
        exact hlater

/-! ## Reading -/

theorem Holds.readFile
    (hholds : machine.Holds opening size number place cursor content)
    (hreads : opening.access.read = true) (hsize : 0 < size) (handle : Handle) :
    let chunk := (content.drop cursor).take (min size transferLimit)
    machine.readFile handle number =
      ({ machine with
          files := machine.files.set number
            ⟨.file place, opening.access, size, cursor + chunk.length⟩ }, .bytes chunk) := by
  have hcontent := (FileTree.fileAt?_eq_some_iff.mp hholds.found).2
  have hread :=
    @OpenFile.read_file ⟨.file place, opening.access, size, cursor⟩ place hreads hsize rfl
      machine.tree
  unfold Machine.readFile
  rw [hholds.file]
  simp only [hread, hcontent]

/-- Nothing can be written through a handle that was not opened for writing. -/
theorem Holds.files_writeFile
    (hholds : machine.Holds opening size number place cursor content)
    (hwrites : opening.access.canWrite = false) (handle : Handle) (more : Bytes) :
    (machine.writeFile handle number more).1.files[number]? =
      some ⟨.file place, opening.access, size, cursor⟩ := by
  unfold Machine.writeFile
  rw [hholds.file]
  rcases eq_or_ne more [] with rfl | hmore
  · exact List.getElem?_set_self (lt_length_of_getElem? hholds.file)
  · dsimp only
    have hput :=
      @OpenFile.put_of_not_canWrite ⟨.file place, opening.access, size, cursor⟩ hwrites
        machine.tree more
    rw [OpenFile.write_of_put_error hput hmore]
    exact hholds.file

/-- Reads pass on the content where the reads before them have stopped. -/
theorem Holds.got
    {chunks : List Bytes}
    (hholds : machine.Holds opening size number place cursor content)
    (hreads : opening.access.read = true) (hsize : 0 < size)
    (hwrites : opening.access.canWrite = false)
    (hcursor : cursor = chunks.flatten.length)
    (hchunks : content.ReadInChunks size chunks)
    (htransition : machine.Transition record next)
    (hrest : next.tree.fileAt? opening.path = machine.tree.fileAt? opening.path) :
    ∃ moved,
      next.Holds opening size number place moved content ∧
        moved = (chunks ++ (record.got? opening.owner).toList).flatten.length ∧
          content.ReadInChunks size (chunks ++ (record.got? opening.owner).toList) := by
  have hlt := lt_length_of_getElem? hholds.file
  have hfound : next.tree.fileAt? opening.path = some (place, content) := by
    rw [hrest, hholds.found]
  cases hholds.fileStep htransition with
  | other hfile _ hgot =>
      rw [hgot, Option.toList_none, List.append_nil]
      refine ⟨cursor, hholds.transition htransition ?_ hfound, hcursor, hchunks⟩
      rw [hfile, hholds.file]
  | @read performed reply hcarried =>
      obtain ⟨ticket, rfl⟩ := hcarried.record_eq
      have hperform := hcarried.perform_eq
      simp only [Machine.perform, finish, hholds.readFile hreads hsize, Prod.mk.injEq,
        Progress.finished.injEq] at hperform
      obtain ⟨rfl, rfl⟩ := hperform
      have hgot : Record.got? opening.owner
          (.advanced ⟨ticket, opening.owner.space, .readFile opening.owner.handle number⟩
            (some (.bytes ((content.drop cursor).take (min size transferLimit))))) =
          some ((content.drop cursor).take (min size transferLimit)) := by
        simp [Record.got?]
      rw [hgot, Option.toList_some]
      refine ⟨cursor + ((content.drop cursor).take (min size transferLimit)).length,
        hholds.transition htransition ?_ hfound, ?_, ?_⟩
      · rw [hcarried.files_eq]
        exact List.getElem?_set_self hlt
      · rw [List.flatten_append, List.length_append, ← hcursor]
        simp
      · rw [hcursor]
        exact hchunks.snoc (lt_min hsize (by decide)) (min_le_left _ _)
  | @write more performed reply hcarried =>
      obtain ⟨ticket, rfl⟩ := hcarried.record_eq
      have hgot : Record.got? opening.owner
          (.advanced ⟨ticket, opening.owner.space, .writeFile opening.owner.handle number more⟩
            (some reply)) = none := rfl
      rw [hgot, Option.toList_none, List.append_nil]
      refine ⟨cursor, hholds.transition htransition ?_ hfound, hcursor, hchunks⟩
      have hkept := hholds.files_writeFile hwrites opening.owner.handle more
      have hperform := hcarried.perform_eq
      simp only [Machine.perform, finish, Prod.mk.injEq] at hperform
      rw [hcarried.files_eq, ← hperform.1]
      exact hkept

end Machine

end ResourceHandles
