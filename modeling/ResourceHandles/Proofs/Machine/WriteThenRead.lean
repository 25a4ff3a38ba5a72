import ResourceHandles.Proofs.Machine.FileContents
import ResourceHandles.Proofs.Machine.LifeCycle

/-!
# Writing a file through a handle and reading it back

A run opens a path for writing.  While nobody else changes what the path leads to, the
path leads to what the writes have come to, every write succeeds, and whoever reads the
path sees all of it.  A handle that is opened for reading then gets the content in chunks
and nothing behind its end.
-/

namespace ResourceHandles

namespace Machine

variable {machine next : Machine} {record : Record} {opening : Opening}
  {size number place cursor : Nat} {content : Bytes}

/-! ## Opening -/

/-- A path that was opened has a new open file, which its handle stands for. -/
theorem openFile_eq_handle
    {space : Nat} {path : Path} {access : Access} {handle : Handle}
    (hgood : (machine.space space).table.WellFormed) (hspace : space < machine.spaces.length)
    (hopen : machine.openFile space path access = (next, .handle handle)) :
    ∃ tree entry, machine.tree.openPath path access = .ok (tree, entry) ∧ next.tree = tree ∧
      next.files =
          machine.files ++
            [⟨entry, access, (machine.space space).configuration.bufferSize, 0⟩] ∧
        next.lookup space handle = some (.file machine.files.length) := by
  unfold openFile at hopen
  split at hopen
  · cases hopen
  · next tree entry hpath =>
      cases hopen
      refine ⟨tree, entry, hpath, rfl, rfl, ?_⟩
      show (((machine.setTable space
        ((machine.space space).table.insert (.file machine.files.length)).1).space
          space).table.get? _) = _
      rw [machine.space_setTable_self _ hspace]
      exact hgood.get?_insert_self _

theorem opened_of_step?
    {event : Event} {owners : List Owner} (howned : machine.FilesOwned owners)
    (hstep : machine.step? event = some (next, record))
    (hopening : record.opening? = some opening) :
    ∃ tree entry, machine.tree.openPath opening.path opening.access = .ok (tree, entry) ∧
      next.tree = tree ∧
        next.files =
            machine.files ++
              [⟨entry, opening.access,
                (machine.space opening.owner.space).configuration.bufferSize, 0⟩] ∧
          next.lookup opening.owner.space opening.owner.handle =
            some (.file machine.files.length) := by
  cases event with
  | start space call =>
      simp only [step?] at hstep
      split at hstep
      · next hspace =>
          simp only [Option.some.injEq, Prod.mk.injEq] at hstep
          obtain ⟨rfl, rfl⟩ := hstep
          generalize hstarted : machine.start space call = started at hopening ⊢
          obtain ⟨after, result⟩ := started
          unfold Record.opening? at hopening
          split at hopening
          · next owner path flags found handle hrecord =>
              cases hrecord
              cases hopening
              simp only [start, plan] at hstarted
              split at hstarted
              · cases hstarted
              · simp only [perform, finish, Prod.mk.injEq, letGoOf, Action.resource?,
                  Started.answered.injEq] at hstarted
                exact openFile_eq_handle (howned.tables space) hspace
                  (Prod.ext hstarted.1 hstarted.2)
          · next hrecord => cases hrecord
          · cases hopening
      · cases hstep
  | advance ticket amount =>
      obtain ⟨pending, reply, rfl⟩ : ∃ pending reply, record = .advanced pending reply := by
        simp only [step?] at hstep
        split at hstep
        · cases hstep
          exact ⟨_, _, rfl⟩
        · cases hstep
      have htransition := step?_transition hstep
      unfold Record.opening? at hopening
      split at hopening
      · next hrecord => cases hrecord
      · next opened space path access handle hrecord =>
          cases hrecord
          cases hopening
          cases htransition with
          | @finished _ part performed _ hpending hturn hperform =>
              simp only [perform, finish, Prod.mk.injEq, Progress.finished.injEq] at hperform
              obtain ⟨tree, entry, hpath, htree, hfiles, hlookup⟩ :=
                openFile_eq_handle (howned.tables space)
                  (howned.inRange _ (mem_of_pending? hpending))
                  (Prod.ext hperform.1 hperform.2)
              have hspace := space_congr (spaces_forget performed
                ⟨opened, space, .openFile path access⟩) space
              refine ⟨tree, entry, hpath, ?_, ?_, ?_⟩
              · rw [forget_eq]
                exact htree
              · rw [forget_eq]
                exact hfiles
              · unfold lookup at hlookup ⊢
                rw [hspace]
                exact hlookup
      · cases hopening
  | abandon ticket =>
      simp only [step?] at hstep
      split at hstep
      · cases hstep
        cases hopening
      · cases hstep
  | exhaust exhausted =>
      cases hstep
      cases hopening

/-- A file that was opened is held by its handle. -/
theorem Holds.opened
    {event : Event} {tree : FileTree} (hsound : machine.Sound) (hkept : machine.FilesKept)
    {owners : List Owner} (howned : machine.FilesOwned owners)
    (hstep : machine.step? event = some (next, record))
    (hopening : record.opening? = some opening)
    (hpath : machine.tree.openPath opening.path opening.access = .ok (tree, .file place))
    (hfound : tree.fileAt? opening.path = some (place, content)) :
    next.Holds opening (machine.space opening.owner.space).configuration.bufferSize
      machine.files.length place 0 content := by
  have htransition := step?_transition hstep
  obtain ⟨opened, entry, hopen, htree, hfiles, hlookup⟩ :=
    opened_of_step? howned hstep hopening
  rw [hpath] at hopen
  cases hopen
  obtain ⟨added, hadded⟩ := howned.transition htransition
  refine ⟨htransition.sound hsound, hkept.transition htransition,
    ⟨_, hadded, hadded.owned _ _ _ hlookup⟩, ?_, ?_⟩
  · rw [hfiles, List.getElem?_concat_length]
  · rw [htree]
    exact hfound

/-! ## Calls on the handle of a file -/

/-- A call on the handle of a file waits while the handle is open, and once it waits it is
answered as expected whenever it is chosen. -/
structure Served (machine : Machine) (owner : Owner) (call : Call) (expected : Reply → Prop) :
    Prop where
  start :
    (machine.space owner.space).table.classify owner.handle = .file →
      ∃ number action, call.actionOn? (some (.file number)) = some action ∧
        machine.start owner.space call =
          ((machine.park owner.space action).1, .waiting machine.nextTicket)
  advance :
    ∀ pending ∈ machine.pending, pending.space = owner.space →
      (∃ number, call.actionOn? (some (.file number)) = some pending.action) →
        ∀ amount, ∃ next reply,
          machine.advance? pending.ticket amount = some (next, some reply) ∧ expected reply

/-- A call on the handle of a file waits and then uses the file. -/
theorem start_on_file
    {space : Nat} {handle : Handle}
    (hkind : (machine.space space).table.classify handle = .file) :
    ∃ number,
      machine.start space (.read handle) =
          ((machine.park space (.readFile handle number)).1, .waiting machine.nextTicket) ∧
        ∀ data, machine.start space (.write handle data) =
          ((machine.park space (.writeFile handle number data)).1,
            .waiting machine.nextTicket) := by
  have hread : (machine.space space).configuration.mode.suspends .read = true := by
    cases (machine.space space).configuration.mode <;> rfl
  have hwrite : (machine.space space).configuration.mode.suspends .write = true := by
    cases (machine.space space).configuration.mode <;> rfl
  obtain ⟨resource, hbound, hresource⟩ := get?_of_classify hkind (by simp)
  cases resource with
  | file number =>
      refine ⟨number, ?_, fun data => ?_⟩
      · simp [Machine.start, plan, hbound, Call.operation, hread, wait, park]
      · simp [Machine.start, plan, hbound, Call.operation, hwrite, wait, park]
  | listener number => cases hresource
  | connection number => cases hresource

/-- An action that needs no turn and finishes is answered as soon as it is chosen. -/
theorem advance?_of_perform
    (hsound : machine.Sound) {pending : Pending} (hmem : pending ∈ machine.pending)
    (hlane : pending.action.lane? = none) {amount : Nat} {performed : Machine} {reply : Reply}
    (hperform :
      machine.perform pending.space amount pending.action = (performed, .finished reply)) :
    machine.advance? pending.ticket amount = some (performed.forget pending, some reply) := by
  have hturn : machine.inTurn pending = true := by
    unfold inTurn
    rw [hlane]
  unfold advance?
  simp only [pending?_of_mem hsound.waiting hmem, hturn, hperform, Bool.not_true,
    Bool.false_eq_true, if_false]

/-- Every write through the handle succeeds. -/
theorem Holds.served_write
    {base data : Bytes}
    (hholds :
      machine.Holds opening size number place cursor (opening.access.written base data))
    (hwrites : opening.access.canWrite = true)
    (hcursor : opening.access.append = false → cursor = data.length) (more : Bytes) :
    machine.Served opening.owner (.write opening.owner.handle more) (· = .done) := by
  constructor
  · intro hkind
    obtain ⟨used, -, hstart⟩ := start_on_file hkind
    exact ⟨used, _, rfl, hstart more⟩
  · intro pending hmem hspace ⟨used, haction⟩ amount
    have hfits : pending.action = .writeFile opening.owner.handle used more :=
      (Option.some.inj haction).symm
    have hused : used = number := hholds.number_eq hmem hspace (by rw [hfits]; rfl)
    subst hused
    obtain ⟨moved, later, hwrite, -, -⟩ :=
      hholds.writeFile hwrites hcursor opening.owner.handle more
    have hperform : machine.perform pending.space amount pending.action =
        finish (machine.writeFile opening.owner.handle used more) := by
      rw [hfits]
      rfl
    rw [hwrite] at hperform
    have hlane : pending.action.lane? = none := by
      rw [hfits]
      rfl
    exact ⟨_, _, advance?_of_perform hholds.sound hmem hlane hperform, rfl⟩

/-- Every read through the handle succeeds. -/
theorem Holds.served_read
    (hholds : machine.Holds opening size number place cursor content)
    (hreads : opening.access.read = true) (hsize : 0 < size) :
    machine.Served opening.owner (.read opening.owner.handle)
      fun reply => ∃ data, reply = .bytes data := by
  constructor
  · intro hkind
    obtain ⟨used, hstart, -⟩ := start_on_file hkind
    exact ⟨used, _, rfl, hstart⟩
  · intro pending hmem hspace ⟨used, haction⟩ amount
    have hfits : pending.action = .readFile opening.owner.handle used :=
      (Option.some.inj haction).symm
    have hused : used = number := hholds.number_eq hmem hspace (by rw [hfits]; rfl)
    subst hused
    have hread := hholds.readFile hreads hsize opening.owner.handle
    have hperform : machine.perform pending.space amount pending.action =
        finish (machine.readFile opening.owner.handle used) := by
      rw [hfits]
      rfl
    rw [hread] at hperform
    have hlane : pending.action.lane? = none := by
      rw [hfits]
      rfl
    exact ⟨_, _, advance?_of_perform hholds.sound hmem hlane hperform, _, rfl⟩

/-! ## What a path shows -/

/-- A path leads to some content, for whoever reads the path or a handle on its file. -/
structure Shows (machine : Machine) (path : Path) (content : Bytes) : Prop where
  read_path : machine.tree.readFile path = .ok content
  read_handle :
    ∀ handle number location file,
      machine.files[number]? = some file →
        machine.tree.resolve path = .ok (location, file.entry) →
          file.access.read = true → 0 < file.bufferSize →
            (machine.readFile handle number).2 =
              .bytes ((content.drop file.cursor).take (min file.bufferSize transferLimit))

theorem shows_of_fileAt?
    {path : Path} (hfound : machine.tree.fileAt? path = some (place, content)) :
    machine.Shows path content := by
  obtain ⟨⟨found, hresolve⟩, hcontent⟩ := FileTree.fileAt?_eq_some_iff.mp hfound
  constructor
  · exact FileTree.readFile_of_fileAt? hfound
  · intro handle number location file hfile hentry hreads hsize
    rw [hresolve] at hentry
    have hplace : file.entry = .file place := (Prod.mk.inj (Except.ok.inj hentry)).2.symm
    have hread := OpenFile.read_file hreads hsize hplace machine.tree
    unfold readFile
    rw [hfile]
    simp only [hread, hcontent]

/-- Whoever opens a path for reading gets some content through the new handle, in chunks
that are not empty before the end of the content. -/
structure ReadsBack (machine : Machine) (path : Path) (content : Bytes) : Prop where
  start_open :
    ∀ space,
      (machine.start space (.open path (some [.read]))).2 = .waiting machine.nextTicket ∨
        ∃ handle,
          (machine.start space (.open path (some [.read]))).2 = .answered (.handle handle)
  advance_open :
    ∀ pending ∈ machine.pending, pending.action = .openFile path (.ofFlags (some [.read])) →
      ∀ amount, ∃ next handle,
        machine.advance? pending.ticket amount = some (next, some (.handle handle))
  reads :
    ∀ event reader record opening,
      machine.step? event = some (reader, record) → record.opening? = some opening →
        opening.path = path → opening.access = .ofFlags (some [.read]) →
          let size := (machine.space opening.owner.space).configuration.bufferSize
          0 < size →
            (reader.space opening.owner.space).table.classify opening.owner.handle = .file ∧
              ∀ events,
                History.untouched path (fun _ => false) ⟨reader, []⟩ events = true →
                  let history := History.play ⟨reader, []⟩ events
                  content.ReadInChunks size (gotBy opening.owner history.log) ∧
                    history.machine.Served opening.owner (.read opening.owner.handle)
                      fun reply => ∃ data, reply = .bytes data

end Machine

namespace History

open Machine

variable {history : History} {opening : Opening} {size number place cursor : Nat}
  {base content : Bytes}

/-! ## Runs -/

theorem gotBy_eq_nil_of_play
    {owner : Owner} {events : List Event} (hgot : gotBy owner (history.play events).log = []) :
    gotBy owner history.log = [] := by
  obtain ⟨rest, hrest⟩ := history.log_prefix_play events
  rw [← hrest] at hgot
  unfold gotBy at hgot
  rw [List.filterMap_append] at hgot
  exact (List.append_eq_nil_iff.mp hgot).1

/-- However the writes through a handle are spread over a run, they come to what they
would come to at once. -/
theorem play_put
    (hholds :
      history.machine.Holds opening size number place cursor
        (opening.access.written base (putBy opening.owner history.log).flatten))
    (hwrites : opening.access.canWrite = true)
    (hcursor :
      opening.access.append = false →
        cursor = (putBy opening.owner history.log).flatten.length)
    {events : List Event} (hgot : gotBy opening.owner (history.play events).log = [])
    (huntouched :
      history.untouched opening.path (fun record => (record.put? opening.owner).isSome) events =
        true) :
    ∃ moved,
      (history.play events).machine.Holds opening size number place moved
          (opening.access.written base
            (putBy opening.owner (history.play events).log).flatten) ∧
        (opening.access.append = false →
          moved = (putBy opening.owner (history.play events).log).flatten.length) := by
  induction events generalizing history cursor with
  | nil => exact ⟨cursor, hholds, hcursor⟩
  | cons event events ih =>
      rw [untouched, Bool.and_eq_true] at huntouched
      rw [play_cons] at hgot ⊢
      rcases history.after_cases event with hskip | ⟨machine, record, hstep, hafter⟩
      · rw [hskip] at hgot huntouched ⊢
        exact ih hholds hcursor hgot huntouched.2
      · have hrest := huntouched.1
        simp only [hstep, Bool.or_eq_true, beq_iff_eq] at hrest
        have hnone := gotBy_eq_nil_of_play hgot
        rw [hafter, gotBy_snoc, List.append_eq_nil_iff, Option.toList_eq_nil_iff] at hnone
        obtain ⟨moved, hmoved, hlength⟩ :=
          hholds.put hwrites hcursor (step?_transition hstep) hnone.2 hrest
        have hput :
            (putBy opening.owner (history.after event).log).flatten =
              (putBy opening.owner history.log).flatten ++
                (record.put? opening.owner).getD [] := by
          rw [hafter, putBy_snoc, List.flatten_append]
          cases record.put? opening.owner with
          | none => rfl
          | some data => simp
        rw [← hput] at hmoved hlength
        have hmachine : (history.after event).machine = machine := by rw [hafter]
        rw [← hmachine] at hmoved
        exact ih hmoved hlength hgot huntouched.2

theorem play_got
    (hholds : history.machine.Holds opening size number place cursor content)
    (hreads : opening.access.read = true) (hsize : 0 < size)
    (hwrites : opening.access.canWrite = false)
    (hcursor : cursor = (gotBy opening.owner history.log).flatten.length)
    (hchunks : content.ReadInChunks size (gotBy opening.owner history.log))
    {events : List Event}
    (huntouched : history.untouched opening.path (fun _ => false) events = true) :
    ∃ moved,
      (history.play events).machine.Holds opening size number place moved content ∧
        content.ReadInChunks size (gotBy opening.owner (history.play events).log) := by
  induction events generalizing history cursor with
  | nil => exact ⟨cursor, hholds, hchunks⟩
  | cons event events ih =>
      rw [untouched, Bool.and_eq_true] at huntouched
      rw [play_cons]
      rcases history.after_cases event with hskip | ⟨machine, record, hstep, hafter⟩
      · rw [hskip] at huntouched ⊢
        exact ih hholds hcursor hchunks huntouched.2
      · have hrest := huntouched.1
        simp only [hstep, Bool.false_or, beq_iff_eq] at hrest
        obtain ⟨moved, hmoved, hlength, hread⟩ :=
          hholds.got hreads hsize hwrites hcursor hchunks (step?_transition hstep) hrest
        rw [← gotBy_snoc] at hlength hread
        rw [hafter] at huntouched ⊢
        exact ih hmoved hlength hread huntouched.2

theorem readsBack_of_fileAt?
    {machine : Machine} {path : Path} (hsound : machine.Sound) (hkept : machine.FilesKept)
    {owners : List Owner} (howned : machine.FilesOwned owners)
    (hfound : machine.tree.fileAt? path = some (place, content)) :
    machine.ReadsBack path content := by
  have hopen := FileTree.openPath_read hfound
  have hperform : ∀ space amount, ∃ next handle,
      machine.perform space amount (.openFile path (.ofFlags (some [.read]))) =
        (next, .finished (.handle handle)) := by
    intro space amount
    simp only [perform, finish, openFile, hopen]
    exact ⟨_, _, rfl⟩
  constructor
  · intro space
    obtain ⟨next, handle, hnext⟩ := hperform space 0
    simp only [start, plan]
    split
    · exact Or.inl rfl
    · rw [hnext]
      exact Or.inr ⟨handle, rfl⟩
  · intro pending hmem haction amount
    obtain ⟨next, handle, hnext⟩ := hperform pending.space amount
    rw [← haction] at hnext
    have hlane : pending.action.lane? = none := by
      rw [haction]
      rfl
    exact ⟨_, handle, advance?_of_perform hsound hmem hlane hnext⟩
  · intro event reader record opening hstep hopening hpath haccess size hsize
    subst hpath
    rw [← haccess] at hopen
    have hholds := Holds.opened hsound hkept howned hstep hopening hopen hfound
    obtain ⟨-, -, -, -, -, hlookup⟩ := opened_of_step? howned hstep hopening
    constructor
    · unfold lookup at hlookup
      rw [HandleTable.classify_eq, hlookup]
      rfl
    · intro events huntouched history
      have hreads : opening.access.read = true := by
        rw [haccess]
        rfl
      have hwrites : opening.access.canWrite = false := by
        rw [haccess]
        rfl
      obtain ⟨moved, hmoved, hchunks⟩ :=
        @play_got ⟨reader, []⟩ opening _ _ _ _ content hholds hreads hsize hwrites rfl
          (content.readInChunks_nil size) events huntouched
      exact ⟨hchunks, hmoved.served_read hreads hsize⟩

/-- A path is opened for writing, and while it is written through the new handle nobody
else changes what it leads to and nobody reads through this handle.  Then all writes
succeed, the path shows at every moment what they have made of its content, and it can be
read back. -/
theorem contents_through_handles
    (tree : FileTree) (hstored : tree.Stored) (routed : Bool) (capacity : Nat)
    (configurations : List Configuration) (earlier : List Event) (event : Event)
    (opened : Machine) (record : Record) (opening : Opening)
    (hstep :
      (History.play ⟨boot tree routed capacity configurations, []⟩
          earlier).machine.step? event =
        some (opened, record))
    (hopening : record.opening? = some opening) (hwrites : opening.access.canWrite = true)
    (later : List Event)
    (hgot : gotBy opening.owner (History.play ⟨opened, []⟩ later).log = [])
    (huntouched :
      History.untouched opening.path (fun record => (record.put? opening.owner).isSome)
        ⟨opened, []⟩ later = true) :
    let before := (History.play ⟨boot tree routed capacity configurations, []⟩ earlier).machine
    let history := History.play ⟨opened, []⟩ later
    let content :=
      opening.access.written (before.tree.bytesAt opening.path)
        (putBy opening.owner history.log).flatten
    (opened.space opening.owner.space).table.classify opening.owner.handle = .file ∧
      (∀ data, history.machine.Served opening.owner (.write opening.owner.handle data)
        (· = .done)) ∧
        history.machine.Shows opening.path content ∧
          history.machine.ReadsBack opening.path content := by
  intro before history content
  have hsound : before.Sound :=
    History.play_invariant (P := fun machine _ => machine.Sound)
      (fun _ _ _ _ hlater htransition => htransition.sound hlater)
      (sound_boot tree routed capacity configurations) earlier
  have hkept : before.FilesKept := filesKept_play hstored routed capacity configurations earlier
  obtain ⟨owners, howned⟩ := filesOwned_play tree routed capacity configurations earlier
  obtain ⟨grown, entry, hopen, -, -, hlookup⟩ := opened_of_step? howned hstep hopening
  obtain ⟨place, rfl, hfound⟩ := FileTree.fileAt?_openPath hkept.stored hwrites hopen
  rw [← Access.written_nil] at hfound
  have hholds := Holds.opened hsound hkept howned hstep hopening hopen hfound
  obtain ⟨moved, hmoved, hcursor⟩ :=
    @play_put ⟨opened, []⟩ opening _ _ _ _ _ hholds hwrites (fun _ => rfl) later hgot
      huntouched
  obtain ⟨laterOwners, hlaterOwned, -⟩ := hmoved.owned
  refine ⟨?_, hmoved.served_write hwrites hcursor, shows_of_fileAt? hmoved.found,
    readsBack_of_fileAt? hmoved.sound hmoved.kept hlaterOwned hmoved.found⟩
  unfold lookup at hlookup
  rw [HandleTable.classify_eq, hlookup]
  rfl

/-- A file of five bytes is written over, with two writes, and read back two bytes at a
time. -/
theorem overwritten_file_read_back :
    let tree := (FileTree.writeFile {} ⟨"kept"⟩ [1, 2, 3, 4, 5]).toOption.getD {}
    let configurations : List Configuration := [{ bufferSize := 2 }]
    let path : Path := ⟨"kept"⟩
    let machine := boot tree false 8 configurations
    let opened := (machine.start 0 (.open path (some [.write]))).1
    let history :=
      History.play ⟨opened, []⟩
        [.start 0 (.write ⟨3⟩ [9]), .advance 0 0, .start 0 (.write ⟨3⟩ [8, 7]), .advance 1 0]
    let reader := (history.machine.start 0 (.open path (some [.read]))).1
    let reading :=
      History.play ⟨reader, []⟩
        [.start 0 (.read ⟨4⟩), .advance 2 0, .start 0 (.read ⟨4⟩), .advance 3 0,
          .start 0 (.read ⟨4⟩), .advance 4 0, .start 0 (.read ⟨4⟩), .advance 5 0]
    history.machine.tree.readFile path = .ok [9, 8, 7, 4, 5] ∧
      Bytes.ReadInChunks [9, 8, 7, 4, 5] 2 (gotBy ⟨0, ⟨4⟩⟩ reading.log) ∧
        (gotBy ⟨0, ⟨4⟩⟩ reading.log).length = 4 := by
  intro tree configurations path machine opened history reader reading
  have hstored : tree.Stored := by
    have hempty : FileTree.Stored {} := fun _ _ hfind => by cases hfind
    have hwrite : FileTree.writeFile {} ⟨"kept"⟩ [1, 2, 3, 4, 5] = .ok tree := by rfl
    exact (FileTree.writeFile_evolves hwrite).stored hempty
  have hopened :
      (History.play ⟨machine, []⟩ []).machine.step? (.start 0 (.open path (some [.write]))) =
        some (opened, .started 0 (.open path (some [.write])) none (.answered (.handle ⟨3⟩))) := by
    decide +kernel
  have hgot : gotBy ⟨0, ⟨3⟩⟩ history.log = [] := by decide +kernel
  have huntouched :
      History.untouched path (fun record => (record.put? ⟨0, ⟨3⟩⟩).isSome) ⟨opened, []⟩
        [.start 0 (.write ⟨3⟩ [9]), .advance 0 0, .start 0 (.write ⟨3⟩ [8, 7]), .advance 1 0] =
          true := by
    decide +kernel
  have hcontent :
      (Access.ofFlags (some [.write])).written
          ((History.play ⟨machine, []⟩ []).machine.tree.bytesAt path)
          (putBy ⟨0, ⟨3⟩⟩ history.log).flatten =
        [9, 8, 7, 4, 5] := by
    decide +kernel
  have hsize : (history.machine.space 0).configuration.bufferSize = 2 := by decide +kernel
  have hreader :
      history.machine.step? (.start 0 (.open path (some [.read]))) =
        some (reader, .started 0 (.open path (some [.read])) none (.answered (.handle ⟨4⟩))) := by
    decide +kernel
  have hleft :
      History.untouched path (fun _ => false) ⟨reader, []⟩
        [.start 0 (.read ⟨4⟩), .advance 2 0, .start 0 (.read ⟨4⟩), .advance 3 0,
          .start 0 (.read ⟨4⟩), .advance 4 0, .start 0 (.read ⟨4⟩), .advance 5 0] =
        true := by
    decide +kernel
  have hlength : (gotBy ⟨0, ⟨4⟩⟩ reading.log).length = 4 := by decide +kernel
  -- What is left to do does not look into the runs.
  clear_value tree opened reader
  obtain ⟨-, -, hshows, hback⟩ :=
    contents_through_handles tree hstored false 8 configurations [] _ opened _
      ⟨⟨0, ⟨3⟩⟩, path, .ofFlags (some [.write])⟩ hopened rfl rfl _ hgot huntouched
  rw [hcontent] at hshows hback
  have hchunks :=
    ((hback.reads _ reader _ ⟨⟨0, ⟨4⟩⟩, path, .ofFlags (some [.read])⟩ hreader rfl rfl rfl
      (by rw [hsize]; decide)).2 _ hleft).1
  rw [hsize] at hchunks
  exact ⟨hshows.read_path, hchunks, hlength⟩

end History

end ResourceHandles
