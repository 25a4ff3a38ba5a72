import ResourceHandles.Proofs.Machine.FilesKept
import ResourceHandles.Proofs.Machine.Tickets

/-!
# Open files and their handles

An open file is bound to the one handle it was opened for, and used by the calls on this
handle only: a number is given to a file once, and a handle is handed out once.  So what
is known of an open file can change only through its handle.
-/

namespace ResourceHandles

/-- The handle that an action on an open file was started on, and the number of the
file. -/
def Action.fileUse? : Action → Option (Handle × Nat)
  | .readFile handle number => some (handle, number)
  | .writeFile handle number _ => some (handle, number)
  | _ => none

/-- A handle and the space that it belongs to. -/
structure Owner where
  space : Nat
  handle : Handle
  deriving Repr, DecidableEq

namespace Machine

variable {machine next : Machine} {owners : List Owner} {space amount : Nat} {action : Action}
  {progress : Progress}

/-- Every open file has an owner, who is the only one to use it. -/
structure FilesOwned (machine : Machine) (owners : List Owner) : Prop where
  tables : ∀ space, (machine.space space).table.WellFormed
  length_eq : owners.length = machine.files.length
  nodup : owners.Nodup
  old : ∀ owner ∈ owners, owner.handle.raw < (machine.space owner.space).table.next
  owned :
    ∀ space handle number,
      machine.lookup space handle = some (.file number) → owners[number]? = some ⟨space, handle⟩
  used :
    ∀ pending ∈ machine.pending, ∀ handle number,
      pending.action.fileUse? = some (handle, number) →
        owners[number]? = some ⟨pending.space, handle⟩
  inRange : ∀ pending ∈ machine.pending, pending.space < machine.spaces.length

theorem filesOwned_boot
    (tree : FileTree) (routed : Bool) (capacity : Nat) (configurations : List Configuration) :
    (boot tree routed capacity configurations).FilesOwned [] := by
  have htables := (bindingsSound_boot tree routed capacity configurations).tables
  constructor
  · exact htables
  · rfl
  · exact List.nodup_nil
  · simp
  · intro space handle number hlookup
    have hempty :
        ((boot tree routed capacity configurations).space space).table = {} := by
      unfold boot Machine.space
      simp only [List.getD_eq_getElem?_getD, List.getElem?_map]
      cases configurations[space]? with
      | none => rfl
      | some configuration => rfl
    unfold lookup at hlookup
    rw [hempty] at hlookup
    cases hlookup
  · simp [boot]
  · simp [boot]

/-- An owner has one file. -/
theorem FilesOwned.unique
    (howned : machine.FilesOwned owners) {owner : Owner} {number other : Nat}
    (hnumber : owners[number]? = some owner) (hother : owners[other]? = some owner) :
    number = other := by
  obtain ⟨hlt, hget⟩ := List.getElem?_eq_some_iff.mp hnumber
  obtain ⟨hltOther, hgetOther⟩ := List.getElem?_eq_some_iff.mp hother
  exact (howned.nodup.getElem_inj_iff).mp (hget.trans hgetOther.symm)

/-- The next handle of a space owns no file yet. -/
theorem FilesOwned.notMem_next (howned : machine.FilesOwned owners) (space : Nat) :
    (⟨space, ⟨(machine.space space).table.next⟩⟩ : Owner) ∉ owners := by
  intro hmem
  exact lt_irrefl _ (howned.old _ hmem)

/-! ## What the owners are kept by -/

/-- Nothing is said about sockets, and actions that wait may be dropped. -/
theorem FilesOwned.congr
    (howned : machine.FilesOwned owners) (hspaces : next.spaces = machine.spaces)
    (hfiles : next.files.length = machine.files.length)
    (hpending : next.pending ⊆ machine.pending) : next.FilesOwned owners := by
  have hspace := space_congr hspaces
  constructor
  · intro space
    rw [hspace]
    exact howned.tables space
  · rw [hfiles]
    exact howned.length_eq
  · exact howned.nodup
  · intro owner howner
    rw [hspace]
    exact howned.old owner howner
  · intro space handle number hlookup
    unfold lookup at hlookup
    rw [hspace] at hlookup
    exact howned.owned space handle number hlookup
  · intro pending hmem
    exact howned.used pending (hpending hmem)
  · intro pending hmem
    rw [hspaces]
    exact howned.inRange pending (hpending hmem)

/-- A handle is bound to a resource.  If that is a file, the handle owns it. -/
theorem FilesOwned.bound
    (howned : machine.FilesOwned owners) {resource : Resource} {added : List Owner}
    (hspaces : next.spaces = (machine.bindHandle space resource).1.spaces)
    (hpending : next.pending = machine.pending)
    (hlength : (owners ++ added).length = next.files.length)
    (hadded :
      added = [] ∨
        added = [⟨space, ⟨(machine.space space).table.next⟩⟩] ∧ space < machine.spaces.length)
    (hresource :
      ∀ number, resource = .file number →
        (owners ++ added)[number]? = some ⟨space, ⟨(machine.space space).table.next⟩⟩) :
    next.FilesOwned (owners ++ added) := by
  have hspace :
      ∀ other, next.space other =
        (machine.setTable space ((machine.space space).table.insert resource).1).space other :=
    space_congr hspaces
  have htable := fun other =>
    machine.table_setTable space other ((machine.space space).table.insert resource).1
  have hgrows :
      ∀ other, (machine.space other).table.next ≤ (next.space other).table.next := by
    intro other
    rw [hspace]
    rcases htable other with hsame | ⟨rfl, hinserted⟩
    · rw [hsame]
    · rw [hinserted, HandleTable.insert_next]
      omega
  have hleft : ∀ {number : Nat} {owner : Owner},
      owners[number]? = some owner → (owners ++ added)[number]? = some owner := by
    intro number owner howner
    rw [List.getElem?_append_left (List.getElem?_eq_some_iff.mp howner).1]
    exact howner
  constructor
  · intro other
    rw [hspace]
    rcases htable other with hsame | ⟨rfl, hinserted⟩
    · rw [hsame]
      exact howned.tables other
    · rw [hinserted]
      exact (howned.tables other).insert resource
  · exact hlength
  · rcases hadded with rfl | ⟨rfl, -⟩
    · rw [List.append_nil]
      exact howned.nodup
    · rw [List.nodup_append_comm, List.singleton_append, List.nodup_cons]
      exact ⟨howned.notMem_next space, howned.nodup⟩
  · intro owner hmem
    rcases List.mem_append.mp hmem with hold | hnew
    · exact (howned.old owner hold).trans_le (hgrows owner.space)
    · rcases hadded with rfl | ⟨rfl, hin⟩
      · cases hnew
      · rw [List.mem_singleton.mp hnew, hspace, machine.space_setTable_self _ hin,
          HandleTable.insert_next]
        exact Int.lt_succ _
  · intro other handle number hlookup
    rcases lookup_of_bindHandle hspaces (howned.tables other) hlookup
      with hold | ⟨rfl, rfl, hnew⟩
    · exact hleft (howned.owned other handle number hold)
    · exact hresource number hnew.symm
  · rw [hpending]
    intro pending hmem handle number huse
    exact hleft (howned.used pending hmem handle number huse)
  · rw [hpending, hspaces]
    intro pending hmem
    rw [bindHandle, length_spaces_setTable]
    exact howned.inRange pending hmem

/-! ## Actions -/

@[simp] theorem files_addFile (machine : Machine) (space : Nat) (file : OpenFile) :
    (machine.addFile space file).1.files = machine.files ++ [file] := rfl

/-- Only opening a file adds one. -/
theorem length_files_perform
    (machine : Machine) (space amount : Nat)
    (hopen : ∀ path access, action ≠ .openFile path access) :
    (machine.perform space amount action).1.files.length = machine.files.length := by
  cases huses : action.usesFiles with
  | false => rw [(machine.perform_files space amount huses).2]
  | true =>
      cases action with
      | openFile path access => exact absurd rfl (hopen path access)
      | readFile handle number =>
          simp only [perform, finish, readFile]
          repeat' split
          · rfl
          · rfl
          · exact List.length_set
      | writeFile handle number data =>
          simp only [perform, finish, writeFile]
          repeat' split
          · rfl
          · rfl
          · exact List.length_set
      | unlink path =>
          simp only [perform, finish, unlink]
          split
          · rfl
          · rfl
      | _ => cases huses

theorem FilesOwned.perform
    (howned : machine.FilesOwned owners) (hspace : space < machine.spaces.length)
    (hperform : machine.perform space amount action = (next, progress)) :
    ∃ added, next.FilesOwned (owners ++ added) := by
  have hpending := (performed_of_perform hperform).pending.1
  by_cases hopen : ∃ path access, action = .openFile path access
  · obtain ⟨path, access, rfl⟩ := hopen
    simp only [Machine.perform, finish, Machine.openFile] at hperform
    split at hperform
    · cases hperform
      exact ⟨[], by rwa [List.append_nil]⟩
    · next tree entry hpath =>
        cases hperform
        refine ⟨[⟨space, ⟨(machine.space space).table.next⟩⟩], ?_⟩
        have hspaces :
            (({ machine with tree := tree }.addFile space
                ⟨entry, access, (machine.space space).configuration.bufferSize, 0⟩).1).spaces =
              (machine.bindHandle space (.file machine.files.length)).1.spaces := rfl
        refine howned.bound hspaces rfl ?_ (Or.inr ⟨rfl, hspace⟩) ?_
        · rw [List.length_append, howned.length_eq, files_addFile, List.length_append]
          rfl
        · intro number hnumber
          cases hnumber
          show (owners ++ _)[machine.files.length]? = _
          rw [← howned.length_eq, List.getElem?_concat_length]
  · refine ⟨[], ?_⟩
    have hlength : next.files.length = machine.files.length := by
      have hsame := machine.length_files_perform space amount
        (fun path access haction => hopen ⟨path, access, haction⟩)
      rwa [hperform] at hsame
    have hempty : (owners ++ []).length = next.files.length := by
      rw [List.append_nil, hlength, howned.length_eq]
    have hsame : next.spaces = machine.spaces → next.FilesOwned (owners ++ []) := by
      intro hspaces
      rw [List.append_nil]
      exact howned.congr hspaces hlength (by rw [hpending]; exact List.Subset.refl _)
    have hbound : ∀ resource : Resource, (∀ number, resource ≠ .file number) →
        next.spaces = (machine.bindHandle space resource).1.spaces →
          next.FilesOwned (owners ++ []) := by
      intro resource hother hspaces
      apply howned.bound hspaces hpending hempty (Or.inl rfl)
      intro number hfile
      exact absurd hfile (hother number)
    have hperformed := performed_of_perform hperform
    cases hperformed with
    | opened => exact absurd ⟨_, _, rfl⟩ hopen
    | listening hbind => exact hbound (.listener machine.listeners.length) (by simp) rfl
    | connected hreach => exact hbound (.connection machine.connections.length) (by simp) rfl
    | accepted htake => exact hbound (.connection machine.connections.length) (by simp) rfl
    | ended =>
        apply hsame
        unfold endSending
        split
        · rfl
        · rfl
    | _ => exact hsame rfl

/-! ## Transitions -/

theorem fileUse?_of_leadsTo
    {call : Call} {found : Option Resource} {handle : Handle} {number : Nat}
    (hleads : call.LeadsTo found action) (huse : action.fileUse? = some (handle, number)) :
    call.handle? = some handle ∧ found = some (.file number) := by
  rcases hleads with ⟨-, hfree⟩ | hfits
  · cases action with
    | readFile _ _ => cases hfree
    | writeFile _ _ _ => cases hfree
    | _ => cases huse
  · unfold Call.actionOn? at hfits
    split at hfits
    all_goals cases hfits
    all_goals cases huse
    all_goals exact ⟨rfl, rfl⟩

theorem FilesOwned.park
    (howned : machine.FilesOwned owners) (hspace : space < machine.spaces.length)
    (huse :
      ∀ handle number, action.fileUse? = some (handle, number) →
        owners[number]? = some ⟨space, handle⟩) :
    (machine.park space action).1.FilesOwned owners := by
  constructor
  · exact howned.tables
  · exact howned.length_eq
  · exact howned.nodup
  · exact howned.old
  · exact howned.owned
  · intro pending hmem
    rcases List.mem_append.mp hmem with hold | hnew
    · exact howned.used pending hold
    · rw [List.mem_singleton.mp hnew]
      exact huse
  · intro pending hmem
    rcases List.mem_append.mp hmem with hold | hnew
    · exact howned.inRange pending hold
    · rw [List.mem_singleton.mp hnew]
      exact hspace

theorem FilesOwned.unbind
    (howned : machine.FilesOwned owners) {handle : Handle} {resource : Resource}
    (hbound : machine.lookup space handle = some resource) :
    (machine.unbind space handle resource).FilesOwned owners := by
  have hspace := lt_length_of_lookup hbound
  have hrebinds : machine.Rebinds (machine.unbind space handle resource).spaces
      (machine.unbind space handle resource).connections := Rebinds.unbinds hspace hbound
  have hpending := (machine.unbind_frame space handle resource).2.1
  constructor
  · exact hrebinds.wellFormed howned.tables
  · rw [howned.length_eq]
    cases resource with
    | file number => rfl
    | listener number => rfl
    | connection number => rfl
  · exact howned.nodup
  · intro owner hmem
    exact (howned.old owner hmem).trans_le (hrebinds.next_le owner.space)
  · intro other closed number hlookup
    exact howned.owned other closed number
      (lookup_of_unbind hspace rfl (howned.tables other) hlookup).1
  · rw [hpending]
    exact howned.used
  · rw [hpending, spaces_unbind, length_spaces_setTable]
    exact howned.inRange

theorem FilesOwned.forget
    (howned : machine.FilesOwned owners) (pending : Pending) :
    (machine.forget pending).FilesOwned owners := by
  apply howned.congr
  · exact spaces_forget machine pending
  · rw [forget_eq]
  · rw [forget_pending]
    exact List.filter_subset_self _

/-- A transition keeps the owners of all files, and may add one. -/
theorem FilesOwned.transition
    {record : Record} (howned : machine.FilesOwned owners)
    (htransition : machine.Transition record next) :
    ∃ added, next.FilesOwned (owners ++ added) := by
  have hsame : next.FilesOwned owners → ∃ added, next.FilesOwned (owners ++ added) :=
    fun hnext => ⟨[], by rwa [List.append_nil]⟩
  cases htransition with
  | refused hspace hfound hclose hreply => exact hsame howned
  | @parked space call action hspace hleads =>
      apply hsame
      apply howned.park hspace
      intro handle number huse
      obtain ⟨hhandle, hfound⟩ := fileUse?_of_leadsTo hleads huse
      rw [found_of_handle? hhandle] at hfound
      exact howned.owned space handle number hfound
  | performed hspace hcall hfree hperform => exact howned.perform hspace hperform
  | closed hspace hbound =>
      apply hsame
      apply (howned.unbind hbound).congr
      · exact spaces_letGo _ _
      · rw [letGo_eq]
      · rw [(letGo_pending _ _).1]
        exact List.Subset.refl _
  | @closing space handle resource action hspace hbound haction =>
      apply hsame
      apply (howned.unbind hbound).park
      · rw [spaces_unbind, length_spaces_setTable]
        exact hspace
      · intro used number huse
        rcases closingAction_cases haction with ⟨_, rfl⟩ | ⟨_, rfl⟩
        · cases huse
        · cases huse
  | @finished pending amount performed reply hpending hturn hperform =>
      obtain ⟨added, hadded⟩ :=
        howned.perform (howned.inRange pending (mem_of_pending? hpending)) hperform
      exact ⟨added, hadded.forget pending⟩
  | @continued pending amount performed rest hpending hturn hperform =>
      obtain ⟨added, hadded⟩ :=
        howned.perform (howned.inRange pending (mem_of_pending? hpending)) hperform
      obtain ⟨handle, number, data, count, -, rfl⟩ :=
        (performed_of_perform hperform).continues
      refine ⟨added, hadded.tables, hadded.length_eq, hadded.nodup, hadded.old, hadded.owned,
        ?_, ?_⟩
      · intro replaced hmem
        obtain ⟨earlier, hearlier, rfl⟩ := List.mem_map.mp hmem
        split
        · intro _ _ huse
          cases huse
        · exact hadded.used earlier hearlier
      · intro replaced hmem
        obtain ⟨earlier, hearlier, rfl⟩ := List.mem_map.mp hmem
        split
        · exact hadded.inRange earlier hearlier
        · exact hadded.inRange earlier hearlier
  | abandoned hpending => exact hsame (howned.forget _)
  | exhausted _ => exact hsame (howned.congr rfl rfl (List.Subset.refl _))

/-- On every run, every open file has an owner. -/
theorem filesOwned_play
    (tree : FileTree) (routed : Bool) (capacity : Nat) (configurations : List Configuration)
    (events : List Event) :
    ∃ owners,
      (History.play ⟨boot tree routed capacity configurations, []⟩
        events).machine.FilesOwned owners := by
  apply History.play_invariant (P := fun machine _ => ∃ owners, machine.FilesOwned owners)
  · intro machine log record next ⟨owners, howned⟩ htransition
    obtain ⟨added, hadded⟩ := howned.transition htransition
    exact ⟨_, hadded⟩
  · exact ⟨[], filesOwned_boot tree routed capacity configurations⟩

end Machine

end ResourceHandles
