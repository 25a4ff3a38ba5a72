import ResourceHandles.Proofs.Machine.Alone
import ResourceHandles.Proofs.Machine.FilesKept

/-!
# How much there is to read

What a handle still has to pass on is bounded by the longest file and by the longest inbox.
Opening and closing lengthen neither, a write to a file that was just opened lengthens
files by what is written at most, and every read shortens what is left.
-/

namespace ResourceHandles

/-! ## Files -/

namespace FileTree

theorem content_setContent_or (tree : FileTree) (number other : Nat) (data : Bytes) :
    (tree.setContent number data).content other = tree.content other ∨
      (other = number ∧ (tree.setContent number data).content other = data) := by
  unfold setContent content
  simp only [List.getD_eq_getElem?_getD, List.getElem?_set]
  split
  · next hsame =>
      subst hsame
      split
      · exact Or.inr ⟨rfl, rfl⟩
      · next hlength =>
          rw [List.getElem?_eq_none (Nat.not_lt.mp hlength)]
          exact Or.inl rfl
  · exact Or.inl rfl

theorem content_addFile (tree : FileTree) (location : Location) (number : Nat) :
    (tree.addFile location).1.content number = tree.content number := by
  unfold addFile content
  simp only [List.getD_eq_getElem?_getD, List.getElem?_append]
  split
  · rfl
  · next hlength =>
      rw [List.getElem?_eq_none (Nat.not_lt.mp hlength)]
      cases number - tree.contents.length with
      | zero => rfl
      | succ _ => rfl

/-- Opening leaves a file as it is, or empties it. -/
theorem content_openPath
    {tree opened : FileTree} {path : Path} {access : Access} {entry : Entry}
    (hopen : tree.openPath path access = .ok (opened, entry)) (number : Nat) :
    opened.content number = tree.content number ∨ opened.content number = [] := by
  have hexisting : ∀ {found : Entry},
      tree.openExisting access found = .ok (opened, entry) →
        opened.content number = tree.content number ∨ opened.content number = [] := by
    intro found hexisting
    rcases (openExisting_eq_ok hexisting).2 with rfl | ⟨emptied, rfl⟩
    · exact Or.inl rfl
    · rcases tree.content_setContent_or emptied number [] with hsame | ⟨-, hempty⟩
      · exact Or.inl hsame
      · exact Or.inr hempty
  rcases openPath_eq_ok hopen with ⟨goal, -, hcreate⟩ | ⟨-, location, found, -, hfound⟩
  · obtain ⟨directory, name, -, hfound⟩ := openOrCreate_eq_ok hcreate
    rcases hfound with ⟨-, rfl, -⟩ | ⟨found, -, -, hfound⟩
    · exact Or.inl (tree.content_addFile _ number)
    · exact hexisting hfound
  · exact hexisting hfound

end FileTree

theorem Bytes.length_overwrite_le
    {content : Bytes} {position : Nat} (hposition : position ≤ content.length) (data : Bytes) :
    (content.overwrite position data).length ≤ content.length + data.length := by
  simp only [overwrite, List.length_append, List.length_take, List.length_replicate,
    List.length_drop]
  omega

namespace OpenFile

/-- How many bytes lie between the cursor and the end. -/
def left (file : OpenFile) (tree : FileTree) : Nat :=
  match file.entry with
  | .directory => 0
  | .file number => (tree.content number).length - file.cursor

theorem left_read
    {file moved : OpenFile} {tree : FileTree} {data : Bytes}
    (hread : file.read tree = .ok (moved, data)) :
    moved.left tree + data.length ≤ file.left tree := by
  unfold read at hread
  split at hread
  · cases hread
    exact Nat.le_refl _
  · split at hread
    · cases hread
    · split at hread
      · cases hread
      · next number hentry =>
          obtain ⟨rfl, rfl⟩ := Prod.mk.inj (Except.ok.inj hread)
          simp only [left, hentry, List.length_take, List.length_drop]
          omega

/-- A write at the beginning or at the end makes a file longer by no more than it writes. -/
theorem length_write_le
    {file moved : OpenFile} {tree later : FileTree} {data : Bytes} {bound : Nat}
    (hwrite : file.write tree data = .ok (moved, later)) (hcursor : file.cursor = 0)
    (hcontents : ∀ number, (tree.content number).length ≤ bound) (number : Nat) :
    (later.content number).length ≤ bound + data.length := by
  rcases write_eq_ok hwrite with ⟨-, -, rfl⟩ | ⟨-, hput⟩
  · exact (hcontents number).trans (Nat.le_add_right _ _)
  · obtain ⟨written, -, -, -, rfl⟩ := put_eq_ok hput
    have hposition :
        file.writePosition (tree.content written) ≤ (tree.content written).length := by
      unfold writePosition
      rw [hcursor]
      split
      · exact Nat.le_refl _
      · exact Nat.zero_le _
    rcases tree.content_setContent_or written number _ with hsame | ⟨-, hset⟩
    · rw [hsame]
      exact (hcontents number).trans (Nat.le_add_right _ _)
    · rw [hset]
      exact (Bytes.length_overwrite_le hposition data).trans
        (Nat.add_le_add_right (hcontents written) _)

end OpenFile

namespace Machine

variable {machine next : Machine} {space bound : Nat} {handle : Handle} {reply : Reply}

/-! ## What is left to read -/

/-- How many bytes there are to read at a handle. -/
def remaining (machine : Machine) (space : Nat) (handle : Handle) : Nat :=
  match machine.lookup space handle with
  | some (.file number) =>
    match machine.files[number]? with
    | some file => file.left machine.tree
    | none => 0
  | some (.connection number) =>
    match machine.connections[number]? with
    | some connection => (machine.network.getEnd connection.endId).inbox.length
    | none => 0
  | _ => 0

theorem remaining_file
    {number : Nat} {file : OpenFile}
    (hlookup : machine.lookup space handle = some (.file number))
    (hfile : machine.files[number]? = some file) :
    machine.remaining space handle = file.left machine.tree := by
  simp only [remaining, hlookup, hfile]

theorem remaining_connection
    {number : Nat} {connection : Connection}
    (hlookup : machine.lookup space handle = some (.connection number))
    (hconnection : machine.connections[number]? = some connection) :
    machine.remaining space handle = (machine.network.getEnd connection.endId).inbox.length := by
  simp only [remaining, hlookup, hconnection]

theorem lookup_letGo (machine : Machine) (resource : Resource) (space : Nat) (handle : Handle) :
    (machine.letGo resource).lookup space handle = machine.lookup space handle := by
  unfold lookup
  rw [space_congr (machine.spaces_letGo resource)]

/-- Letting go of a resource leaves all bytes where they wait. -/
theorem remaining_letGo (machine : Machine) (resource : Resource) (space : Nat) (handle : Handle) :
    (machine.letGo resource).remaining space handle = machine.remaining space handle := by
  have hinbox := (machine.letGo_winds resource).inbox
  have hfiles : (machine.letGo resource).files = machine.files := by
    rw [letGo_eq]
  unfold remaining
  simp only [lookup_letGo, hfiles, tree_letGo, connections_letGo, hinbox]

theorem carryOut_answered
    {action : Action} (hcarried : machine.carryOut space action = (next, some reply)) :
    ∃ performed,
      machine.perform space machine.network.capacity action = (performed, .finished reply) ∧
        next = performed.letGoOf action := by
  unfold carryOut at hcarried
  split at hcarried
  · next performed answer hperform =>
      cases hcarried
      exact ⟨performed, hperform, rfl⟩
  · cases hcarried
  · cases hcarried

theorem remaining_readFile
    {number : Nat} {data : Bytes}
    (hlookup : machine.lookup space handle = some (.file number))
    (hread : machine.readFile handle number = (next, .bytes data)) :
    next.remaining space handle + data.length ≤ machine.remaining space handle := by
  unfold readFile at hread
  split at hread
  · cases hread
    exact Nat.le_refl _
  · next file hfile =>
      split at hread
      · cases hread
      · next moved chunk hmoved =>
          cases hread
          have hlength := (List.getElem?_eq_some_iff.mp hfile).1
          have hset : (machine.files.set number moved)[number]? = some moved := by
            rw [List.getElem?_set_self hlength]
          rw [remaining_file hlookup hfile]
          refine Nat.le_trans (Nat.le_of_eq ?_) (OpenFile.left_read hmoved)
          exact congrArg (· + data.length) (@remaining_file
            { machine with files := machine.files.set number moved } space handle number moved
            hlookup hset)

theorem remaining_receive
    {number amount : Nat} {data : Bytes}
    (hlookup : machine.lookup space handle = some (.connection number))
    (hreceive : machine.receive handle number amount = (next, .finished (.bytes data))) :
    next.remaining space handle + data.length ≤ machine.remaining space handle := by
  unfold receive at hreceive
  split at hreceive
  · cases hreceive
    exact Nat.le_refl _
  · next connection hconnection =>
      split at hreceive
      · cases hreceive
        exact Nat.le_refl _
      · split at hreceive
        · next network chunk hmoved =>
            cases hreceive
            have hinbox := congrArg List.length (Network.receive_moved hmoved).1
            rw [List.length_append] at hinbox
            rw [remaining_connection hlookup hconnection]
            refine Nat.le_of_eq (Eq.trans ?_ ((Nat.add_comm _ _).trans hinbox))
            exact congrArg (· + data.length) (@remaining_connection
              { machine with network := network } space handle number connection
              hlookup hconnection)
        · cases hreceive
        · cases hreceive

/-- Reading takes away what it passes on. -/
theorem remaining_alone_read
    {data : Bytes}
    (halone : machine.alone space (.read handle) = (next, some (.bytes data))) :
    next.remaining space handle + data.length ≤ machine.remaining space handle := by
  unfold alone plan at halone
  have hlookup : machine.lookup space handle = (machine.space space).table.get? handle := rfl
  dsimp only at halone
  rw [← hlookup] at halone
  cases hresource : machine.lookup space handle with
  | none =>
      rw [hresource] at halone
      cases halone
      exact Nat.le_refl _
  | some resource =>
      rw [hresource] at halone
      cases resource with
      | listener number =>
          cases halone
          exact Nat.le_refl _
      | file number =>
          obtain ⟨performed, hperform, rfl⟩ := carryOut_answered halone
          have hread : machine.readFile handle number = (performed, .bytes data) := by
            simp only [perform, finish, Prod.mk.injEq, Progress.finished.injEq] at hperform
            exact Prod.ext hperform.1 hperform.2
          show (performed.letGo (.file number)).remaining space handle + data.length ≤ _
          rw [remaining_letGo]
          exact remaining_readFile hresource hread
      | connection number =>
          obtain ⟨performed, hperform, rfl⟩ := carryOut_answered halone
          show (performed.letGo (.connection number)).remaining space handle + data.length ≤ _
          rw [remaining_letGo]
          exact remaining_receive hresource hperform

/-! ## What is kept -/

/-- No file and no inbox is longer than a bound. -/
structure Within (machine : Machine) (bound : Nat) : Prop where
  contents : ∀ number, (machine.tree.content number).length ≤ bound
  inboxes : ∀ id, (machine.network.getEnd id).inbox.length ≤ bound

theorem Within.remaining_le (hwithin : machine.Within bound) (space : Nat) (handle : Handle) :
    machine.remaining space handle ≤ bound := by
  unfold remaining
  split
  · split
    · next file hfile =>
        unfold OpenFile.left
        split
        · exact Nat.zero_le _
        · exact Nat.le_trans (Nat.sub_le _ _) (hwithin.contents _)
    · exact Nat.zero_le _
  · split
    · exact hwithin.inboxes _
    · exact Nat.zero_le _
  · exact Nat.zero_le _

theorem Within.mono
    {larger : Nat} (hwithin : machine.Within bound) (hle : bound ≤ larger) :
    machine.Within larger where
  contents number := (hwithin.contents number).trans hle
  inboxes id := (hwithin.inboxes id).trans hle

theorem Within.winds
    (hwithin : machine.Within bound) (htree : next.tree = machine.tree)
    (hwinds : machine.network.Winds next.network) : next.Within bound where
  contents number := by
    rw [htree]
    exact hwithin.contents number
  inboxes id := by
    rw [hwinds.inbox]
    exact hwithin.inboxes id

theorem Within.letGo (hwithin : machine.Within bound) (resource : Resource) :
    (machine.letGo resource).Within bound :=
  hwithin.winds (machine.tree_letGo resource) (machine.letGo_winds resource)

theorem Within.unbind
    (hwithin : machine.Within bound) (space : Nat) (handle : Handle) (resource : Resource) :
    (machine.unbind space handle resource).Within bound := by
  apply hwithin.winds (machine.tree_unbind space handle resource)
  rw [(machine.unbind_frame space handle resource).1]
  exact .refl _

/-- Closing adds no bytes. -/
theorem Within.close (hwithin : machine.Within bound) (space : Nat) (handle : Handle) :
    (machine.alone space (.close handle)).1.Within bound := by
  have hplanned := machine.planned_close space handle
  generalize hplan : machine.plan space (.close handle) = planned at hplanned
  unfold alone
  rw [hplan]
  cases hplanned with
  | refused hfound => exact hwithin
  | free hcall => cases hcall
  | fitting hsuspends hfound => cases hfound
  | closed hbound => exact (hwithin.unbind _ _ _).letGo _
  | @closing _ resource action hbound haction hsuspends =>
      have hreleased := hwithin.unbind space handle resource
      cases resource with
      | file number =>
          cases haction
          exact hreleased.letGo _
      | listener number => cases haction
      | connection number =>
          cases haction
          apply Within.letGo
          unfold Machine.endSending
          split
          · exact hreleased
          · exact hreleased.winds rfl (Network.endSending_winds _ _)

/-- Opening adds no bytes. -/
theorem Within.open
    (hwithin : machine.Within bound) (space : Nat) (path : Path)
    (flags : Option (List OpenFlag)) :
    (machine.alone space (.open path flags)).1.Within bound := by
  show (machine.openFile space path (.ofFlags flags)).1.Within bound
  unfold Machine.openFile
  split
  · exact hwithin
  · next tree entry hopen =>
      refine ⟨?_, hwithin.inboxes⟩
      intro number
      show (tree.content number).length ≤ bound
      rcases FileTree.content_openPath hopen number with hsame | hempty
      · rw [hsame]
        exact hwithin.contents number
      · rw [hempty]
        exact Nat.zero_le _

/-- A file that was just opened has its cursor at its beginning. -/
theorem file_of_open
    {path : Path} {flags : Option (List OpenFlag)} {resource : Resource}
    (htable : (machine.space space).table.WellFormed)
    (halone : machine.alone space (.open path flags) = (next, some (.handle handle)))
    (hlookup : next.lookup space handle = some resource) :
    ∃ number file,
      resource = .file number ∧ next.files[number]? = some file ∧ file.cursor = 0 := by
  have hopened :
      machine.openFile space path (.ofFlags flags) = (next, .handle handle) := by
    have hanswer : (machine.openFile space path (.ofFlags flags)).1 = next ∧
        some (machine.openFile space path (.ofFlags flags)).2 = some (.handle handle) :=
      Prod.mk.inj halone
    exact Prod.ext hanswer.1 (Option.some.inj hanswer.2)
  unfold openFile at hopened
  split at hopened
  · cases hopened
  · next tree entry hopen =>
      cases hopened
      have hbound := @lookup_of_bindHandle
        { machine with tree := tree, files := machine.files ++
            [⟨entry, .ofFlags flags, (machine.space space).configuration.bufferSize, 0⟩] }
        _ space (.file machine.files.length) rfl space _ resource htable hlookup
      rcases hbound with hold | ⟨-, -, rfl⟩
      · -- The handle is new, so nothing was bound to it before.
        have hfresh := htable.next_notMem
        rw [← HandleTable.get?_eq_none_iff] at hfresh
        cases hold.symm.trans hfresh
      · exact ⟨machine.files.length,
          ⟨entry, .ofFlags flags, (machine.space space).configuration.bufferSize, 0⟩, rfl,
          List.getElem?_concat_length, rfl⟩

/-- A write to a file that was just opened adds no more bytes than it writes. -/
theorem Within.fill
    {path : Path} {flags : Option (List OpenFlag)} (hwithin : machine.Within bound)
    (htable : (machine.space space).table.WellFormed)
    (halone : machine.alone space (.open path flags) = (next, some (.handle handle)))
    (data : Bytes) :
    (next.alone space (.write handle data)).1.Within (bound + data.length) := by
  have hopened := hwithin.open space path flags
  rw [halone] at hopened
  have hmore : next.Within (bound + data.length) := hopened.mono (Nat.le_add_right _ _)
  unfold alone plan
  have hlookup : next.lookup space handle = (next.space space).table.get? handle := rfl
  dsimp only
  rw [← hlookup]
  cases hresource : next.lookup space handle with
  | none => exact hmore
  | some resource =>
      obtain ⟨number, file, rfl, hfile, hcursor⟩ := file_of_open htable halone hresource
      show ((next.writeFile handle number data).1.letGo (.file number)).Within _
      apply Within.letGo
      unfold Machine.writeFile
      rw [hfile]
      dsimp only
      cases hwrite : file.write next.tree data with
      | error fault => exact hmore
      | ok written =>
          refine ⟨?_, hmore.inboxes⟩
          exact OpenFile.length_write_le hwrite hcursor hopened.contents

end Machine

end ResourceHandles
