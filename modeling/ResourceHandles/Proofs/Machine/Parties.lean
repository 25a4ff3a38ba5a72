import ResourceHandles.Proofs.Machine.Reading

/-!
# The parties of a stream

A connection is used through one handle for its whole life, and a handle stands for
one connection.  So what a log tells of the calls on a handle it tells of the
connection, also after the handle was closed.
-/

namespace ResourceHandles

/-- A handle of a handle space, with the connection that it stands for. -/
structure Party where
  space : Nat
  handle : Handle
  number : Nat
  deriving Repr, DecidableEq

/-! ## The calls of a party -/

/-- The party whose bytes an action moves. -/
def Pending.party? (pending : Pending) : Option Party :=
  match pending.action with
  | .receive handle number => some ⟨pending.space, handle, number⟩
  | .send handle number _ => some ⟨pending.space, handle, number⟩
  | _ => none

theorem party?_of_receive
    {pending : Pending} {handle : Handle} {number : Nat}
    (haction : pending.action = .receive handle number) :
    pending.party? = some ⟨pending.space, handle, number⟩ := by
  unfold Pending.party?
  rw [haction]

theorem party?_of_send
    {pending : Pending} {handle : Handle} {number : Nat} {data : Bytes}
    (haction : pending.action = .send handle number data) :
    pending.party? = some ⟨pending.space, handle, number⟩ := by
  unfold Pending.party?
  rw [haction]

/-- The party that a record is about. -/
def Record.party? : Record → Option Party
  | .started space call (some (.connection number)) _ =>
    call.handle?.map fun handle => ⟨space, handle, number⟩
  | .started _ _ _ _ => none
  | .advanced pending _ => pending.party?
  | .abandoned pending => pending.party?
  | .exhausted _ => none

namespace Party

/-- The handle of a party stands for its connection. -/
def IsOpen (party : Party) (machine : Machine) : Prop :=
  machine.lookup party.space party.handle = some (.connection party.number)

instance (party : Party) (machine : Machine) : Decidable (party.IsOpen machine) :=
  inferInstanceAs (Decidable (machine.lookup _ _ = _))

/-- The bytes of a write by a party. -/
def written? (party : Party) : Record → Option Bytes
  | .started space (.write handle data) (some (.connection _)) _ =>
    if space = party.space ∧ handle = party.handle then some data else none
  | _ => none

/-- The bytes that a read by a party was answered with. -/
def chunk? (party : Party) : Record → Option Bytes
  | .advanced pending (some (.bytes data)) =>
    match pending.action with
    | .receive handle _ =>
      if pending.space = party.space ∧ handle = party.handle then some data else none
    | _ => none
  | _ => none

/-- All bytes that a party wrote, in the order in which the writes were started. -/
def written (party : Party) (log : List Record) : Bytes :=
  (log.filterMap party.written?).flatten

/-- The chunks that the reads by a party were answered with, in the order of the
answers. -/
def chunks (party : Party) (log : List Record) : List Bytes :=
  log.filterMap party.chunk?

/-- A read by a party failed. -/
def FailsReading (party : Party) (record : Record) : Prop :=
  ∃ pending fault number,
    record = .advanced pending (some (.failed fault)) ∧
      pending.space = party.space ∧ pending.action = .receive party.handle number

/-- A write by a party was given up. -/
def GivesUpWriting (party : Party) (record : Record) : Prop :=
  ∃ pending number data,
    record = .abandoned pending ∧
      pending.space = party.space ∧ pending.action = .send party.handle number data

/-- A write by a party waits. -/
def IsWriting (party : Party) (machine : Machine) : Prop :=
  ∃ pending ∈ machine.pending, ∃ number data,
    pending.space = party.space ∧ pending.action = .send party.handle number data

/-- A read by a party waits. -/
def IsReading (party : Party) (machine : Machine) : Prop :=
  ∃ pending ∈ machine.pending, ∃ number,
    pending.space = party.space ∧ pending.action = .receive party.handle number

end Party

namespace Machine

/-! ## Handles and connections belong together -/

/-- A party appears if its handle is bound to its connection, or was. -/
inductive Appears (machine : Machine) (log : List Record) (party : Party) : Prop where
  | bound (hopen : party.IsOpen machine)
  | waiting {pending : Pending} (hmem : pending ∈ machine.pending)
      (hparty : pending.party? = some party)
  | logged {record : Record} (hmem : record ∈ log) (hparty : record.party? = some party)

/-- A party has its handle and its connection for itself. -/
structure Owns (machine : Machine) (log : List Record) (party : Party) : Prop where
  handleOld : party.handle.raw < (machine.space party.space).table.next
  connectionOld : party.number < machine.connections.length
  byHandle :
    ∀ other, machine.Appears log other →
      other.space = party.space → other.handle = party.handle → other = party
  byConnection :
    ∀ other, machine.Appears log other → other.number = party.number → other = party

/-- Every party that appears has its handle and its connection for itself. -/
def Separate (machine : Machine) (log : List Record) : Prop :=
  ∀ party, machine.Appears log party → machine.Owns log party

theorem BindingsSound.party_old
    {machine : Machine} (hsound : machine.BindingsSound) {party : Party}
    (hopen : party.IsOpen machine) :
    party.handle.raw < (machine.space party.space).table.next ∧
      party.number < machine.connections.length := by
  refine ⟨?_, hsound.lt_length hopen⟩
  apply (hsound.tables party.space).lt_next
  rw [← HandleTable.get?_isSome_iff]
  unfold Party.IsOpen lookup at hopen
  rw [hopen]
  rfl

theorem party?_of_actionOn?
    {call : Call} {found : Option Resource} {action : Action} {ticket space : Nat}
    {party : Party} (haction : call.actionOn? found = some action)
    (hparty : Pending.party? ⟨ticket, space, action⟩ = some party) :
    call.handle? = some party.handle ∧ party.space = space ∧
      found = some (.connection party.number) := by
  unfold Call.actionOn? at haction
  split at haction
  all_goals first | (cases haction; cases hparty; exact ⟨rfl, rfl, rfl⟩) | skip
  all_goals cases haction
  all_goals cases hparty

theorem isOpen_of_found
    {machine : Machine} {call : Call} {party : Party}
    (hhandle : call.handle? = some party.handle)
    (hfound : machine.found party.space call = some (.connection party.number)) :
    party.IsOpen machine := by
  obtain ⟨handle, hother, hlookup⟩ := lookup_of_found hfound
  rw [hhandle, Option.some.injEq] at hother
  subst hother
  exact hlookup

theorem Transition.record_appears
    {machine next : Machine} {log : List Record} {record : Record} {party : Party}
    (htransition : machine.Transition record next) (hparty : record.party? = some party) :
    machine.Appears log party := by
  have hcall :
      ∀ space call result,
        (Record.started space call (machine.found space call) result).party? = some party →
          machine.Appears log party := by
    intro space call result hstarted
    unfold Record.party? at hstarted
    split at hstarted
    · next number other hrecord =>
        simp only [Record.started.injEq] at hrecord
        obtain ⟨rfl, rfl, hfound, -⟩ := hrecord
        obtain ⟨handle, hhandle, rfl⟩ := Option.map_eq_some_iff.mp hstarted
        exact Appears.bound (isOpen_of_found hhandle hfound)
    · cases hstarted
    · next hrecord => cases hrecord
    · next hrecord => cases hrecord
    · cases hstarted
  cases htransition with
  | refused howner hfound hclose hreply => exact hcall _ _ _ hparty
  | parked howner hleads => exact hcall _ _ _ hparty
  | performed howner hfree hnone hperform => exact hcall _ _ _ hparty
  | @closed space handle resource howner hbound =>
      have hfound : machine.found space (.close handle) = some resource := hbound
      rw [← hfound] at hparty
      exact hcall _ _ _ hparty
  | @closing space handle resource action howner hbound haction =>
      have hfound : machine.found space (.close handle) = some resource := hbound
      rw [← hfound] at hparty
      exact hcall _ _ _ hparty
  | finished hpending hturn hperform =>
      exact Appears.waiting (mem_of_pending? hpending) hparty
  | continued hpending hturn hperform =>
      exact Appears.waiting (mem_of_pending? hpending) hparty
  | abandoned hpending => exact Appears.waiting (mem_of_pending? hpending) hparty
  | exhausted _ => cases hparty

theorem Transition.pending_appears
    {machine next : Machine} {log : List Record} {record : Record} {pending : Pending}
    {party : Party} (hsound : machine.Sound) (htransition : machine.Transition record next)
    (hmem : pending ∈ next.pending) (hparty : pending.party? = some party) :
    machine.Appears log party := by
  cases htransition.origin hsound hmem with
  | waited hold => exact Appears.waiting hold hparty
  | @parked call hleads =>
      rcases hleads with ⟨-, hfree⟩ | hfits
      · unfold Pending.party? at hparty
        split at hparty
        · next haction =>
            rw [haction] at hfree
            cases hfree
        · next haction =>
            rw [haction] at hfree
            cases hfree
        · cases hparty
      · obtain ⟨hhandle, hspace, hfound⟩ := party?_of_actionOn? hfits hparty
        apply Appears.bound
        rw [← hspace] at hfound
        exact isOpen_of_found hhandle hfound
  | closing haction =>
      unfold Pending.party? at hparty
      rcases closingAction_cases haction with ⟨file, hfile⟩ | ⟨number, hend⟩
      · rw [hfile] at hparty
        cases hparty
      · rw [hend] at hparty
        cases hparty
  | @continued earlier handle number count data hold hsend hrest =>
      subst hrest
      cases hparty
      exact Appears.waiting hold (party?_of_send hsend)

/-- A party that appears after a transition appeared before, or is the one that was
bound by it. -/
theorem Transition.appears
    {machine next : Machine} {record : Record} (hsound : machine.Sound)
    (htransition : machine.Transition record next) (log : List Record) :
    ∃ owner, ∀ party, next.Appears (log ++ [record]) party →
      machine.Appears log party ∨
        (party = ⟨owner, ⟨(machine.space owner).table.next⟩, machine.connections.length⟩ ∧
          party.IsOpen next) := by
  obtain ⟨owner, hlookup⟩ := htransition.rebinds.lookup hsound.bindings.tables
  refine ⟨owner, ?_⟩
  rintro ⟨space, handle, number⟩ happears
  cases happears with
  | bound hopen =>
      rcases hlookup space handle number hopen with hold | ⟨hspace, hhandle, hnumber, -⟩
      · exact Or.inl (Appears.bound hold)
      · right
        refine ⟨?_, hopen⟩
        rw [hspace, hhandle, hnumber]
  | waiting hmem hparty => exact Or.inl (htransition.pending_appears hsound hmem hparty)
  | logged hmem hparty =>
      rw [List.mem_append, List.mem_singleton] at hmem
      rcases hmem with hold | rfl
      · exact Or.inl (Appears.logged hold hparty)
      · exact Or.inl (htransition.record_appears hparty)

theorem Owns.transition
    {machine next : Machine} {log : List Record} {record : Record} {party : Party}
    (howns : machine.Owns log party) (hsound : machine.Sound)
    (htransition : machine.Transition record next) :
    next.Owns (log ++ [record]) party := by
  obtain ⟨owner, happears⟩ := htransition.appears hsound log
  constructor
  · exact howns.handleOld.trans_le (htransition.rebinds.next_le party.space)
  · exact howns.connectionOld.trans_le htransition.length_connections
  · intro other hother hspace hhandle
    rcases happears other hother with hold | ⟨hnew, -⟩
    · exact howns.byHandle other hold hspace hhandle
    · have hold := howns.handleOld
      rw [← hspace, ← hhandle, hnew] at hold
      exact absurd hold (lt_irrefl _)
  · intro other hother hnumber
    rcases happears other hother with hold | ⟨hnew, -⟩
    · exact howns.byConnection other hold hnumber
    · have hold := howns.connectionOld
      rw [← hnumber, hnew] at hold
      exact absurd hold (lt_irrefl _)

theorem Separate.transition
    {machine next : Machine} {log : List Record} {record : Record}
    (hseparate : machine.Separate log) (hsound : machine.Sound)
    (htransition : machine.Transition record next) :
    next.Separate (log ++ [record]) := by
  obtain ⟨owner, happears⟩ := htransition.appears hsound log
  intro party hparty
  rcases happears party hparty with hold | ⟨hnew, hopen⟩
  · exact (hseparate party hold).transition hsound htransition
  · have hnext := (htransition.sound hsound).bindings
    obtain ⟨hhandle, hconnection⟩ := hnext.party_old hopen
    constructor
    · exact hhandle
    · exact hconnection
    · intro other hother hspace hsame
      rcases happears other hother with hold | ⟨hself, -⟩
      · have hlt := (hseparate other hold).handleOld
        rw [hspace, hsame, hnew] at hlt
        exact absurd hlt (lt_irrefl _)
      · rw [hself, hnew]
    · intro other hother hnumber
      rcases happears other hother with hold | ⟨hself, -⟩
      · have hlt := (hseparate other hold).connectionOld
        rw [hnumber, hnew] at hlt
        exact absurd hlt (lt_irrefl _)
      · rw [hself, hnew]

theorem separate_boot
    (tree : FileTree) (routed : Bool) (capacity : Nat) (configurations : List Configuration) :
    (boot tree routed capacity configurations).Separate [] := by
  intro party happears
  cases happears with
  | bound hopen =>
      exact absurd ((bindingsSound_boot tree routed capacity configurations).lt_length hopen)
        (Nat.not_lt_zero _)
  | waiting hmem hparty => cases hmem
  | logged hmem hparty => cases hmem

/-! ## What a party did is what happened to its connection -/

section

variable {machine : Machine} {log : List Record} {party : Party}

theorem Owns.handle_iff_number
    (howns : machine.Owns log party) {other : Party} (happears : machine.Appears log other) :
    (other.space = party.space ∧ other.handle = party.handle) ↔
      other.number = party.number := by
  constructor
  · rintro ⟨hspace, hhandle⟩
    rw [howns.byHandle other happears hspace hhandle]
  · intro hnumber
    rw [howns.byConnection other happears hnumber]
    exact ⟨rfl, rfl⟩

theorem Owns.written?_eq
    (howns : machine.Owns log party) {record : Record} (hmem : record ∈ log) :
    party.written? record =
      record.written?.bind fun parcel =>
        if parcel.1 = party.number then some parcel.2 else none := by
  cases record with
  | started space call found result =>
      cases call with
      | write handle data =>
          cases found with
          | none => rfl
          | some resource =>
              cases resource with
              | connection number =>
                  have happears : machine.Appears log ⟨space, handle, number⟩ :=
                    Appears.logged hmem rfl
                  simp [Party.written?, Record.written?, howns.handle_iff_number happears]
              | _ => rfl
      | _ => rfl
  | _ => rfl

theorem Owns.chunk?_eq
    (howns : machine.Owns log party) {record : Record} (hmem : record ∈ log) :
    party.chunk? record = record.chunkOn? party.number := by
  cases record with
  | advanced pending reply =>
      obtain ⟨ticket, space, action⟩ := pending
      cases reply with
      | none => rfl
      | some reply =>
          cases reply with
          | bytes data =>
              cases action with
              | receive handle number =>
                  have happears : machine.Appears log ⟨space, handle, number⟩ :=
                    Appears.logged hmem rfl
                  simp [Party.chunk?, Record.chunkOn?, Record.received?,
                    howns.handle_iff_number happears]
              | _ => rfl
          | _ => rfl
  | _ => rfl

theorem Owns.chunks_eq (howns : machine.Owns log party) :
    party.chunks log = chunksOn party.number log := by
  unfold Party.chunks chunksOn
  apply List.filterMap_congr
  intro record hmem
  exact howns.chunk?_eq hmem

theorem Owns.failsReading
    (howns : machine.Owns log party) {record : Record} (hmem : record ∈ log)
    (hfails : party.FailsReading record) :
    record.FailsReading party.number := by
  obtain ⟨pending, fault, number, rfl, hspace, haction⟩ := hfails
  have happears : machine.Appears log ⟨pending.space, party.handle, number⟩ :=
    Appears.logged hmem (party?_of_receive haction)
  have hnumber : number = party.number :=
    (howns.handle_iff_number happears).mp ⟨hspace, rfl⟩
  subst hnumber
  exact ⟨pending, fault, party.handle, rfl, haction⟩

/-- The bytes at an end are those of the parcels of its connection. -/
theorem Sound.flatten_of_number
    (hsound : machine.Sound) {number : Nat} {id : EndId}
    (hend : endOf? machine.connections number = some id)
    {α : Type} (parcel? : α → Option (Nat × Bytes)) (items : List α) :
    (items.filterMap fun item =>
        (parcel? item).bind fun parcel =>
          if parcel.1 = number then some parcel.2 else none).flatten =
      bytesAt machine.connections id (items.filterMap parcel?) := by
  have hiff : ∀ other, other = number ↔ endOf? machine.connections other = some id := by
    intro other
    constructor
    · intro hsame
      rw [hsame, hend]
    · intro hother
      exact eq_of_endOf? hsound hother hend
  induction items with
  | nil => rfl
  | cons item items ih =>
      rw [List.filterMap_cons, List.filterMap_cons]
      cases hparcel : parcel? item with
      | none => exact ih
      | some parcel =>
          rw [bytesAt_cons, ← ih]
          by_cases hnumber : parcel.1 = number
          · simp [hnumber, hend]
          · have helsewhere : endOf? machine.connections parcel.1 ≠ some id :=
              fun hother => hnumber ((hiff parcel.1).mpr hother)
            simp [hnumber, helsewhere]

theorem Owns.written_eq
    (howns : machine.Owns log party) (hsound : machine.Sound) {id : EndId}
    (hend : endOf? machine.connections party.number = some id) :
    party.written log = (machine.ledger log id).written := by
  have hviews :
      log.filterMap party.written? =
        log.filterMap fun record =>
          record.written?.bind fun parcel =>
            if parcel.1 = party.number then some parcel.2 else none := by
    apply List.filterMap_congr
    intro record hmem
    exact howns.written?_eq hmem
  unfold Party.written
  rw [hviews]
  exact hsound.flatten_of_number hend Record.written? log

theorem Owns.received_eq
    (howns : machine.Owns log party) (hsound : machine.Sound) {id : EndId}
    (hend : endOf? machine.connections party.number = some id.peer) :
    (party.chunks log).flatten = (machine.ledger log id).received := by
  have hviews :
      chunksOn party.number log =
        log.filterMap fun record =>
          record.received?.bind fun parcel =>
            if parcel.1 = party.number then some parcel.2 else none := by
    apply List.filterMap_congr
    intro record _
    unfold Record.chunkOn?
    cases record.received? with
    | none => rfl
    | some parcel => rfl
  rw [howns.chunks_eq, hviews]
  exact hsound.flatten_of_number hend Record.received? log

theorem Owns.uninterrupted
    (howns : machine.Owns log party) (hsound : machine.Sound) {id : EndId}
    (hend : endOf? machine.connections party.number = some id)
    (hkept : ∀ record ∈ log, ¬party.GivesUpWriting record) :
    machine.Uninterrupted log id := by
  intro number hlost hother
  obtain ⟨record, hmem, hrecord⟩ := List.mem_filterMap.mp hlost
  have hnumber := eq_of_endOf? hsound hother hend
  unfold Record.lostSend? at hrecord
  split at hrecord
  · next pending =>
      split at hrecord
      · next handle sender data haction =>
          cases hrecord
          have happears : machine.Appears log ⟨pending.space, handle, number⟩ :=
            Appears.logged hmem (party?_of_send haction)
          obtain ⟨hspace, hhandle⟩ := (howns.handle_iff_number happears).mpr hnumber
          subst hhandle
          exact hkept _ hmem ⟨pending, number, data, rfl, hspace, haction⟩
      · cases hrecord
  · cases hrecord

end

end Machine

end ResourceHandles
