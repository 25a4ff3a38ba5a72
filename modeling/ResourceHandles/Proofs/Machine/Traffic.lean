import ResourceHandles.Proofs.Machine.Ledger
import ResourceHandles.Proofs.Machine.Sound

/-!
# Traffic of a run

The log tells which bytes were written and which were received on every connection,
and the waiting actions hold those that are still to be sent.  Parcels are bytes
with the number of a connection; the bytes at an end are those of the parcels of the
connection there.
-/

namespace ResourceHandles

/-! ## Parcels -/

/-- The bytes of a write, with the connection that it was started on. -/
def Record.written? : Record → Option (Nat × Bytes)
  | .started _ (.write _ data) (some (.connection number)) _ => some (number, data)
  | _ => none

/-- The bytes that a read was answered with, with its connection. -/
def Record.received? : Record → Option (Nat × Bytes)
  | .advanced pending (some (.bytes data)) =>
    match pending.action with
    | .receive _ number => some (number, data)
    | _ => none
  | _ => none

/-- The connection of a write that was given up. -/
def Record.lostSend? : Record → Option Nat
  | .abandoned pending =>
    match pending.action with
    | .send _ number _ => some number
    | _ => none
  | _ => none

/-- The bytes that an action has still to send, with their connection. -/
def Pending.load? (pending : Pending) : Option (Nat × Bytes) :=
  match pending.action with
  | .send _ number data => some (number, data)
  | _ => none

/-- The end of a connection. -/
def endOf? (connections : List Connection) (number : Nat) : Option EndId :=
  connections[number]?.map Connection.endId

theorem endOf?_eq_some_iff
    {connections : List Connection} {number : Nat} {connection : Connection} {id : EndId}
    (hconnection : connections[number]? = some connection) :
    endOf? connections number = some id ↔ connection.endId = id := by
  unfold endOf?
  rw [hconnection, Option.map_some, Option.some.injEq]

/-- The bytes of the parcels at an end. -/
def bytesAt (connections : List Connection) (id : EndId) (parcels : List (Nat × Bytes)) :
    Bytes :=
  parcels.flatMap fun parcel => if endOf? connections parcel.1 = some id then parcel.2 else []

@[simp] theorem bytesAt_nil (connections : List Connection) (id : EndId) :
    bytesAt connections id [] = [] := rfl

theorem bytesAt_append
    (connections : List Connection) (id : EndId) (parcels later : List (Nat × Bytes)) :
    bytesAt connections id (parcels ++ later) =
      bytesAt connections id parcels ++ bytesAt connections id later :=
  List.flatMap_append

theorem bytesAt_cons
    (connections : List Connection) (id : EndId) (parcel : Nat × Bytes)
    (parcels : List (Nat × Bytes)) :
    bytesAt connections id (parcel :: parcels) =
      (if endOf? connections parcel.1 = some id then parcel.2 else []) ++
        bytesAt connections id parcels :=
  List.flatMap_cons

theorem bytesAt_eq_nil
    {connections : List Connection} {id : EndId} {parcels : List (Nat × Bytes)}
    (helsewhere : ∀ parcel ∈ parcels, endOf? connections parcel.1 ≠ some id) :
    bytesAt connections id parcels = [] := by
  unfold bytesAt
  rw [List.flatMap_eq_nil_iff]
  intro parcel hmem
  rw [if_neg (helsewhere parcel hmem)]

theorem bytesAt_congr
    {connections others : List Connection} {id : EndId} {parcels : List (Nat × Bytes)}
    (hsame : ∀ parcel ∈ parcels, endOf? others parcel.1 = endOf? connections parcel.1) :
    bytesAt others id parcels = bytesAt connections id parcels := by
  unfold bytesAt
  apply List.flatMap_congr
  intro parcel hmem
  rw [hsame parcel hmem]

theorem link_lt_of_endOf?
    {network : Network} {connections : List Connection} (hlinks : LinksSound network connections)
    {number : Nat} {id : EndId} (hend : endOf? connections number = some id) :
    id.link < network.links.length := by
  obtain ⟨connection, hconnection, rfl⟩ := Option.map_eq_some_iff.mp hend
  exact hlinks.inLinks connection (List.mem_of_getElem? hconnection)

namespace Machine

/-! ## Ends of connections along a run -/

/-- A connection later in a run: at the same end, and perhaps closed since. -/
structure Ages (connection later : Connection) : Prop where
  endId : later.endId = connection.endId
  bufferSize : later.bufferSize = connection.bufferSize
  raised : later.signal.raised = false → connection.signal.raised = false

theorem Ages.refl (connection : Connection) : Ages connection connection := by
  constructor
  · rfl
  · rfl
  · exact fun hraised => hraised

theorem ages_released (connection : Connection) : Ages connection connection.released := by
  constructor
  · rfl
  · rfl
  · intro hraised
    cases hraised

/-- No transition moves a connection to another end, and none lowers its signal. -/
theorem Transition.connections
    {machine next : Machine} {record : Record}
    (htransition : machine.Transition record next)
    {number : Nat} {connection : Connection}
    (hconnection : machine.connections[number]? = some connection) :
    ∃ later, next.connections[number]? = some later ∧ Ages connection later := by
  have hlt := (List.getElem?_eq_some_iff.mp hconnection).1
  have hrebinds := htransition.rebinds
  generalize next.spaces = spaces at hrebinds
  generalize next.connections = connections at hrebinds ⊢
  cases hrebinds with
  | same => exact ⟨connection, hconnection, Ages.refl connection⟩
  | binds hbinds =>
      obtain ⟨added, hadded, -⟩ := hbinds.connections
      rw [hadded, List.getElem?_append_left hlt]
      exact ⟨connection, hconnection, Ages.refl connection⟩
  | @unbinds space handle resource hspace hbound =>
      cases resource with
      | file file => exact ⟨connection, hconnection, Ages.refl connection⟩
      | listener listener => exact ⟨connection, hconnection, Ages.refl connection⟩
      | connection released =>
          rw [connections_unbind_connection]
          by_cases hnumber : released = number
          · refine ⟨connection.released, ?_, ages_released connection⟩
            simp [hnumber, hconnection]
          · refine ⟨connection, ?_, Ages.refl connection⟩
            simp [hnumber, hconnection]

theorem Transition.length_connections
    {machine next : Machine} {record : Record}
    (htransition : machine.Transition record next) :
    machine.connections.length ≤ next.connections.length := by
  by_contra hshorter
  have hlast : next.connections.length < machine.connections.length := Nat.not_le.mp hshorter
  obtain ⟨later, hlater, -⟩ := htransition.connections (List.getElem?_eq_getElem hlast)
  have hlt := (List.getElem?_eq_some_iff.mp hlater).1
  exact lt_irrefl _ hlt

theorem Transition.endOf?_eq
    {machine next : Machine} {record : Record}
    (htransition : machine.Transition record next)
    {number : Nat} (hnumber : number < machine.connections.length) :
    endOf? next.connections number = endOf? machine.connections number := by
  have hconnection := List.getElem?_eq_getElem hnumber
  obtain ⟨later, hlater, hages⟩ := htransition.connections hconnection
  rw [(endOf?_eq_some_iff hlater).mpr rfl, (endOf?_eq_some_iff hconnection).mpr rfl,
    hages.endId]

theorem eq_of_endOf?
    {machine : Machine} (hsound : machine.Sound) {number other : Nat} {id : EndId}
    (hnumber : endOf? machine.connections number = some id)
    (hother : endOf? machine.connections other = some id) :
    number = other := by
  unfold endOf? at hnumber hother
  rw [← List.getElem?_map] at hnumber hother
  have hlt := (List.getElem?_eq_some_iff.mp hnumber).1
  exact (List.getElem?_inj hlt hsound.links.distinct).mp (hnumber.trans hother.symm)

/-! ## The ledger of an end -/

/-- What was written at an end, received and under way at the other end, and still
waits to be sent. -/
def ledger (machine : Machine) (log : List Record) (id : EndId) : Ledger where
  written := bytesAt machine.connections id (log.filterMap Record.written?)
  received := bytesAt machine.connections id.peer (log.filterMap Record.received?)
  underWay := (machine.network.getEnd id.peer).inbox
  waiting := bytesAt machine.connections id (machine.pending.filterMap Pending.load?)

/-- The other end is open, and the connection at an end, if there is one, is not
closed: nothing was lost between them. -/
def Flows (machine : Machine) (id : EndId) : Prop :=
  (machine.network.getEnd id.peer).isOpen = true ∧
    ∀ connection ∈ machine.connections,
      connection.endId = id → connection.signal.raised = false

/-- There is a connection at an end that is not closed. -/
def HasSender (machine : Machine) (id : EndId) : Prop :=
  ∃ connection ∈ machine.connections,
    connection.endId = id ∧ connection.signal.raised = false

/-- No write at an end was given up. -/
def Uninterrupted (machine : Machine) (log : List Record) (id : EndId) : Prop :=
  ∀ number ∈ log.filterMap Record.lostSend?, endOf? machine.connections number ≠ some id

/-- An action that sends at an end is carried out. -/
def Record.SendsAt (machine : Machine) (id : EndId) (record : Record) : Prop :=
  ∃ pending reply handle number data,
    record = .advanced pending reply ∧ pending.action = .send handle number data ∧
      endOf? machine.connections number = some id

/-- An action that receives at an end is carried out. -/
def Record.ReceivesAt (machine : Machine) (id : EndId) (record : Record) : Prop :=
  ∃ pending reply handle number,
    record = .advanced pending reply ∧ pending.action = .receive handle number ∧
      endOf? machine.connections number = some id

/-- All parcels in a log belong to connections that exist. -/
structure ParcelsInRange (machine : Machine) (log : List Record) : Prop where
  written :
    ∀ parcel ∈ log.filterMap Record.written?, parcel.1 < machine.connections.length
  received :
    ∀ parcel ∈ log.filterMap Record.received?, parcel.1 < machine.connections.length

end Machine

end ResourceHandles
