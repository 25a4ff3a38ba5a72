import ResourceHandles.Proofs.Machine.Shut
import ResourceHandles.Proofs.Session.Beside

/-!
# Two parties on one handle space

Two parties use a handle space, each with one call at a time and with one connection of its
own.  A party is out, or it sits on a connection that is bound to its handle, or it parts
with a connection whose handle was taken.  What one of them does leaves the other one where
it is.
-/

namespace ResourceHandles

/-- How a party stands to its connection. -/
inductive Standing where
  | out
  | seated
  | parting
  deriving Repr, DecidableEq

/-- A party: how it stands, the handle and the number of its connection, the end that this
uses, and the call that the party waits for. -/
structure Seat where
  standing : Standing
  handle : Handle
  number : Nat
  id : EndId
  call : Option Pending
  deriving Repr, DecidableEq

namespace Machine

variable {base machine next : Machine} {space : Nat} {own other : Seat} {pending : Pending}
variable {action : Action} {network : Network}

/-- A party has what it stands for. -/
structure Seats (base machine : Machine) (space : Nat) (seat : Seat) : Prop where
  bound :
    seat.standing = .seated →
      machine.lookup space seat.handle = some (.connection seat.number)
  newer : seat.standing = .seated → (base.space space).table.next ≤ seat.handle.raw
  seated :
    seat.standing = .seated →
      machine.connections[seat.number]? =
        some { endId := seat.id, bufferSize := (base.space space).configuration.bufferSize }
  parting :
    seat.standing = .parting →
      machine.connections[seat.number]? =
        some
          (Connection.released
            { endId := seat.id, bufferSize := (base.space space).configuration.bufferSize })
  uses :
    ∀ pending number, seat.call = some pending →
      pending.action.resource? = some (.connection number) →
        number = seat.number ∧ seat.standing ≠ .out

/-- Two parties have a handle space for themselves.  Nothing waits but for their calls, and
all handles but theirs are as they were on a machine before. -/
structure Company (base machine : Machine) (space : Nat) (own other : Seat) : Prop where
  before : (base.space space).table.WellFormed
  usable : machine.Usable space
  elsewhere : ∀ owner, owner ≠ space → machine.space owner = base.space owner
  configuration : (machine.space space).configuration = (base.space space).configuration
  listeners : machine.listeners = base.listeners
  next_le : (base.space space).table.next ≤ (machine.space space).table.next
  kept :
    ∀ handle, (own.standing = .seated → own.handle ≠ handle) →
      (other.standing = .seated → other.handle ≠ handle) →
        machine.lookup space handle = base.lookup space handle
  ownSeat : Seats base machine space own
  otherSeat : Seats base machine space other
  pending :
    ∀ pending,
      pending ∈ machine.pending ↔ own.call = some pending ∨ other.call = some pending
  distinct :
    ∀ pending waiting, own.call = some pending → other.call = some waiting →
      pending.ticket ≠ waiting.ticket
  sides : own.id.side ≠ other.id.side

/-- A party keeps what it stands for if its handle and its connection stay as they are. -/
theorem Seats.frame
    {seat : Seat} (hseats : Seats base machine space seat)
    (hlookup :
      seat.standing = .seated →
        next.lookup space seat.handle = machine.lookup space seat.handle)
    (hconnection :
      seat.standing ≠ .out → next.connections[seat.number]? = machine.connections[seat.number]?) :
    Seats base next space seat where
  bound hseated := (hlookup hseated).trans (hseats.bound hseated)
  newer := hseats.newer
  seated hseated := (hconnection (by simp [hseated])).trans (hseats.seated hseated)
  parting hparting := (hconnection (by simp [hparting])).trans (hseats.parting hparting)
  uses := hseats.uses

theorem Seats.lt_length
    {seat : Seat} (hseats : Seats base machine space seat) (hstanding : seat.standing ≠ .out) :
    seat.number < machine.connections.length := by
  cases hcase : seat.standing with
  | out => exact absurd hcase hstanding
  | seated => exact (List.getElem?_eq_some_iff.mp (hseats.seated hcase)).1
  | parting => exact (List.getElem?_eq_some_iff.mp (hseats.parting hcase)).1

/-- A party keeps its seat when a handle from before is taken. -/
theorem Seats.unbind_listener
    {seat : Seat} {handle : Handle} {number : Nat} (hseats : Seats base machine space seat)
    (hbase : space < base.spaces.length) (hmachine : space < machine.spaces.length)
    (hold : handle.raw < (base.space space).table.next) :
    Seats (base.unbind space handle (.listener number))
      (machine.unbind space handle (.listener number)) space seat := by
  have hframe :
      Seats base (machine.unbind space handle (.listener number)) space seat := by
    apply hseats.frame
    · intro hseated
      apply machine.lookup_unbind_of_ne _ hmachine
      rintro rfl
      exact absurd (hseats.newer hseated) (by omega)
    · exact fun _ => rfl
  refine ⟨hframe.bound, ?_, ?_, ?_, hframe.uses⟩
  · rw [space_unbind_self _ _ _ hbase, HandleTable.remove_next]
    exact hframe.newer
  · rw [space_unbind_self _ _ _ hbase]
    exact hframe.seated
  · rw [space_unbind_self _ _ _ hbase]
    exact hframe.parting

namespace Company

theorem symm (hcompany : Company base machine space own other) :
    Company base machine space other own where
  before := hcompany.before
  usable := hcompany.usable
  elsewhere := hcompany.elsewhere
  configuration := hcompany.configuration
  listeners := hcompany.listeners
  next_le := hcompany.next_le
  kept handle hown hother := hcompany.kept handle hother hown
  ownSeat := hcompany.otherSeat
  otherSeat := hcompany.ownSeat
  pending pending := (hcompany.pending pending).trans or_comm
  distinct pending waiting hown hother := (hcompany.distinct waiting pending hother hown).symm
  sides := hcompany.sides.symm

/-- What the network does is of no concern. -/
theorem withNetwork (hcompany : Company base machine space own other) (network : Network) :
    Company base { machine with network := network } space own other :=
  ⟨hcompany.before, ⟨hcompany.usable.inRange, hcompany.usable.table, hcompany.usable.tickets⟩,
    hcompany.elsewhere, hcompany.configuration, hcompany.listeners, hcompany.next_le,
    hcompany.kept, hcompany.ownSeat.frame (fun _ => rfl) (fun _ => rfl),
    hcompany.otherSeat.frame (fun _ => rfl) (fun _ => rfl), hcompany.pending,
    hcompany.distinct, hcompany.sides⟩

/-- A handle that was handed out before stands for what it stood for. -/
theorem lookup_old
    (hcompany : Company base machine space own other) {handle : Handle}
    (hold : handle.raw < (base.space space).table.next) :
    machine.lookup space handle = base.lookup space handle := by
  apply hcompany.kept
  · rintro hseated rfl
    exact absurd (hcompany.ownSeat.newer hseated) (by omega)
  · rintro hseated rfl
    exact absurd (hcompany.otherSeat.newer hseated) (by omega)

/-! ## What waits -/

theorem pending?_eq
    (hcompany : Company base machine space own other) (hcall : own.call = some pending) :
    machine.pending? pending.ticket = some pending := by
  have hmem : pending ∈ machine.pending := (hcompany.pending pending).mpr (Or.inl hcall)
  cases hfound : machine.pending? pending.ticket with
  | none =>
      have hother := List.find?_eq_none.mp hfound pending hmem
      simp at hother
  | some waiting =>
      have hticket := pending?_ticket hfound
      rcases (hcompany.pending waiting).mp (mem_of_pending? hfound) with hown | hother
      · rw [← hown, hcall]
      · exact absurd hticket.symm (hcompany.distinct pending waiting hcall hother)

/-- The connections of the two parties differ. -/
theorem number_ne
    (hcompany : Company base machine space own other) (hown : own.standing ≠ .out)
    (hother : other.standing ≠ .out) : own.number ≠ other.number := by
  have hends :
      ∀ {seat : Seat}, Seats base machine space seat → seat.standing ≠ .out →
        ∃ connection, machine.connections[seat.number]? = some connection ∧
          connection.endId = seat.id := by
    intro seat hseats hstanding
    cases hcase : seat.standing with
    | out => exact absurd hcase hstanding
    | seated => exact ⟨_, hseats.seated hcase, rfl⟩
    | parting => exact ⟨_, hseats.parting hcase, rfl⟩
  obtain ⟨connection, hconnection, hid⟩ := hends hcompany.ownSeat hown
  obtain ⟨another, hanother, hanotherId⟩ := hends hcompany.otherSeat hother
  intro hsame
  rw [hsame, hanother] at hconnection
  cases hconnection
  exact hcompany.sides (by rw [← hid, ← hanotherId])

theorem handle_ne
    (hcompany : Company base machine space own other) (hown : own.standing = .seated)
    (hother : other.standing = .seated) : own.handle ≠ other.handle := by
  intro hsame
  have hbound := hcompany.ownSeat.bound hown
  rw [hsame, hcompany.otherSeat.bound hother] at hbound
  injection hbound with hbound
  injection hbound with hbound
  exact hcompany.number_ne (by simp [hown]) (by simp [hother]) hbound.symm

/-- Nobody is in the way of a party's call. -/
theorem inTurn_eq
    (hcompany : Company base machine space own other) (hcall : own.call = some pending) :
    machine.inTurn pending = true := by
  unfold inTurn
  split
  · rfl
  · next lane hlane =>
      split
      · rfl
      · next first hfirst =>
          have hfirstLane : first.action.lane? = some lane := by
            simpa using List.find?_some hfirst
          rcases (hcompany.pending first).mp (List.mem_of_find?_eq_some hfirst) with hown | hother
          · rw [hcall] at hown
            cases hown
            simp
          · obtain ⟨hnumber, hout⟩ :=
              hcompany.ownSeat.uses pending _ hcall (resource?_of_lane? hlane)
            obtain ⟨hotherNumber, hotherOut⟩ :=
              hcompany.otherSeat.uses first _ hother (resource?_of_lane? hfirstLane)
            exact absurd (hnumber.symm.trans hotherNumber) (hcompany.number_ne hout hotherOut)

/-- Nobody but a party itself uses its connection. -/
theorem isUsed_eq
    (hcompany : Company base machine space own other) (hcall : own.call = none)
    (hstanding : own.standing ≠ .out) :
    machine.isUsed (.connection own.number) = false := by
  rw [Bool.eq_false_iff]
  intro hused
  obtain ⟨waiting, hmem, hresource⟩ := (machine.isUsed_iff _).mp hused
  rcases (hcompany.pending waiting).mp hmem with hown | hother
  · rw [hcall] at hown
    cases hown
  · obtain ⟨hnumber, hout⟩ := hcompany.otherSeat.uses waiting _ hother hresource
    exact hcompany.number_ne hstanding hout hnumber

/-! ## What a party does -/

/-- A party leaves an action to be done. -/
theorem park
    (hcompany : Company base machine space own other) (hcall : own.call = none)
    (huses :
      ∀ number, action.resource? = some (.connection number) →
        number = own.number ∧ own.standing ≠ .out) :
    Company base (machine.park space action).1 space
      { own with call := some ⟨machine.nextTicket, space, action⟩ } other where
  before := hcompany.before
  usable := by
    refine ⟨hcompany.usable.inRange, hcompany.usable.table, ?_⟩
    intro pending hmem
    show pending.ticket < machine.nextTicket + 1
    rcases List.mem_append.mp hmem with hold | hnew
    · exact (hcompany.usable.tickets pending hold).trans (Nat.lt_succ_self _)
    · rw [List.mem_singleton.mp hnew]
      exact Nat.lt_succ_self _
  elsewhere := hcompany.elsewhere
  configuration := hcompany.configuration
  listeners := hcompany.listeners
  next_le := hcompany.next_le
  kept := hcompany.kept
  ownSeat := by
    have hsame : Seats base (machine.park space action).1 space own :=
      hcompany.ownSeat.frame (fun _ => rfl) (fun _ => rfl)
    refine ⟨hsame.bound, hsame.newer, hsame.seated, hsame.parting, ?_⟩
    intro pending number hpending
    cases hpending
    exact huses number
  otherSeat := hcompany.otherSeat.frame (fun _ => rfl) (fun _ => rfl)
  pending waiting := by
    show waiting ∈ machine.pending ++ [_] ↔ _
    rw [List.mem_append, List.mem_singleton, hcompany.pending waiting, hcall]
    simp only [reduceCtorEq, false_or, Option.some.injEq]
    rw [or_comm, @eq_comm _ waiting]
  distinct pending waiting hpending hwaiting := by
    cases hpending
    have hold := hcompany.usable.tickets waiting ((hcompany.pending waiting).mpr (Or.inr hwaiting))
    exact (Nat.ne_of_lt hold).symm
  sides := hcompany.sides

/-- The call of a party is over. -/
theorem answered
    (hcompany : Company base machine space own other) (hcall : own.call = some pending) :
    Company base
      { machine with
        pending := machine.pending.filter fun waiting => waiting.ticket != pending.ticket }
      space { own with call := none } other where
  before := hcompany.before
  usable :=
    ⟨hcompany.usable.inRange, hcompany.usable.table,
      fun waiting hmem => hcompany.usable.tickets waiting (List.mem_of_mem_filter hmem)⟩
  elsewhere := hcompany.elsewhere
  configuration := hcompany.configuration
  listeners := hcompany.listeners
  next_le := hcompany.next_le
  kept := hcompany.kept
  ownSeat := by
    have hseats := hcompany.ownSeat
    exact ⟨hseats.bound, hseats.newer, hseats.seated, hseats.parting, fun _ _ hpending => by
      cases hpending⟩
  otherSeat := hcompany.otherSeat.frame (fun _ => rfl) (fun _ => rfl)
  pending waiting := by
    show waiting ∈ machine.pending.filter _ ↔ _
    rw [List.mem_filter, hcompany.pending waiting, hcall]
    simp only [reduceCtorEq, false_or, Option.some.injEq, bne_iff_ne, ne_eq]
    constructor
    · rintro ⟨rfl | hother, hne⟩
      · exact absurd rfl hne
      · exact hother
    · intro hother
      exact ⟨Or.inr hother, (hcompany.distinct pending waiting hcall hother).symm⟩
  distinct _ _ hpending := by cases hpending
  sides := hcompany.sides

theorem table_of_setTable
    {table : HandleTable Nat Nat Nat} (hcompany : Company base machine space own other)
    (hspaces : next.spaces = (machine.setTable space table).spaces) :
    next.space space = { machine.space space with table := table } := by
  rw [space_congr hspaces, space_setTable_self _ _ hcompany.usable.inRange]

/-- A party binds or unbinds a handle of its own. -/
theorem rebind
    {table : HandleTable Nat Nat Nat} {seat : Seat}
    (hcompany : Company base machine space own other)
    (hspaces : next.spaces = (machine.setTable space table).spaces)
    (hlisteners : next.listeners = machine.listeners) (hpending : next.pending = machine.pending)
    (hticket : next.nextTicket = machine.nextTicket) (htable : table.WellFormed)
    (hnext : (machine.space space).table.next ≤ table.next)
    (hkept :
      ∀ handle, (seat.standing = .seated → seat.handle ≠ handle) →
        (other.standing = .seated → other.handle ≠ handle) →
          table.get? handle = base.lookup space handle)
    (hseat : Seats base next space seat) (hother : Seats base next space other)
    (hcall : seat.call = own.call) (hside : seat.id.side = own.id.side) :
    Company base next space seat other := by
  have hspace := hcompany.table_of_setTable hspaces
  constructor
  · exact hcompany.before
  · refine ⟨?_, ?_, ?_⟩
    · rw [hspaces, length_spaces_setTable]
      exact hcompany.usable.inRange
    · rw [hspace]
      exact htable
    · intro pending hmem
      rw [hpending] at hmem
      rw [hticket]
      exact hcompany.usable.tickets pending hmem
  · intro owner hne
    rw [space_congr hspaces, space_setTable_of_ne _ _ hne]
    exact hcompany.elsewhere owner hne
  · rw [hspace]
    exact hcompany.configuration
  · exact hlisteners.trans hcompany.listeners
  · rw [hspace]
    exact hcompany.next_le.trans hnext
  · intro handle hown hotherHandle
    unfold lookup
    rw [hspace]
    exact hkept handle hown hotherHandle
  · exact hseat
  · exact hother
  · rw [hpending, hcall]
    exact hcompany.pending
  · rw [hcall]
    exact hcompany.distinct
  · rw [hside]
    exact hcompany.sides

/-- A party that is out has a new connection. -/
theorem enter
    {id : EndId} (hcompany : Company base machine space own other)
    (hout : own.standing = .out) (hside : id.side = own.id.side) :
    Company base (machine.addConnection space id).1 space
      { own with
        standing := .seated
        handle := ⟨(machine.space space).table.next⟩
        number := machine.connections.length
        id := id } other := by
  have hgood := hcompany.usable.table
  generalize hnext : (machine.addConnection space id).1 = next
  have hspaces :
      next.spaces =
        (machine.setTable space
          ((machine.space space).table.insert
            (.connection machine.connections.length)).1).spaces := by
    rw [← hnext]
    rfl
  have hconnections :
      next.connections =
        machine.connections ++
          [{ endId := id, bufferSize := (base.space space).configuration.bufferSize }] := by
    rw [← hnext, ← hcompany.configuration]
    rfl
  have hlookup :
      ∀ handle,
        next.lookup space handle =
          ((machine.space space).table.insert
            (.connection machine.connections.length)).1.get? handle := by
    intro handle
    unfold lookup
    rw [hcompany.table_of_setTable hspaces]
  have hother :
      other.standing = .seated → other.handle ≠ ⟨(machine.space space).table.next⟩ := by
    intro hseated hsame
    have hbound := hcompany.otherSeat.bound hseated
    rw [hsame] at hbound
    exact absurd ((HandleTable.get?_isSome_iff _ _).mp (Option.isSome_of_mem hbound))
      hgood.next_notMem
  apply hcompany.rebind hspaces (by rw [← hnext]; rfl) (by rw [← hnext]; rfl)
    (by rw [← hnext]; rfl) (hgood.insert _) (by rw [HandleTable.insert_next]; omega)
  · intro handle hown hotherHandle
    rw [HandleTable.get?_insert_of_ne _ _ (hown rfl).symm]
    apply hcompany.kept handle ?_ hotherHandle
    intro hseated
    rw [hout] at hseated
    cases hseated
  · refine ⟨fun _ => ?_, fun _ => hcompany.next_le, fun _ => ?_, nofun, ?_⟩
    · rw [hlookup]
      exact hgood.get?_insert_self _
    · rw [hconnections]
      exact List.getElem?_concat_length
    · intro pending number hcall hresource
      exact absurd hout (hcompany.ownSeat.uses pending number hcall hresource).2
  · apply hcompany.otherSeat.frame
    · intro hseated
      rw [hlookup]
      exact HandleTable.get?_insert_of_ne _ _ (hother hseated)
    · intro hstanding
      rw [hconnections]
      exact List.getElem?_append_left (hcompany.otherSeat.lt_length hstanding)
  · rfl
  · exact hside

/-- The handle of a party is taken. -/
theorem part
    (hcompany : Company base machine space own other) (hseated : own.standing = .seated) :
    Company base (machine.unbind space own.handle (.connection own.number)) space
      { own with standing := .parting } other := by
  have hgood := hcompany.usable.table
  generalize hnext : machine.unbind space own.handle (.connection own.number) = next
  have hframe := machine.unbind_frame space own.handle (.connection own.number)
  rw [hnext] at hframe
  obtain ⟨-, hpending, hticket⟩ := hframe
  have hspaces :
      next.spaces =
        (machine.setTable space ((machine.space space).table.remove own.handle).1).spaces := by
    rw [← hnext, spaces_unbind]
  have hconnections :
      next.connections = machine.connections.modify own.number Connection.released := by
    rw [← hnext]
    exact connections_unbind_connection machine space own.handle own.number
  apply hcompany.rebind hspaces (by rw [← hnext]; rfl) hpending hticket (hgood.remove _)
    (by rw [HandleTable.remove_next])
  · intro handle _ hother
    by_cases hsame : handle = own.handle
    · subst hsame
      rw [hgood.get?_remove_self]
      symm
      apply (HandleTable.get?_eq_none_iff _ _).mpr
      intro hkey
      exact absurd (hcompany.before.lt_next _ hkey) (not_lt.mpr (hcompany.ownSeat.newer hseated))
    · rw [HandleTable.get?_remove_of_ne _ hsame]
      exact hcompany.kept handle (fun _ heq => hsame heq.symm) hother
  · refine ⟨nofun, nofun, nofun, fun _ => ?_, ?_⟩
    · rw [hconnections, List.getElem?_modify, hcompany.ownSeat.seated hseated]
      simp
    · intro pending number hcall hresource
      exact ⟨(hcompany.ownSeat.uses pending number hcall hresource).1, by simp⟩
  · apply hcompany.otherSeat.frame
    · intro hother
      unfold lookup
      rw [hcompany.table_of_setTable hspaces]
      exact HandleTable.get?_remove_of_ne _ (hcompany.handle_ne hseated hother).symm
    · intro hstanding
      rw [hconnections, List.getElem?_modify]
      simp [hcompany.number_ne (by simp [hseated]) hstanding]
  · rfl
  · rfl

/-- A party without a handle and without a call leaves its connection behind. -/
theorem vacate
    (hcompany : Company base machine space own other) (hparting : own.standing = .parting)
    (hcall : own.call = none) :
    Company base machine space { own with standing := .out } other where
  before := hcompany.before
  usable := hcompany.usable
  elsewhere := hcompany.elsewhere
  configuration := hcompany.configuration
  listeners := hcompany.listeners
  next_le := hcompany.next_le
  kept handle _ hother := hcompany.kept handle (fun hseated => by simp [hparting] at hseated) hother
  ownSeat := ⟨nofun, nofun, nofun, nofun, fun _ _ hpending => by simp [hcall] at hpending⟩
  otherSeat := hcompany.otherSeat
  pending := hcompany.pending
  distinct := hcompany.distinct
  sides := hcompany.sides

/-! ## A handle that both know -/

/-- A handle from before is taken, on the machine before as well. -/
theorem unbind_listener
    {handle : Handle} {number : Nat} (hcompany : Company base machine space own other)
    (hbound : base.lookup space handle = some (.listener number)) :
    Company (base.unbind space handle (.listener number))
      (machine.unbind space handle (.listener number)) space own other := by
  have hinRange := lt_length_of_lookup hbound
  have husable := hcompany.usable.inRange
  have hold : handle.raw < (base.space space).table.next :=
    hcompany.before.lt_next _ ((HandleTable.get?_isSome_iff _ _).mp (Option.isSome_of_mem hbound))
  have hbaseSpace := base.space_unbind_self handle (.listener number) hinRange
  have hmachineSpace := machine.space_unbind_self handle (.listener number) husable
  obtain ⟨-, hpending, hticket⟩ := machine.unbind_frame space handle (.listener number)
  constructor
  · rw [hbaseSpace]
    exact hcompany.before.remove _
  · refine ⟨?_, ?_, ?_⟩
    · rw [spaces_unbind, length_spaces_setTable]
      exact hcompany.usable.inRange
    · rw [hmachineSpace]
      exact hcompany.usable.table.remove _
    · intro pending hmem
      rw [hpending] at hmem
      rw [hticket]
      exact hcompany.usable.tickets pending hmem
  · intro owner hne
    rw [space_unbind_of_ne _ _ _ hne, space_unbind_of_ne _ _ _ hne]
    exact hcompany.elsewhere owner hne
  · rw [hbaseSpace, hmachineSpace]
    exact hcompany.configuration
  · rw [listeners_unbind_listener, listeners_unbind_listener, hcompany.listeners]
  · rw [hbaseSpace, hmachineSpace, HandleTable.remove_next, HandleTable.remove_next]
    exact hcompany.next_le
  · intro asked hown hother
    by_cases hsame : asked = handle
    · subst hsame
      unfold lookup
      rw [hbaseSpace, hmachineSpace, hcompany.before.get?_remove_self,
        hcompany.usable.table.get?_remove_self]
    · rw [lookup_unbind_of_ne _ _ husable hsame, lookup_unbind_of_ne _ _ hinRange hsame]
      exact hcompany.kept asked hown hother
  · exact hcompany.ownSeat.unbind_listener hinRange husable hold
  · exact hcompany.otherSeat.unbind_listener hinRange husable hold
  · rw [hpending]
    exact hcompany.pending
  · exact hcompany.distinct
  · exact hcompany.sides

end Company

end Machine

end ResourceHandles
