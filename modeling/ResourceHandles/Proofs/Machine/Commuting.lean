import ResourceHandles.Proofs.Machine.Completing
import ResourceHandles.Proofs.Machine.Sound

/-!
# Calls that commute

Two calls on resources that have nothing in common do not meet anywhere but in the books: each
may take its own handle out of a table, and each may take a ticket.  Taking two different
handles out of tables can be done in any order, and so can taking tickets.  So if two such calls
come to their ends without waiting, they do so in either order, with the same answers, and they
leave the same machine.
-/

namespace ResourceHandles

/-! ## Taking handles out of tables -/

theorem Store.erase_comm
    {κ ν : Type} [DecidableEq κ] (store : Store κ ν) (key other : κ) :
    (store.erase key).erase other = (store.erase other).erase key := by
  unfold erase
  rw [List.filter_comm]

theorem Store.erase_unless_comm
    {κ ν : Type} [DecidableEq κ] (store : Store κ ν) (key other : κ) (kept otherKept : Bool) :
    (if otherKept then (if kept then store else store.erase key)
      else (if kept then store else store.erase key).erase other) =
      if kept then (if otherKept then store else store.erase other)
        else (if otherKept then store else store.erase other).erase key := by
  cases kept with
  | true => cases otherKept <;> rfl
  | false =>
      cases otherKept with
      | true => rfl
      | false => exact store.erase_comm key other

theorem Store.contains_erase_of_ne
    {κ ν : Type} [DecidableEq κ] (store : Store κ ν) {key other : κ} (hne : other ≠ key) :
    (store.erase key).contains other = store.contains other := by
  unfold contains
  rw [find?_erase_of_ne _ hne]

theorem Store.erase_of_find?_none
    {κ ν : Type} [DecidableEq κ] {store : Store κ ν} {key : κ}
    (hnone : store.find? key = none) :
    store.erase key = store := by
  rw [find?_eq_none_iff] at hnone
  unfold erase
  congr 1
  rw [List.filter_eq_self]
  intro pair hpair
  have hne : pair.1 ≠ key := fun heq => hnone (heq ▸ List.mem_map_of_mem hpair)
  simpa using hne

namespace HandleTable

variable {F L C : Type}

/-- Unbinding a handle erases it from the first store that binds it, and from the stores
before, where it is not bound. -/
theorem remove_eq (table : HandleTable F L C) (handle : Handle) :
    (table.remove handle).1 =
      { table with
        files := table.files.erase handle
        listeners :=
          if table.files.contains handle then table.listeners else table.listeners.erase handle
        connections :=
          if table.files.contains handle || table.listeners.contains handle then table.connections
          else table.connections.erase handle } := by
  unfold remove Store.contains
  cases hfile : table.files.find? handle with
  | some entry => rfl
  | none =>
      rw [Store.erase_of_find?_none hfile]
      cases hlistener : table.listeners.find? handle with
      | some entry => rfl
      | none =>
          rw [Store.erase_of_find?_none hlistener]
          cases hconnection : table.connections.find? handle with
          | some entry => rfl
          | none =>
              rw [Store.erase_of_find?_none hconnection]
              rfl

theorem remove_comm
    (table : HandleTable F L C) {handle other : Handle} (hne : handle ≠ other) :
    ((table.remove handle).1.remove other).1 = ((table.remove other).1.remove handle).1 := by
  have hlistener : ∀ key bound : Handle, key ≠ bound →
      (if table.files.contains bound then table.listeners
        else table.listeners.erase bound).contains key = table.listeners.contains key := by
    intro key bound hkey
    split
    · rfl
    · exact Store.contains_erase_of_ne _ hkey
  simp only [remove_eq, Store.contains_erase_of_ne _ hne, Store.contains_erase_of_ne _ hne.symm,
    hlistener _ _ hne, hlistener _ _ hne.symm, Store.erase_comm table.files handle other]
  congr 1
  · exact Store.erase_unless_comm _ _ _ _ _
  · exact Store.erase_unless_comm _ _ _ _ _

end HandleTable

theorem HandleSpace.without_comm
    {handle other : Handle} (hne : handle ≠ other) (space : HandleSpace) :
    (space.without handle).without other = (space.without other).without handle := by
  unfold without
  dsimp only
  rw [HandleTable.remove_comm _ hne]

namespace Course

variable {space other : Nat} {handle otherHandle : Handle}

/-- Two calls on different handles leave the same handle spaces in either order. -/
theorem spaces_comm
    (hdifferent : space ≠ other ∨ handle ≠ otherHandle) (first second : Course)
    (spaces : List HandleSpace) :
    second.spaces other otherHandle (first.spaces space handle spaces) =
      first.spaces space handle (second.spaces other otherHandle spaces) := by
  unfold Course.spaces
  split
  · split
    · by_cases hspace : space = other
      · subst hspace
        have hhandle : handle ≠ otherHandle := hdifferent.resolve_left fun hne => hne rfl
        rw [List.modify_modify_eq, List.modify_modify_eq]
        congr 1
        funext owner
        exact owner.without_comm hhandle
      · rw [List.modify_modify_ne _ _ _ hspace]
    · rfl
  · rfl

/-- A call leaves alone what other handles stand for, and all configurations. -/
theorem keeps_space
    {course : Course} {machine next : Machine}
    (hspaces : next.spaces = course.spaces space handle machine.spaces)
    (hdifferent : space ≠ other ∨ handle ≠ otherHandle) :
    next.lookup other otherHandle = machine.lookup other otherHandle ∧
      (next.space other).configuration = (machine.space other).configuration := by
  unfold Course.spaces at hspaces
  unfold Machine.lookup Machine.space
  rw [hspaces]
  split
  · rw [List.getD_eq_getElem?_getD, List.getD_eq_getElem?_getD]
    by_cases hspace : space = other
    · subst hspace
      have hhandle : handle ≠ otherHandle := hdifferent.resolve_left fun hne => hne rfl
      rw [List.getElem?_modify_eq]
      cases machine.spaces[space]? with
      | none => exact ⟨rfl, rfl⟩
      | some owner => exact ⟨HandleTable.get?_remove_of_ne _ hhandle.symm, rfl⟩
    · rw [List.getElem?_modify_ne _ _ hspace]
      exact ⟨rfl, rfl⟩
  · exact ⟨rfl, rfl⟩

end Course

namespace Machine

/-! ## A call after another one -/

section After

variable {machine ended first second : Machine} {footprint otherPrint : Footprint}
variable {space other : Nat} {handle otherHandle : Handle} {call otherCall : Call}
variable {amounts otherAmounts : List Nat} {reply otherReply : Reply}

/-- What a call comes to, told by what it does with its resource. -/
theorem followed_of_complete?
    (hquiet : machine.pending = []) (hcarries : machine.Carries footprint) (hcall : call.On handle)
    (hlookup : machine.lookup space handle = some footprint.resource)
    (hcomplete : machine.complete? space call amounts = some (first, reply)) :
    ∃ ended,
      (machine.course space call footprint.resource).follow? machine space footprint.resource
          amounts = some (ended, reply) ∧
        first = (machine.graft ended footprint).withBooks
          ((machine.course space call footprint.resource).spaces space handle machine.spaces) []
          (machine.nextTicket + (machine.course space call footprint.resource).tickets) := by
  -- The call changes what belongs to its resource at most: that shows if this is taken over into
  -- the machine itself.
  have hkept := @follow?_graft machine machine footprint call space handle (.refl machine) hcarries
    hquiet hquiet hcall (machine.space space).configuration.mode amounts
  rw [graft_self] at hkept
  rw [complete?_eq hquiet hcarries hcall hlookup, Option.map_eq_some_iff] at hcomplete
  obtain ⟨⟨ended, answer⟩, hfollow, heq⟩ := hcomplete
  cases heq
  have hended : ended = machine.graft ended footprint := by
    unfold course at hfollow
    rw [hfollow] at hkept
    exact congrArg Prod.fst (Option.some.inj hkept)
  refine ⟨ended, hfollow, ?_⟩
  rw [← hended]

/-- A call leaves nothing waiting, and leaves alone what other handles stand for. -/
theorem kept_of_complete?
    (hquiet : machine.pending = []) (hcarries : machine.Carries footprint) (hcall : call.On handle)
    (hlookup : machine.lookup space handle = some footprint.resource)
    (hcomplete : machine.complete? space call amounts = some (first, reply))
    (hdifferent : space ≠ other ∨ handle ≠ otherHandle) :
    first.pending = [] ∧ first.network.capacity = machine.network.capacity ∧
      first.lookup other otherHandle = machine.lookup other otherHandle := by
  obtain ⟨ended, -, hfirst⟩ := followed_of_complete? hquiet hcarries hcall hlookup hcomplete
  refine ⟨congrArg Machine.pending hfirst, ?_, ?_⟩
  · rw [hfirst]
    exact (sameSize_graft machine ended footprint).capacity
  · exact (Course.keeps_space (congrArg Machine.spaces hfirst) hdifferent).1

/-- A call comes to its end as before if what belongs to another resource has changed, and what
was kept in the books of other handles. -/
theorem complete?_after
    {otherEnded : Machine} {spaces : List HandleSpace} {ticket : Nat}
    (hquiet : machine.pending = []) (hcarries : machine.Carries otherPrint)
    (hapart : footprint.Apart otherPrint) (hcall : otherCall.On otherHandle)
    (hfirst : first = (machine.graft ended footprint).withBooks spaces [] ticket)
    (hlookup : first.lookup other otherHandle = some otherPrint.resource)
    (hcourse :
      first.course other otherCall otherPrint.resource =
        machine.course other otherCall otherPrint.resource)
    (hfollow :
      (machine.course other otherCall otherPrint.resource).follow? machine other
        otherPrint.resource otherAmounts = some (otherEnded, otherReply)) :
    first.complete? other otherCall otherAmounts =
      some (((machine.graft ended footprint).graft otherEnded otherPrint).withBooks
          ((machine.course other otherCall otherPrint.resource).spaces other otherHandle spaces) []
          (ticket + (machine.course other otherCall otherPrint.resource).tickets),
        otherReply) := by
  have hsize : first.SameSize machine := by
    have hgrafted := (sameSize_graft machine ended footprint).symm
    rw [hfirst]
    exact ⟨hgrafted.files, hgrafted.contents, hgrafted.connections, hgrafted.links,
      hgrafted.capacity⟩
  have hstill : first.pending = [] := congrArg Machine.pending hfirst
  have hspaces : first.spaces = spaces := congrArg Machine.spaces hfirst
  have hticket : first.nextTicket = ticket := congrArg Machine.nextTicket hfirst
  have hgraft : ∀ donor, first.graft donor otherPrint =
      ((machine.graft ended footprint).graft donor otherPrint).withBooks spaces [] ticket := by
    intro donor
    rw [hfirst, graft_withBooks]
  have hsame : first.graft machine otherPrint = first := by
    rw [hgraft, graft_comm hapart, graft_self, ← hfirst]
  have hthere : first.Carries otherPrint := by
    rw [← hsame]
    exact hcarries.graft hsize
  have hgoes := @follow?_graft first machine otherPrint otherCall other otherHandle hsize hcarries
    hstill hquiet hcall (machine.space other).configuration.mode otherAmounts
  unfold course at hfollow
  rw [hsame, hfollow] at hgoes
  rw [complete?_eq hstill hthere hcall hlookup, hcourse, hspaces, hticket]
  unfold course
  rw [hgoes, Option.map_some, Option.map_some, hgraft]
  rfl

/-- Two calls on resources that have nothing in common come to their ends in either order, with
the same answers and with the same machine in the end. -/
theorem complete?_comm
    (hquiet : machine.pending = []) (hapart : footprint.Apart otherPrint)
    (hdifferent : space ≠ other ∨ handle ≠ otherHandle)
    (hcarries : machine.Carries footprint) (hotherCarries : machine.Carries otherPrint)
    (hlookup : machine.lookup space handle = some footprint.resource)
    (hotherLookup : machine.lookup other otherHandle = some otherPrint.resource)
    (hcall : call.On handle) (hotherCall : otherCall.On otherHandle)
    (hcomplete : machine.complete? space call amounts = some (first, reply))
    (hotherComplete :
      machine.complete? other otherCall otherAmounts = some (second, otherReply)) :
    ∃ last,
      first.complete? other otherCall otherAmounts = some (last, otherReply) ∧
        second.complete? space call amounts = some (last, reply) := by
  obtain ⟨ended, hfollow, hfirst⟩ :=
    followed_of_complete? hquiet hcarries hcall hlookup hcomplete
  obtain ⟨otherEnded, hotherFollow, hsecond⟩ :=
    followed_of_complete? hquiet hotherCarries hotherCall hotherLookup hotherComplete
  have hspaces := congrArg Machine.spaces hfirst
  have hotherSpaces := congrArg Machine.spaces hsecond
  have hotherDifferent : other ≠ space ∨ otherHandle ≠ handle :=
    hdifferent.imp Ne.symm Ne.symm
  obtain ⟨hbound, hconfiguration⟩ := Course.keeps_space hspaces hdifferent
  obtain ⟨hotherBound, hotherConfiguration⟩ := Course.keeps_space hotherSpaces hotherDifferent
  have hcourse : first.course other otherCall otherPrint.resource =
      machine.course other otherCall otherPrint.resource := by
    unfold course
    rw [hconfiguration]
  have hotherCourse : second.course space call footprint.resource =
      machine.course space call footprint.resource := by
    unfold course
    rw [hotherConfiguration]
  have hafter := complete?_after hquiet hotherCarries hapart hotherCall hfirst
    (hbound.trans hotherLookup) hcourse hotherFollow
  have hbefore := complete?_after hquiet hcarries hapart.symm hcall hsecond
    (hotherBound.trans hlookup) hotherCourse hfollow
  refine ⟨_, hafter, ?_⟩
  rw [hbefore, graft_comm hapart.symm, Course.spaces_comm hotherDifferent, Nat.add_right_comm]

end After

end Machine

end ResourceHandles
