import ResourceHandles.Proofs.Machine.Tables

/-!
# The life of a handle

A handle is unallocated until a call hands it out, and open until a close takes
it.  The log of a run tells at which stage every handle is, and the table of the
handle space agrees with the log: the bound handles are those that were handed
out and not taken.

The books of a space are kept by every change of its table.  Everything else is
read off the books: the order in which handles are handed out, the number of open
handles, the one close that takes a handle, and that calls on a handle which is
not open come to nothing.
-/

namespace ResourceHandles

/-! ## Stages -/

/-- The handles that a log hands out in a space, in order. -/
def handedOut (space : Nat) (log : List Record) : List Handle :=
  log.filterMap (Record.handedOut? space)

/-- The handles that a log takes out of the table of a space, in order. -/
def taken (space : Nat) (log : List Record) : List Handle :=
  log.filterMap (Record.taken? space)

/-- The handle that is handed out after `count` others. -/
def Handle.nth (count : Nat) : Handle :=
  ⟨firstHandle + count⟩

/-- The stages in the life of a handle. -/
inductive Stage where
  | unallocated
  | open
  | closed
  deriving Repr, DecidableEq

def Stage.rank : Stage → Nat
  | unallocated => 0
  | «open» => 1
  | closed => 2

/-- The stage of a handle of a space. -/
def History.stage (history : History) (space : Nat) (handle : Handle) : Stage :=
  if handle ∈ taken space history.log then .closed
  else if handle ∈ handedOut space history.log then .open
  else .unallocated

theorem handedOut_append (space : Nat) (log later : List Record) :
    handedOut space (log ++ later) = handedOut space log ++ handedOut space later :=
  List.filterMap_append

theorem taken_append (space : Nat) (log later : List Record) :
    taken space (log ++ later) = taken space log ++ taken space later :=
  List.filterMap_append

theorem handedOut_snoc (space : Nat) (log : List Record) (record : Record) :
    handedOut space (log ++ [record]) =
      handedOut space log ++ (record.handedOut? space).toList :=
  filterMap_snoc _ log record

theorem taken_snoc (space : Nat) (log : List Record) (record : Record) :
    taken space (log ++ [record]) = taken space log ++ (record.taken? space).toList :=
  filterMap_snoc _ log record

namespace Machine

/-! ## The books of a space -/

/-- The table agrees with the handles that were handed out and taken. -/
structure BooksKept
    (table : HandleTable Nat Nat Nat) (handed taken : List Handle) : Prop where
  wellFormed : table.WellFormed
  handed_eq : handed = (List.range handed.length).map Handle.nth
  next_eq : table.next = firstHandle + handed.length
  taken_nodup : taken.Nodup
  taken_subset : ∀ handle ∈ taken, handle ∈ handed
  bound_iff :
    ∀ handle,
      (table.get? handle).isSome = true ↔ handle ∈ handed ∧ handle ∉ taken
  size_eq : table.size + taken.length = handed.length

theorem booksKept_empty : BooksKept {} [] [] := by
  constructor
  · exact HandleTable.wellFormed_empty
  · rfl
  · rfl
  · exact List.nodup_nil
  · simp
  · intro handle
    simp [HandleTable.get?]
  · rfl

theorem BooksKept.next_notMem
    {table : HandleTable Nat Nat Nat} {handed taken : List Handle}
    (hbooks : BooksKept table handed taken) :
    (⟨table.next⟩ : Handle) ∉ handed := by
  rw [hbooks.handed_eq]
  intro hmem
  obtain ⟨count, hcount, hnth⟩ := List.mem_map.mp hmem
  have hraw : firstHandle + (count : Int) = table.next := congrArg Handle.raw hnth
  have hlt : count < handed.length := List.mem_range.mp hcount
  have hnext := hbooks.next_eq
  omega

theorem BooksKept.bound
    {table : HandleTable Nat Nat Nat} {handed taken : List Handle}
    (hbooks : BooksKept table handed taken) (resource : Resource) :
    BooksKept (table.insert resource).1 (handed ++ [⟨table.next⟩]) taken := by
  have hfresh := hbooks.next_notMem
  have hgood := hbooks.wellFormed
  constructor
  · exact hgood.insert resource
  · have hlast : (⟨table.next⟩ : Handle) = Handle.nth handed.length := by
      unfold Handle.nth
      rw [hbooks.next_eq]
    rw [List.length_append, List.length_singleton, List.range_succ, List.map_append,
      ← hbooks.handed_eq, hlast]
    rfl
  · rw [HandleTable.insert_next, hbooks.next_eq, List.length_append, List.length_singleton]
    push_cast
    ring
  · exact hbooks.taken_nodup
  · intro handle hmem
    exact List.mem_append_left _ (hbooks.taken_subset handle hmem)
  · intro handle
    by_cases hnew : handle = ⟨table.next⟩
    · subst hnew
      have huntaken : (⟨table.next⟩ : Handle) ∉ taken := by
        intro hmem
        exact hfresh (hbooks.taken_subset _ hmem)
      rw [hgood.get?_insert_self resource]
      simp [huntaken]
    · rw [HandleTable.get?_insert_of_ne table resource hnew, hbooks.bound_iff]
      simp [hnew]
  · rw [hgood.size_insert, List.length_append, List.length_singleton]
    have hsize := hbooks.size_eq
    omega

theorem BooksKept.unbound
    {table : HandleTable Nat Nat Nat} {handed taken : List Handle}
    (hbooks : BooksKept table handed taken)
    {handle : Handle} {resource : Resource}
    (hbound : table.get? handle = some resource) :
    BooksKept (table.remove handle).1 handed (taken ++ [handle]) := by
  have hgood := hbooks.wellFormed
  have hopen : handle ∈ handed ∧ handle ∉ taken := by
    rw [← hbooks.bound_iff, hbound]
    rfl
  constructor
  · exact hgood.remove handle
  · exact hbooks.handed_eq
  · rw [HandleTable.remove_next]
    exact hbooks.next_eq
  · rw [List.nodup_append_comm, List.singleton_append, List.nodup_cons]
    exact ⟨hopen.2, hbooks.taken_nodup⟩
  · intro other hmem
    rw [List.mem_append, List.mem_singleton] at hmem
    rcases hmem with htaken | hself
    · exact hbooks.taken_subset other htaken
    · rw [hself]
      exact hopen.1
  · intro other
    by_cases hself : other = handle
    · subst hself
      rw [hgood.get?_remove_self]
      simp
    · rw [HandleTable.get?_remove_of_ne table hself, hbooks.bound_iff]
      simp [hself]
  · have hsize := hgood.size_remove hbound
    have hbefore := hbooks.size_eq
    rw [List.length_append, List.length_singleton]
    omega

theorem BooksKept.change
    {table next : HandleTable Nat Nat Nat} {handed taken : List Handle}
    {newHandle closedHandle : Option Handle}
    (hbooks : BooksKept table handed taken)
    (hchange : TableChange table next newHandle closedHandle) :
    BooksKept next (handed ++ newHandle.toList) (taken ++ closedHandle.toList) := by
  cases hchange with
  | same => simpa using hbooks
  | bound resource => simpa using hbooks.bound resource
  | unbound hbound => simpa using hbooks.unbound hbound

/-! ## The books along a run -/

/-- The books of a space, and that every close of a handle that was handed out
leaves it taken. -/
structure SpaceKept (space : Nat) (machine : Machine) (log : List Record) : Prop where
  inRange : space < machine.spaces.length
  books : BooksKept (machine.space space).table (handedOut space log) (taken space log)
  close_takes :
    ∀ earlier later handle found result,
      log = earlier ++ .started space (.close handle) found result :: later →
        handle ∈ handedOut space earlier → handle ∈ taken space log

theorem spaceKept_boot
    (tree : FileTree) (routed : Bool) (capacity : Nat) (configurations : List Configuration)
    (space : Fin configurations.length) :
    SpaceKept space (boot tree routed capacity configurations) [] := by
  constructor
  · simp [boot]
  · have hspace :
        (boot tree routed capacity configurations).space space =
          { configuration := configurations[space] } := by
      simp [boot, Machine.space, List.getD_eq_getElem?_getD]
    rw [hspace]
    exact booksKept_empty
  · intro earlier later handle found result hlog
    simp at hlog

theorem Transition.close_found
    {machine next : Machine} {space : Nat} {handle : Handle} {found : Option Resource}
    {result : Started}
    (htransition : machine.Transition (.started space (.close handle) found result) next) :
    found = (machine.space space).table.get? handle := by
  cases htransition with
  | refused howner hfound hclose hreply => rfl
  | parked howner hleads => rfl
  | performed howner hcall hfree hperform => rfl
  | closed howner hbound => exact hbound.symm
  | closing howner hbound haction => exact hbound.symm

theorem SpaceKept.transition
    {space : Nat} {machine next : Machine} {log : List Record} {record : Record}
    (hkept : SpaceKept space machine log)
    (htransition : machine.Transition record next) :
    SpaceKept space next (log ++ [record]) := by
  have hbooks := hkept.books
  have hchange := htransition.tableChange hkept.inRange hbooks.wellFormed
  constructor
  · rw [htransition.length_spaces]
    exact hkept.inRange
  · rw [handedOut_snoc, taken_snoc]
    exact hbooks.change hchange
  · intro earlier later handle found result hlog hhanded
    rw [taken_snoc]
    rcases List.eq_nil_or_concat later with hnil | ⟨front, last, hconcat⟩
    · -- The close is the newest record: it takes the handle unless an older one did.
      subst hnil
      obtain ⟨rfl, hrecord⟩ := List.append_inj' hlog rfl
      simp only [List.cons.injEq, and_true] at hrecord
      subst hrecord
      by_cases htaken : handle ∈ taken space log
      · exact List.mem_append_left _ htaken
      · have hbound := (hbooks.bound_iff handle).mpr ⟨hhanded, htaken⟩
        rw [← htransition.close_found] at hbound
        obtain ⟨resource, hfound⟩ := Option.isSome_iff_exists.mp hbound
        apply List.mem_append_right
        simp [Record.taken?, hfound]
    · subst hconcat
      rw [List.concat_eq_append, ← List.cons_append, ← List.append_assoc] at hlog
      obtain ⟨hfront, _⟩ := List.append_inj' hlog rfl
      exact List.mem_append_left _
        (hkept.close_takes earlier front handle found result hfront hhanded)

theorem spaceKept_play
    {space : Nat} (history : History)
    (hkept : SpaceKept space history.machine history.log) (events : List Event) :
    SpaceKept space (history.play events).machine (history.play events).log := by
  apply History.play_invariant (P := SpaceKept space)
  · intro machine log record next hmachine htransition
    exact hmachine.transition htransition
  · exact hkept

/-! ## Calls that come to nothing -/

/-- A handle that stands for nothing: no call on it finds anything to do. -/
structure Inert (machine : Machine) (space : Nat) (handle : Handle) : Prop where
  kind : (machine.space space).table.classify handle = .unknown
  read : machine.start space (.read handle) = (machine, .answered (.bytes []))
  write : ∀ data, machine.start space (.write handle data) = (machine, .answered .done)
  accept : machine.start space (.accept handle) = (machine, .answered (.handle .invalid))
  close : machine.start space (.close handle) = (machine, .answered .done)

theorem inert_of_unbound
    {machine : Machine} {space : Nat} {handle : Handle}
    (hunbound : (machine.space space).table.get? handle = none) :
    machine.Inert space handle := by
  constructor
  · rw [HandleTable.classify_eq, hunbound]
    rfl
  · simp [start, plan, hunbound]
  · intro data
    simp [start, plan, hunbound]
  · simp [start, plan, hunbound]
  · simp [start, plan, HandleTable.remove_eq_self hunbound]

theorem get?_of_classify
    {table : HandleTable Nat Nat Nat} {handle : Handle} {kind : Kind}
    (hkind : table.classify handle = kind) (hknown : kind ≠ .unknown) :
    ∃ resource, table.get? handle = some resource ∧ resource.kind = kind := by
  rw [HandleTable.classify_eq] at hkind
  cases hbound : table.get? handle with
  | none =>
      rw [hbound] at hkind
      exact absurd hkind.symm hknown
  | some resource =>
      rw [hbound] at hkind
      exact ⟨resource, rfl, hkind⟩

theorem start_on_listener
    {machine : Machine} {space : Nat} {handle : Handle}
    (hkind : (machine.space space).table.classify handle = .listener) (data : Bytes) :
    machine.start space (.read handle) = (machine, .answered (.bytes [])) ∧
      machine.start space (.write handle data) = (machine, .answered .done) := by
  obtain ⟨resource, hbound, hresource⟩ := get?_of_classify hkind (by simp)
  cases resource with
  | listener number => simp [start, plan, hbound]
  | file number => cases hresource
  | connection number => cases hresource

theorem accept_on_stream
    {machine : Machine} {space : Nat} {handle : Handle}
    (hkind : (machine.space space).table.classify handle ≠ .listener) :
    machine.start space (.accept handle) = (machine, .answered (.handle .invalid)) := by
  rw [HandleTable.classify_eq] at hkind
  cases hbound : (machine.space space).table.get? handle with
  | none => exact (inert_of_unbound hbound).accept
  | some resource =>
      rw [hbound] at hkind
      cases resource with
      | file number => simp [start, plan, hbound]
      | connection number => simp [start, plan, hbound]
      | listener number => exact absurd rfl hkind

end Machine

namespace History

/-! ## Stages along a run -/

theorem stage_eq_open_iff
    {history : History} {space : Nat}
    (hkept : Machine.SpaceKept space history.machine history.log) (handle : Handle) :
    history.stage space handle = .open ↔
      ((history.machine.space space).table.get? handle).isSome = true := by
  rw [hkept.books.bound_iff]
  unfold stage
  by_cases htaken : handle ∈ taken space history.log
  · simp [htaken]
  · by_cases hhanded : handle ∈ handedOut space history.log
    · simp [htaken, hhanded]
    · simp [htaken, hhanded]

/-- A longer log can only move a handle to a later stage. -/
theorem rank_le_of_prefix
    {history future : History} (hlog : history.log <+: future.log)
    (space : Nat) (handle : Handle) :
    (history.stage space handle).rank ≤ (future.stage space handle).rank := by
  obtain ⟨added, hadded⟩ := hlog
  unfold stage
  rw [← hadded, taken_append, handedOut_append]
  by_cases htaken : handle ∈ taken space history.log
  · simp [htaken]
  · by_cases hhanded : handle ∈ handedOut space history.log
    · rw [if_neg htaken, if_pos hhanded]
      split
      · simp [Stage.rank]
      · simp [hhanded]
    · rw [if_neg htaken, if_neg hhanded]
      simp [Stage.rank]

theorem rank_after_le
    {history : History} {space : Nat}
    (hkept : Machine.SpaceKept space history.machine history.log)
    (event : Event) (handle : Handle) :
    ((history.after event).stage space handle).rank ≤
      (history.stage space handle).rank + 1 := by
  rcases history.after_cases event with hskip | ⟨machine, record, hpossible, hafter⟩
  · rw [hskip]
    exact Nat.le_succ _
  · have htransition := Machine.step?_transition hpossible
    have hchange := htransition.tableChange hkept.inRange hkept.books.wellFormed
    rw [hafter]
    unfold stage
    rw [taken_snoc, handedOut_snoc]
    generalize record.handedOut? space = newHandle at hchange ⊢
    generalize record.taken? space = closedHandle at hchange ⊢
    generalize (machine.space space).table = table at hchange
    cases hchange with
    | same => simp
    | bound resource =>
        by_cases htaken : handle ∈ taken space history.log
        · simp [htaken]
        · by_cases hhanded : handle ∈ handedOut space history.log
          · simp [htaken, hhanded]
          · simp only [Option.toList_none, List.append_nil, htaken, hhanded, if_false]
            split
            · simp [Stage.rank]
            · simp [Stage.rank]
    | @unbound closed resource hbound =>
        have hopen : closed ∈ handedOut space history.log ∧ closed ∉ taken space history.log := by
          rw [← hkept.books.bound_iff, hbound]
          rfl
        by_cases hclosed : handle = closed
        · subst hclosed
          simp [hopen.1, hopen.2, Stage.rank]
        · simp [hclosed]

/-! ## The life cycle -/

/-- What a space keeps to at every point of a run. -/
structure LifeCycle (space : Nat) (history : History) : Prop where
  handed_in_order :
    handedOut space history.log =
      (List.range (handedOut space history.log).length).map Handle.nth
  open_handles :
    (history.machine.space space).table.size + (taken space history.log).length =
      (handedOut space history.log).length
  taken_once : ∀ handle, (taken space history.log).count handle ≤ 1
  close_takes :
    ∀ earlier later handle found result,
      history.log = earlier ++ .started space (.close handle) found result :: later →
        handle ∈ handedOut space earlier → (taken space history.log).count handle = 1
  known_iff :
    ∀ handle,
      (history.machine.space space).table.classify handle ≠ .unknown ↔
        history.stage space handle = .open
  inert : ∀ handle, history.stage space handle ≠ .open → history.machine.Inert space handle
  unallocated : ∀ handle : Handle, handle.raw < 3 → history.stage space handle = .unallocated
  listener :
    ∀ handle data,
      (history.machine.space space).table.classify handle = .listener →
        history.machine.start space (.read handle) =
            (history.machine, .answered (.bytes [])) ∧
          history.machine.start space (.write handle data) = (history.machine, .answered .done)
  stream :
    ∀ handle,
      (history.machine.space space).table.classify handle ≠ .listener →
        history.machine.start space (.accept handle) =
          (history.machine, .answered (.handle .invalid))

theorem lifeCycle_of_kept
    {history : History} {space : Nat}
    (hkept : Machine.SpaceKept space history.machine history.log) :
    history.LifeCycle space := by
  have hbooks := hkept.books
  constructor
  · exact hbooks.handed_eq
  · exact hbooks.size_eq
  · exact List.nodup_iff_count_le_one.mp hbooks.taken_nodup
  · intro earlier later handle found result hlog hhanded
    have hmem := hkept.close_takes earlier later handle found result hlog hhanded
    exact List.count_eq_one_of_mem hbooks.taken_nodup hmem
  · intro handle
    rw [stage_eq_open_iff hkept, HandleTable.classify_eq]
    cases (history.machine.space space).table.get? handle with
    | none => simp [HandleTable.kindOf]
    | some resource => cases resource <;> simp [HandleTable.kindOf, Slot.kind]
  · intro handle hstage
    apply Machine.inert_of_unbound
    rw [Ne, stage_eq_open_iff hkept] at hstage
    simpa using hstage
  · intro handle hraw
    have hhanded : handle ∉ handedOut space history.log := by
      rw [hbooks.handed_eq]
      intro hmem
      obtain ⟨count, hcount, hnth⟩ := List.mem_map.mp hmem
      have hvalue : firstHandle + (count : Int) = handle.raw := congrArg Handle.raw hnth
      unfold firstHandle at hvalue
      omega
    have htaken : handle ∉ taken space history.log := by
      intro hmem
      exact hhanded (hbooks.taken_subset handle hmem)
    simp [stage, hhanded, htaken]
  · intro handle data hkind
    exact Machine.start_on_listener hkind data
  · intro handle hkind
    exact Machine.accept_on_stream hkind

/-- Every handle is unallocated, then open, then closed, and never goes back. -/
theorem handle_life_cycle
    (tree : FileTree) (routed : Bool) (capacity : Nat) (configurations : List Configuration)
    (space : Fin configurations.length) (earlier later : List Event) :
    let history : History :=
      History.play ⟨Machine.boot tree routed capacity configurations, []⟩ earlier
    history.LifeCycle space ∧
      (∀ handle,
        (history.stage space handle).rank ≤ ((history.play later).stage space handle).rank) ∧
      ∀ event handle,
        ((history.after event).stage space handle).rank ≤
          (history.stage space handle).rank + 1 := by
  intro history
  have hstart := Machine.spaceKept_boot tree routed capacity configurations space
  have hkept : Machine.SpaceKept space history.machine history.log :=
    Machine.spaceKept_play _ hstart earlier
  refine ⟨lifeCycle_of_kept hkept, ?_, ?_⟩
  · intro handle
    exact rank_le_of_prefix (history.log_prefix_play later) space handle
  · intro event handle
    exact rank_after_le hkept event handle

end History

end ResourceHandles
