import ResourceHandles.Proofs.Machine.Emptying
import ResourceHandles.Proofs.Session.Elsewhere
import ResourceHandles.Proofs.Session.Places
import ResourceHandles.Proofs.Session.Quiet

/-!
# Renewing a runtime and closing all its handles

A runtime that is renewed drops whatever it has open without another word, while closing a
handle raises a signal, ends the sending and lets go, each in its turn.  To everybody else this
is the same: the files are the same, and whatever is done on the other runtimes later ends
alike, in whatever order the handles were closed.
-/

namespace ResourceHandles

/-! ## Dropping a space -/

namespace Machine

variable {base machine : Machine} {space : Nat}

/-- How a machine that has a new space for an old one differs from one that has emptied it. -/
def renewal (base machine : Machine) (space : Nat) (hspace : space < base.spaces.length) :
    Renewal where
  old := space
  fresh := base.spaces.length
  lag := machine.nextTicket - base.nextTicket
  listeners := { number | .listener number ∈ resourcesOf (base.space space).table }
  connections := { number | .connection number ∈ resourcesOf (base.space space).table }
  older := hspace

theorem gone_iff {resource : Resource} (hspace : space < base.spaces.length) :
    (base.renewal machine space hspace).Gone resource ↔
      (∀ number, resource ≠ .file number) ∧
        resource ∈ resourcesOf (base.space space).table := by
  cases resource with
  | file number => exact ⟨False.elim, fun hboth => hboth.1 number rfl⟩
  | listener number => exact ⟨fun hmem => ⟨by simp, hmem⟩, fun hboth => hboth.2⟩
  | connection number => exact ⟨fun hmem => ⟨by simp, hmem⟩, fun hboth => hboth.2⟩

variable {configuration : Configuration}

/-- What a machine loses that has a new space for an old one, if nothing waits. -/
theorem left_replaced (hquiet : base.pending = []) (hspace : space < base.spaces.length) :
    base.Left ((base.addSpace configuration).1.dropSpace space)
        (resourcesOf (base.space space).table) ∧
      ((base.addSpace configuration).1.dropSpace space).network =
        base.shutDown (resourcesOf (base.space space).table) := by
  let cleared : Machine := (base.addSpace configuration).1.setTable space {}
  have hcleared : base.Left cleared (resourcesOf (base.space space).table) :=
    { Left.refl hquiet _ with }
  have hdropped : (base.addSpace configuration).1.dropSpace space =
      (resourcesOf (base.space space).table).foldl drop cleared := by
    unfold dropSpace
    rw [space_addSpace, if_neg hspace.ne]
  rw [hdropped]
  exact ⟨hcleared.dropAll (List.Subset.refl _), network_dropAll hquiet⟩

theorem spaces_replaced (base : Machine) (configuration : Configuration) (space : Nat) :
    ((base.addSpace configuration).1.dropSpace space).spaces =
      ((base.addSpace configuration).1.setTable space {}).spaces :=
  spaces_dropAll _ _

theorem space_replaced_of_ne {other : Nat} (hold : other ≠ space)
    (hfresh : other ≠ base.spaces.length) :
    ((base.addSpace configuration).1.dropSpace space).space other = base.space other := by
  rw [space_congr (base.spaces_replaced configuration space), space_setTable_of_ne _ _ hold,
    space_addSpace, if_neg hfresh]

theorem space_replaced_fresh (hspace : space < base.spaces.length) :
    ((base.addSpace configuration).1.dropSpace space).space base.spaces.length =
      { configuration := configuration } := by
  rw [space_congr (base.spaces_replaced configuration space), space_setTable_of_ne _ _ hspace.ne',
    space_addSpace, if_pos rfl]

theorem table_replaced_old (hspace : space < base.spaces.length) :
    (((base.addSpace configuration).1.dropSpace space).space space).table = {} := by
  have hlonger : space < (base.addSpace configuration).1.spaces.length := by
    show space < (base.spaces ++ [_]).length
    rw [List.length_append]
    exact Nat.lt_add_right _ hspace
  rw [space_congr (base.spaces_replaced configuration space), space_setTable_self _ _ hlonger]

/-- The spaces that live on are those of the machine that was emptied. -/
theorem space_rename_of_emptying
    {other : Nat} (hspace : space < base.spaces.length) (hemptying : base.Emptying machine space)
    (hold : other ≠ space) (hfresh : other ≠ base.spaces.length) :
    machine.space ((base.renewal machine space hspace).rename other) =
      ((base.addSpace configuration).1.dropSpace space).space other := by
  rw [space_replaced_of_ne hold hfresh]
  by_cases hlt : other < base.spaces.length
  · rw [Renewal.rename_of_lt (by exact hlt), hemptying.others other hold]
  · -- Spaces that are not there have no handles in either machine.
    have hgt : base.spaces.length < other := by omega
    rw [Renewal.rename_of_gt (by exact hgt), hemptying.others (other - 1) (by omega),
      space_of_missing (by omega), space_of_missing (by omega)]

/-- What is lost with a space is bound in no other one. -/
theorem not_gone_replaced
    {other : Nat} {resource : Resource} (howned : base.Owned) (hspace : space < base.spaces.length)
    (hmem : resource ∈
      resourcesOf (((base.addSpace configuration).1.dropSpace space).space other).table) :
    ¬(base.renewal machine space hspace).Gone resource := by
  intro hgone
  obtain ⟨hsocket, howns⟩ := (gone_iff hspace).mp hgone
  have htables := howned.orderly.bindings.tables
  by_cases hold : other = space
  · subst hold
    rw [table_replaced_old hspace] at hmem
    cases hmem
  · by_cases hfresh : other = base.spaces.length
    · subst hfresh
      rw [space_replaced_fresh hspace] at hmem
      cases hmem
    · -- What both spaces bind would have two owners.
      rw [space_replaced_of_ne hold hfresh] at hmem
      obtain ⟨handle, hlookup⟩ := (mem_resourcesOf_iff (htables space)).mp howns
      obtain ⟨otherHandle, hother⟩ := (mem_resourcesOf_iff (htables other)).mp hmem
      exact hold (howned.unique hsocket hother hlookup).1

/-- A machine that has a new space for an old one and one that has emptied the old one differ
in nothing else. -/
theorem mirrors_of_emptying
    (howned : base.Owned) (hquiet : base.pending = []) (hspace : space < base.spaces.length)
    (hemptying : base.Emptying machine space) (horderly : machine.Orderly)
    (hnone : ∀ handle, machine.lookup space handle = none)
    (hticket : base.nextTicket ≤ machine.nextTicket) :
    (base.renewal machine space hspace).Mirrors ((base.addSpace configuration).1.dropSpace space)
      machine := by
  obtain ⟨hleft, hnetwork⟩ := @left_replaced base space configuration hquiet hspace
  obtain ⟨hemptied, hsize⟩ := hemptying.emptied (horderly.bindings.tables space) hnone
  have htables := howned.orderly.bindings.tables
  have hbound : ∀ resource ∈ resourcesOf (base.space space).table,
      ∃ handle, base.lookup space handle = some resource :=
    fun resource hmem => (mem_resourcesOf_iff (htables space)).mp hmem
  have hlength : ((base.addSpace configuration).1.dropSpace space).spaces.length =
      base.spaces.length + 1 := by
    rw [base.spaces_replaced, length_spaces_setTable]
    show (base.spaces ++ [_]).length = _
    simp
  exact
    { tree := hemptying.left.tree.trans hleft.tree.symm
      network := hemptied.trans hnetwork.symm
      files := hemptying.left.files.trans hleft.files.symm
      listeners :=
        { length := hemptying.left.listeners.trans hleft.listeners.symm
          entry := fun number hnumber =>
            (hemptying.left.listener number hnumber).trans (hleft.listener number hnumber).symm
          older := by
            intro number hnumber
            obtain ⟨handle, hlookup⟩ := hbound _ hnumber
            rw [hleft.listeners]
            exact howned.listeners.inRange space handle number hlookup }
      connections :=
        { length := hemptying.left.connections.trans hleft.connections.symm
          entry := fun number hnumber =>
            (hemptying.left.connection number hnumber).trans
              (hleft.connection number hnumber).symm
          older := by
            intro number hnumber
            obtain ⟨handle, hlookup⟩ := hbound _ hnumber
            rw [hleft.connections]
            exact howned.orderly.bindings.lt_length hlookup }
      spaces := by rw [hlength, hemptying.spaces]
      renewed := by
        rw [hlength]
        exact Nat.lt_succ_self _
      space := fun other hlive =>
        space_rename_of_emptying hspace hemptying hlive.ne_old hlive.ne_fresh
      fresh := by
        show (((base.addSpace configuration).1.dropSpace space).space
          base.spaces.length).table.size = 0
        rw [space_replaced_fresh hspace]
        rfl
      emptied := hsize
      bound := fun other resource hmem => not_gone_replaced howned hspace hmem
      pending := by rw [hemptying.left.pending, hleft.pending, List.map_nil]
      used := by simp [hleft.pending]
      ticket := by
        have hsame : ((base.addSpace configuration).1.dropSpace space).nextTicket =
            base.nextTicket := nextTicket_dropAll _ _
        rw [hsame]
        exact (Nat.add_sub_of_le hticket).symm }

/-- A machine that is brought further on its way by a close, in whatever mode. -/
theorem Emptying.close_alone
    {next : Machine} {handle : Handle} (hemptying : base.Emptying machine space)
    (horderly : machine.Orderly)
    (hbare : next.bare = (machine.bare.alone space (.close handle)).1)
    (hquiet : next.pending = []) :
    base.Emptying next space ∧ next.lookup space handle = none ∧
      ∀ other, machine.lookup space other = none → next.lookup space other = none := by
  have hgood := horderly.bindings.tables space
  have hlookups : ∀ {closed : Machine}, next.bare = closed.bare →
      ∀ other, next.lookup space other = closed.lookup space other := by
    intro closed hsame other
    rw [← lookup_bare, hsame, lookup_bare]
  cases hlookup : machine.lookup space handle with
  | none =>
      rw [alone_close_unbound (machine.lookup_bare space handle ▸ hlookup)] at hbare
      have hsame := hlookups hbare
      refine ⟨hemptying.congr hbare hquiet, ?_, ?_⟩
      · rw [hsame, hlookup]
      · intro other hnone
        rw [hsame, hnone]
  | some resource =>
      let closed : Machine := (machine.unbind space handle resource).letGo resource
      have hreleased : (machine.unbind space handle resource).pending = [] :=
        (machine.unbind_frame space handle resource).2.1.trans hemptying.left.pending
      rw [alone_close_bound horderly hlookup, ← bare_unbind, ← bare_letGo hreleased] at hbare
      have hspaces : closed.spaces =
          (machine.setTable space ((machine.space space).table.remove handle).1).spaces := by
        rw [spaces_letGo, spaces_unbind]
      have hsame := hlookups hbare
      have hremoved : ∀ other, closed.lookup space other =
          ((machine.space space).table.remove handle).1.get? other := by
        intro other
        unfold lookup
        rw [space_congr hspaces, space_setTable_self _ _ (lt_length_of_lookup hlookup)]
      refine ⟨(hemptying.close horderly hlookup).congr hbare hquiet, ?_, ?_⟩
      · rw [hsame, hremoved, hgood.get?_remove_self]
      · intro other hnone
        rw [hsame, hremoved]
        by_cases hother : other = handle
        · rw [hother, hgood.get?_remove_self]
        · rw [HandleTable.get?_remove_of_ne _ hother]
          exact hnone

end Machine

namespace Session

variable {session : Session} {runtime : Nat} {handles : List Handle}

/-! ## Closing all handles -/

/-- The machine of a session of which nothing but handles of a space was closed, and in which
some handles of the space are not bound any more. -/
structure ClosesAll (session : Session) (space : Nat) (handles : List Handle) (machine : Machine) :
    Prop where
  emptying : session.machine.Emptying machine space
  owned : machine.Owned
  grown : session.machine.Grown machine
  closed : ∀ handle ∈ handles, machine.lookup space handle = none
  unbound :
    ∀ handle, session.machine.lookup space handle = none → machine.lookup space handle = none

/-- One more handle is closed. -/
theorem ClosesAll.close
    {space : Nat} {machine : Machine} {handle : Handle} (hquiet : session.Quiet)
    (hcloses : session.ClosesAll space handles machine) :
    ∃ next,
      ({ session with machine := machine } : Session).run space (.once (.close handle)) =
          ({ session with machine := next }, .done) ∧
        session.ClosesAll space (handles ++ [handle]) next := by
  let reached : Session := { session with machine := machine }
  have hstill : reached.Quiet :=
    quiet_of_still hcloses.emptying.left.pending hquiet.still hquiet.retired
  obtain ⟨next, hrun, hbare, hpending⟩ :=
    hstill.close_eq hcloses.owned.orderly space handle
  have howned := Machine.lasting_owned.run space (.once (.close handle))
    (show Machine.Owned reached.machine from hcloses.owned)
  have hgrown := (Machine.lasting_grown machine).run space (.once (.close handle))
    (show machine.Grown reached.machine from .refl machine)
  rw [hrun] at howned hgrown
  refine ⟨next, hrun, ?_⟩
  obtain ⟨hemptying, hclosed, hunbound⟩ :=
    hcloses.emptying.close_alone hcloses.owned.orderly hbare hpending
  refine ⟨hemptying, howned, hcloses.grown.trans hgrown, ?_, ?_⟩
  · intro other hmem
    rcases List.mem_append.mp hmem with hold | hnew
    · exact hunbound other (hcloses.closed other hold)
    · rw [List.mem_singleton.mp hnew]
      exact hclosed
  · exact fun other hnone => hunbound other (hcloses.unbound other hnone)

/-- All the handles of a list are closed, one after the other. -/
theorem Quiet.closeAll
    (hquiet : session.Quiet) (howned : session.machine.Owned) (runtime : Nat)
    (handles : List Handle) :
    ∃ machine,
      session.afterAll (handles.map fun handle => .call runtime (.close handle)) =
          { session with machine := machine } ∧
        session.ClosesAll (session.spaceOf runtime) handles machine := by
  induction handles using List.reverseRecOn with
  | nil =>
      exact ⟨session.machine, rfl, .refl hquiet.pending _, howned, .refl _, by simp, fun _ => id⟩
  | append_singleton handles handle ih =>
      obtain ⟨machine, hreached, hcloses⟩ := ih
      obtain ⟨next, hrun, hnext⟩ := @ClosesAll.close session handles _ machine handle hquiet hcloses
      refine ⟨next, ?_, hnext⟩
      unfold afterAll at hreached ⊢
      rw [List.map_append, List.foldl_append, hreached]
      exact congrArg Prod.fst hrun

/-! ## The two sessions -/

theorem isRunning_of_mem {task : Task} (hmem : task ∈ session.tasks)
    (houtcome : task.outcome? = none) : session.isRunning task.space = true :=
  List.any_eq_true.mpr ⟨task, hmem, by simp [houtcome]⟩

theorem exists_task_of_isRunning {space : Nat} (hrunning : session.isRunning space = true) :
    space ∈ session.tasks.map Task.space := by
  obtain ⟨task, hmem, hboth⟩ := List.any_eq_true.mp hrunning
  have hspace : task.space = space := by simpa using (Bool.and_eq_true_iff.mp hboth).1
  exact List.mem_map.mpr ⟨task, hmem, hspace⟩

section

variable {runtimes count space : Nat} {machine : Machine}

theorem Placed.live_of_running
    (hplaced : session.Placed runtimes count)
    (hown : session.isRunning (session.spaceOf runtime) = false)
    (hrunning : session.isRunning space = true) :
    (session.machine.renewal machine (session.spaceOf runtime)
      (hplaced.spaceOf_lt runtime)).Live space := by
  refine ⟨?_, (hplaced.tasks space (exists_task_of_isRunning hrunning)).ne⟩
  rintro rfl
  have hcontra := hrunning.symm.trans hown
  cases hcontra

theorem Placed.live_of_ne
    {other : Nat} (hplaced : session.Placed runtimes count) (hruntime : runtime < runtimes)
    (hother : other ≠ runtime) (hentry : session.current[other]? = some space) :
    (session.machine.renewal machine (session.spaceOf runtime)
      (hplaced.spaceOf_lt runtime)).Live space := by
  refine ⟨?_, (hplaced.current space (List.mem_of_getElem? hentry)).ne⟩
  rintro rfl
  have hfound := (List.getElem?_eq_some_iff.mp hentry).1
  have hold := hplaced.getElem?_current hruntime
  exact hother ((List.getElem?_inj hfound hplaced.apart).mp (hentry.trans hold.symm))

/-- The new space of a runtime stands for its old one, and every other space for itself. -/
theorem Placed.current_rename
    (hplaced : session.Placed runtimes count) (hruntime : runtime < runtimes) :
    session.current =
      (session.current.set runtime session.machine.spaces.length).map
        (session.machine.renewal machine (session.spaceOf runtime)
          (hplaced.spaceOf_lt runtime)).rename := by
  apply List.ext_getElem?
  intro other
  simp only [List.getElem?_map, List.getElem?_set]
  split
  · next hother =>
      subst hother
      rw [hplaced.getElem?_current hruntime, if_pos (hplaced.length.symm ▸ hruntime)]
      exact congrArg some (Renewal.rename_fresh (session.machine.renewal machine
        (session.spaceOf runtime) (hplaced.spaceOf_lt runtime))).symm
  · cases hentry : session.current[other]? with
    | none => rfl
    | some space =>
        have hlt := hplaced.current space (List.mem_of_getElem? hentry)
        exact congrArg some (Renewal.rename_of_lt (by exact hlt)).symm

theorem Quiet.retired_rename (hquiet : session.Quiet) (hplaced : session.Placed runtimes count) :
    session.retired =
      session.retired.map (session.machine.renewal machine (session.spaceOf runtime)
        (hplaced.spaceOf_lt runtime)).rename := by
  symm
  apply (List.map_congr_left _).trans (List.map_id _)
  intro space hmem
  have hlt := hplaced.tasks space (exists_task_of_isRunning (hquiet.retired space hmem))
  exact Renewal.rename_of_lt (by exact hlt)

/-- A session with a renewed runtime and one in which all handles of the runtime were closed
differ in nothing else. -/
theorem Quiet.mirrors_reset
    (hquiet : session.Quiet) (hplaced : session.Placed runtimes count)
    (howned : session.machine.Owned) (hruntime : runtime < runtimes)
    (hown : session.isRunning (session.spaceOf runtime) = false)
    (hcloses : session.ClosesAll (session.spaceOf runtime) handles machine)
    (hall : (session.space runtime).table.keys ⊆ handles) :
    (session.machine.renewal machine (session.spaceOf runtime)
        (hplaced.spaceOf_lt runtime)).MirrorsSession runtime runtimes
      (session.reset runtime) { session with machine := machine } := by
  have hspace := hplaced.spaceOf_lt runtime
  have hnone : ∀ handle, machine.lookup (session.spaceOf runtime) handle = none := by
    intro handle
    by_cases hmem : handle ∈ (session.space runtime).table.keys
    · exact hcloses.closed handle (hall hmem)
    · exact hcloses.unbound handle ((HandleTable.get?_eq_none_iff _ _).mpr hmem)
  rw [hquiet.reset_eq hown]
  exact
    { machine :=
        Machine.mirrors_of_emptying howned hquiet.pending hspace hcloses.emptying
          hcloses.owned.orderly hnone hcloses.grown.ticket
      tasks := by
        refine List.forall₂_same.mpr fun task hmem => ⟨rfl, ?_, fun houtcome => ⟨?_, ?_⟩⟩
        · rw [hquiet.waiting task hmem]
          rfl
        · exact hplaced.live_of_running hown (isRunning_of_mem hmem houtcome)
        · have hlt := hplaced.tasks _ (List.mem_map_of_mem hmem)
          exact (Renewal.rename_of_lt (by exact hlt)).symm
      clock := rfl
      names := rfl
      length := List.length_set.trans hplaced.length
      current := hplaced.current_rename hruntime
      renewed := by
        dsimp only
        rw [List.getElem?_set_self (hplaced.length.symm ▸ hruntime)]
        rfl
      others := by
        intro other space hother hentry
        dsimp only at hentry
        rw [List.getElem?_set_ne hother.symm] at hentry
        exact hplaced.live_of_ne hruntime hother hentry
      retired := hquiet.retired_rename hplaced
      leaving := fun space hmem => hplaced.live_of_running hown (hquiet.retired space hmem) }

/-- A renewed runtime has an empty table. -/
theorem Quiet.table_reset
    (hquiet : session.Quiet) (hplaced : session.Placed runtimes count)
    (hruntime : runtime < runtimes) (hown : session.isRunning (session.spaceOf runtime) = false) :
    ((session.reset runtime).space runtime).table = {} := by
  have hspaceOf : (session.reset runtime).spaceOf runtime = session.machine.spaces.length := by
    rw [hquiet.reset_eq hown]
    unfold spaceOf
    simp [hplaced.length, hruntime]
  unfold space
  rw [hspaceOf, hquiet.reset_eq hown]
  exact congrArg HandleSpace.table (Machine.space_replaced_fresh (hplaced.spaceOf_lt runtime))

end

/-! ## Renewing is closing -/

/-- While no call is under way, and none is still to be made on a runtime, one may as well close
all its handles as renew it, in whatever order: the files are the same, and all later steps on
other runtimes end alike, with as many handles open.  Of the handles of a renewed runtime none
is known any more, and it hands out the first one again. -/
theorem reset_acts_as_closing
    (tree : FileTree) (routed : Bool) (capacity : Nat) (configurations : List Configuration)
    (steps : List Step) (runtime : Nat) (handles : List Handle) :
    let session := (boot tree routed capacity configurations).afterAll steps
    let renewed := (session.step (.reset runtime)).1
    let closed := session.afterAll (handles.map fun handle => .call runtime (.close handle))
    runtime < configurations.length → session.Quiet →
      session.isRunning (session.spaceOf runtime) = false →
        (session.space runtime).table.keys ⊆ handles →
          renewed.machine.tree = closed.machine.tree ∧
            (∀ later : List Step,
              (∀ step ∈ later, step.Avoids runtime configurations.length) →
                renewed.runAll later = closed.runAll later) ∧
              (∀ handle, (renewed.step (.classify runtime handle)).2 = .kind .unknown) ∧
                ∀ resource,
                  (renewed.machine.bindHandle (renewed.spaceOf runtime) resource).2 = ⟨3⟩ := by
  intro session renewed closed hruntime hquiet hown hall
  have howned : session.machine.Owned :=
    Machine.lasting_owned.afterAll steps (Machine.owned_boot tree routed capacity configurations)
  have hplaced : session.Placed configurations.length configurations.length :=
    (Placed.boot tree routed capacity (Nat.zero_lt_of_lt hruntime)).afterAll steps
  obtain ⟨machine, hclosed, hcloses⟩ := hquiet.closeAll howned runtime handles
  have hclosed : closed = { session with machine := machine } := hclosed
  have hmirrors := hquiet.mirrors_reset hplaced howned hruntime hown hcloses hall
  have hfresh : (renewed.space runtime).table = {} := hquiet.table_reset hplaced hruntime hown
  refine ⟨?_, ?_, ?_, ?_⟩
  · rw [hclosed]
    exact hmirrors.machine.tree.symm
  · intro later havoids
    rw [hclosed]
    exact (hmirrors.runAll havoids).symm
  · intro handle
    show Outcome.kind ((renewed.space runtime).table.classify handle) = _
    rw [hfresh]
    rfl
  · intro resource
    rw [Machine.bindHandle_handle]
    show (⟨(renewed.space runtime).table.next⟩ : Handle) = _
    rw [hfresh]
    rfl

/-- A runtime with an open file, a listener at which a client waits, and a connection with data
under way in both directions is renewed, or its handles are closed, the last one first. -/
theorem renewed_server_acts_as_closed :
    let steps : List Step :=
      [.call 0 (.open ⟨"kept"⟩ (some [.write, .create])), .call 0 (.write ⟨3⟩ [1, 2]),
        .call 0 (.listen "127.0.0.1:8080"), .call 1 (.connect "127.0.0.1:8080"),
        .call 0 (.accept ⟨4⟩), .call 0 (.write ⟨5⟩ [3]), .call 1 (.write ⟨3⟩ [4]),
        .call 1 (.connect "127.0.0.1:8080")]
    let later : List Step :=
      [.content ⟨"kept"⟩, .call 1 (.write ⟨4⟩ [5]), .call 1 (.read ⟨3⟩), .call 1 (.read ⟨3⟩),
        .call 1 (.write ⟨3⟩ [6]), .call 1 (.connect "127.0.0.1:8080"),
        .call 1 (.listen "127.0.0.1:8080"), .call 1 (.connect "127.0.0.1:8080")]
    let session := (boot {} true 8 [{}, {}]).afterAll steps
    let renewed := (session.step (.reset 0)).1
    let closed := session.afterAll ([⟨5⟩, ⟨4⟩, ⟨3⟩].map fun handle => .call 0 (.close handle))
    (session.Quiet ∧ session.isRunning (session.spaceOf 0) = false ∧
        (session.space 0).table.keys ⊆ [⟨5⟩, ⟨4⟩, ⟨3⟩] ∧
          ∀ step ∈ later, step.Avoids 0 2) ∧
      renewed.machine.tree = closed.machine.tree ∧
        renewed.runAll later = closed.runAll later ∧
          renewed.runAll later =
            [(.bytes [1, 2], [0, 2]),
              (.failed (.call (.connectionNotWritten ⟨4⟩ .connectionReset)), [0, 2]),
              (.bytes [3], [0, 2]), (.bytes [], [0, 2]),
              (.failed (.call (.connectionNotWritten ⟨3⟩ .brokenPipe)), [0, 2]),
              (.handle .invalid, [0, 2]), (.handle ⟨5⟩, [0, 3]), (.handle ⟨6⟩, [0, 4])] := by
  intro steps later session renewed closed
  have hquiet : session.Quiet := ⟨by decide +kernel, by decide +kernel, by decide +kernel⟩
  have hown : session.isRunning (session.spaceOf 0) = false := by decide +kernel
  have hall : (session.space 0).table.keys ⊆ [⟨5⟩, ⟨4⟩, ⟨3⟩] := by decide +kernel
  have havoids : ∀ step ∈ later, step.Avoids 0 2 := by
    unfold later Step.Avoids
    decide
  have hsame :=
    reset_acts_as_closing {} true 8 [{}, {}] steps 0 [⟨5⟩, ⟨4⟩, ⟨3⟩] (by decide) hquiet hown hall
  have htree : renewed.machine.tree = closed.machine.tree := by
    unfold renewed closed session
    exact hsame.1
  exact ⟨⟨hquiet, hown, hall, havoids⟩, htree, hsame.2.1 later havoids, by decide +kernel⟩

end Session

end ResourceHandles
