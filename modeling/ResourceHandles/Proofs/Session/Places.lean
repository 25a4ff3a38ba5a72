import ResourceHandles.Proofs.Session.Owners

/-!
# The places of runtimes and tasks

Whatever is done in a session, spaces are only added, and they keep their configurations.  So
every runtime has a space of its own, and every task runs on a space that is there.
-/

namespace ResourceHandles

namespace Machine

variable {machine next : Machine}

/-! ## Machines that grow -/

theorem space_of_missing {space : Nat} (hmissing : machine.spaces.length ≤ space) :
    machine.space space = {} := by
  unfold Machine.space
  rw [List.getD_eq_getElem?_getD, List.getElem?_eq_none hmissing]
  rfl

/-- A machine in which the spaces of another are still there, with the same configurations, and
in which no ticket of the other is given out again. -/
structure Grown (machine next : Machine) : Prop where
  spaces : machine.spaces.length ≤ next.spaces.length
  configuration :
    ∀ space, space < machine.spaces.length →
      (next.space space).configuration = (machine.space space).configuration
  ticket : machine.nextTicket ≤ next.nextTicket

namespace Grown

theorem refl (machine : Machine) : machine.Grown machine :=
  ⟨le_rfl, fun _ _ => rfl, le_rfl⟩

theorem trans {last : Machine} (hfirst : machine.Grown next) (hrest : next.Grown last) :
    machine.Grown last where
  spaces := hfirst.spaces.trans hrest.spaces
  configuration space hspace :=
    (hrest.configuration space (hspace.trans_le hfirst.spaces)).trans
      (hfirst.configuration space hspace)
  ticket := hfirst.ticket.trans hrest.ticket

end Grown

theorem Change.grown (hchange : machine.Change next) : machine.Grown next :=
  ⟨hchange.length_spaces.ge, fun space _ => hchange.rebinds.configuration space,
    hchange.nextTicket_le⟩

theorem grown_addSpace (machine : Machine) (configuration : Configuration) :
    machine.Grown (machine.addSpace configuration).1 := by
  refine ⟨?_, ?_, le_rfl⟩
  · show _ ≤ (machine.spaces ++ [_]).length
    simp
  · intro space hspace
    rw [space_addSpace, if_neg hspace.ne]

theorem grown_dropSpace (machine : Machine) (space : Nat) :
    machine.Grown (machine.dropSpace space) := by
  have hspaces : (machine.dropSpace space).spaces = (machine.setTable space {}).spaces :=
    spaces_dropAll _ _
  refine ⟨?_, ?_, (nextTicket_dropAll (machine.setTable space {}) _).ge⟩
  · rw [hspaces, length_spaces_setTable]
  · intro other _
    rw [space_congr hspaces, configuration_setTable]

theorem grown_writeFile (machine : Machine) (handle : Handle) (number : Nat) (data : Bytes) :
    machine.Grown (machine.writeFile handle number data).1 := by
  unfold Machine.writeFile
  split
  · exact .refl machine
  · split
    · exact .refl machine
    · exact ⟨le_rfl, fun _ _ => rfl, le_rfl⟩

theorem lasting_grown (base : Machine) : Lasting base.Grown where
  change _ _ hchange hgrown := hgrown.trans hchange.grown
  addSpace machine configuration hgrown := hgrown.trans (machine.grown_addSpace configuration)
  dropSpace machine space hgrown := hgrown.trans (machine.grown_dropSpace space)
  writeOpen machine handle number data hgrown :=
    hgrown.trans (machine.grown_writeFile handle number data)
  writeFile _ _ _ _ _ hgrown := { hgrown with }
  makeDirectories _ _ hgrown := { hgrown with }
  save _ _ _ hgrown := { hgrown with }

end Machine

/-! ## Tasks -/

theorem Task.space_step?
    {machine next : Machine} {task later : Task} (hstep : task.step? machine = some (next, later)) :
    later.space = task.space := by
  unfold Task.step? at hstep
  split at hstep
  · split at hstep
    · cases hstep
    · cases hstep
      rfl
    · cases hstep
      rfl
  · split at hstep
    · cases hstep
    · cases hstep
    · split at hstep
      · cases hstep
        rfl
      · cases hstep
        rfl

theorem Session.spaces_stepFirst?
    {machine next : Machine} {tasks later : List Task}
    (hstep : Session.stepFirst? machine tasks = some (next, later)) :
    later.map Task.space = tasks.map Task.space := by
  induction tasks generalizing later with
  | nil => cases hstep
  | cons task rest ih =>
      rw [Session.stepFirst?] at hstep
      split at hstep
      · next htask =>
          cases hstep
          rw [List.map_cons, List.map_cons, Task.space_step? htask]
      · split at hstep
        · next hrest =>
            cases hstep
            rw [List.map_cons, List.map_cons, ih hrest]
        · cases hstep

/-! ## Sessions -/

/-- There are as many runtimes as given, each with a space of its own, and every task runs on a
space, of which there are at least a given number. -/
structure Session.Placed (session : Session) (runtimes count : Nat) : Prop where
  spaces : count ≤ session.machine.spaces.length
  inhabited : 0 < runtimes
  length : session.current.length = runtimes
  current : ∀ space ∈ session.current, space < session.machine.spaces.length
  apart : session.current.Nodup
  tasks : ∀ space ∈ session.tasks.map Task.space, space < session.machine.spaces.length

namespace Session.Placed

variable {session : Session} {runtimes count space : Nat}

theorem grow
    {machine : Machine} {tasks : List Task} (hplaced : session.Placed runtimes count)
    (hlength : session.machine.spaces.length ≤ machine.spaces.length)
    (htasks : tasks.map Task.space ⊆ session.tasks.map Task.space) :
    Session.Placed { session with machine := machine, tasks := tasks } runtimes count where
  spaces := hplaced.spaces.trans hlength
  inhabited := hplaced.inhabited
  length := hplaced.length
  current space hmem := (hplaced.current space hmem).trans_le hlength
  apart := hplaced.apart
  tasks space hmem := (hplaced.tasks space (htasks hmem)).trans_le hlength

theorem step?
    {next : Session} (hplaced : session.Placed runtimes count) (hstep : session.step? = some next) :
    next.Placed runtimes count := by
  have hgrown := (Machine.lasting_grown session.machine).step? hstep (.refl _)
  unfold Session.step? at hstep
  split at hstep
  · next machine tasks hfirst =>
      cases hstep
      exact hplaced.grow hgrown.spaces (Session.spaces_stepFirst? hfirst ▸ List.Subset.refl _)
  · unfold Session.dropRetired? at hstep
    split at hstep
    · cases hstep
    · cases hstep
      exact { hplaced.grow hgrown.spaces (List.Subset.refl _) with }

theorem runSteps (hplaced : session.Placed runtimes count) (fuel : Nat) :
    (Session.runSteps fuel session).Placed runtimes count := by
  induction fuel generalizing session with
  | zero => exact hplaced
  | succ fuel ih =>
      rw [Session.runSteps]
      split
      · next hstep => exact ih (hplaced.step? hstep)
      · exact hplaced

theorem settle (hplaced : session.Placed runtimes count) : session.settle.Placed runtimes count :=
  hplaced.runSteps _

theorem launch
    (hplaced : session.Placed runtimes count) (hspace : space < count) (script : Script) :
    (session.launch space script).Placed runtimes count := by
  apply settle
  refine { hplaced with tasks := ?_ }
  intro other hmem
  rw [List.map_append, List.mem_append] at hmem
  rcases hmem with hold | hnew
  · exact hplaced.tasks other hold
  · rw [List.mem_singleton.mp hnew]
    exact hspace.trans_le hplaced.spaces

theorem giveUp (hplaced : session.Placed runtimes count) (number : Nat) :
    (session.giveUp number).Placed runtimes count := by
  unfold Session.giveUp
  split
  · exact hplaced
  · next task htask =>
      split
      · exact hplaced
      · apply settle
        apply hplaced.grow
        · cases task.waiting with
          | none => exact le_rfl
          | some ticket => exact (session.machine.abandon_change ticket).length_spaces.ge
        · intro other hmem
          obtain ⟨later, hlater, rfl⟩ := List.mem_map.mp hmem
          rcases List.mem_or_eq_of_mem_set hlater with hold | hended
          · exact List.mem_map_of_mem hold
          · rw [hended]
            exact List.mem_map.mpr ⟨task, List.mem_of_getElem? htask, rfl⟩

/-! ### Waiting -/

theorem wake?
    {later : Session} (hplaced : session.Placed runtimes count)
    (hwake : session.wake? = some later) : later.Placed runtimes count := by
  unfold Session.wake? at hwake
  split at hwake
  · cases hwake
  · next number due hnext =>
      cases hwake
      apply settle
      refine { hplaced with tasks := ?_ }
      intro other hmem
      apply hplaced.tasks
      rwa [map_modify] at hmem
      intro task
      unfold Task.wake
      split <;> rfl

theorem passTime (hplaced : session.Placed runtimes count) (job : Job) (fuel : Nat) :
    (Session.passTime job fuel session).Placed runtimes count := by
  induction fuel generalizing session with
  | zero => exact hplaced
  | succ fuel ih =>
      rw [Session.passTime]
      split
      · exact hplaced
      · split
        · exact hplaced
        · next hwake => exact ih (hplaced.wake? hwake)

theorem await (hplaced : session.Placed runtimes count) (job : Job) :
    (session.await job).1.Placed runtimes count :=
  hplaced.passTime job _

theorem run (hplaced : session.Placed runtimes count) (hspace : space < count) (script : Script) :
    (session.run space script).1.Placed runtimes count := by
  have hleft := ((hplaced.launch hspace script).await (.task session.tasks.length)).giveUp
    session.tasks.length
  exact hleft.grow le_rfl (List.map_subset _ (List.take_subset _ _))

/-! ### Exchanges -/

theorem startServer
    (hplaced : session.Placed runtimes count) (hspace : space < count) (address : String)
    (deadline : Nat) : (session.startServer space address deadline).1.Placed runtimes count := by
  have hlistening := hplaced.run hspace (.once (.listen address))
  unfold Session.startServer
  split
  · next listening listener hrun =>
      rw [hrun] at hlistening
      split
      · exact hlistening
      · exact (hlistening.launch hspace _).launch hspace _
  · next failed outcome hother hrun =>
      rw [hrun] at hlistening
      exact hlistening

theorem beginExchange
    (hplaced : session.Placed runtimes count) (hspace : space < count) (address : String)
    (deadline : Nat) (bodies : List Bytes) :
    (session.beginExchange space address deadline bodies).1.Placed runtimes count := by
  have hserving := hplaced.startServer hspace address deadline
  unfold Session.beginExchange
  split
  · next failed fault hstart =>
      rw [hstart] at hserving
      exact hserving
  · next serving server hstart =>
      rw [hstart] at hserving
      exact hserving.launch hspace _

theorem serve
    (hplaced : session.Placed runtimes count) (hspace : space < count) (address : String)
    (deadline : Nat) (bodies : List Bytes) :
    (session.serve space address deadline bodies).1.Placed runtimes count := by
  have hbegun := hplaced.beginExchange hspace address deadline bodies
  unfold Session.serve
  split
  · next failed fault hbegin =>
      rw [hbegin] at hbegun
      exact hbegun
  · next begun job hbegin =>
      rw [hbegin] at hbegun
      exact (hbegun.await job).giveUp _

/-! ### Trials -/

theorem openLink
    (hplaced : session.Placed runtimes count) (hspace : space < count) (file listener : Handle)
    (address : String) :
    (session.openLink space file listener address).1.Placed runtimes count := by
  have hconnected := hplaced.run hspace (.once (.connect address))
  unfold Session.openLink Session.runCall
  split
  · next connected caller hconnect =>
      rw [hconnect] at hconnected
      have haccepted := hconnected.run hspace (.once (.accept listener))
      split
      · next accepted answerer haccept =>
          rw [haccept] at haccepted
          exact haccepted
      · next accepted outcome hother haccept =>
          rw [haccept] at haccepted
          exact haccepted
  · next connected outcome hother hconnect =>
      rw [hconnect] at hconnected
      exact hconnected

theorem openSockets
    (hplaced : session.Placed runtimes count) (hspace : space < count) (file : Handle)
    (address : String) (endpoint : Endpoint) :
    (session.openSockets space file address endpoint).1.Placed runtimes count := by
  have hlistening := hplaced.run hspace (.once (.listen address))
  unfold Session.openSockets Session.runCall
  split
  · exact hplaced
  · split
    · next listening listener hlisten =>
        rw [hlisten] at hlistening
        split
        · exact hlistening
        · exact hlistening.openLink hspace file listener address
    · next listening outcome hother hlisten =>
        rw [hlisten] at hlistening
        exact hlistening

theorem openTrial
    (hplaced : session.Placed runtimes count) (hspace : space < count) (path : Path)
    (flags : Option (List OpenFlag)) (address : String) :
    (session.openTrial space path flags address).1.Placed runtimes count := by
  have hopened := hplaced.run hspace (.once (.open path flags))
  unfold Session.openTrial Session.runCall
  split
  · next opened file hopen =>
      rw [hopen] at hopened
      split
      · exact hopened.openSockets hspace file address _
      · exact hopened
  · next opened fault hopen =>
      rw [hopen] at hopened
      exact hopened
  · next opened outcome hhandle hfailed hopen =>
      rw [hopen] at hopened
      exact hopened

theorem setMachine
    {machine : Machine} (hplaced : session.Placed runtimes count)
    (hlength : session.machine.spaces.length ≤ machine.spaces.length) :
    Session.Placed { session with machine := machine } runtimes count :=
  hplaced.grow hlength (List.Subset.refl _)

theorem writeTwice
    (hplaced : session.Placed runtimes count) (resource : Option Resource) (data : Bytes) :
    (session.writeTwice resource data).1.Placed runtimes count := by
  unfold Session.writeTwice
  split
  · next number =>
      have hwritten := session.machine.grown_writeFile .invalid number data
      split
      · next written handle stage fault hwrite =>
          rw [hwrite] at hwritten
          exact hplaced.setMachine hwritten.spaces
      · next written reply hother hwrite =>
          rw [hwrite] at hwritten
          exact hplaced.setMachine
            (hwritten.trans (written.grown_writeFile .invalid number data)).spaces
  · exact hplaced

theorem closeTrial
    {trial : Trial} (hplaced : session.Placed runtimes count) (hspace : trial.space < count)
    (size : Nat) (data : Bytes) : (session.closeTrial trial size data).1.Placed runtimes count := by
  have hsent := hplaced.run hspace (.once (.write trial.caller data))
  have hreceived := hsent.run hspace (.once (.read trial.answerer))
  have hclosed := hreceived.run hspace (.once (.close trial.caller))
  have hsilent := hclosed.run hspace (.once (.close trial.listener))
  have hwritten :=
    hsilent.writeTwice (session.machine.resource? trial.space trial.file) data
  unfold Session.closeTrial Session.runCall
  dsimp only
  split
  · next written fault hwrite =>
      rw [hwrite] at hwritten
      exact hwritten
  · next written hwrite =>
      rw [hwrite] at hwritten
      exact hwritten

end Session.Placed

/-- A trial is made on the space that it is opened for. -/
theorem Session.space_openTrial
    {session opened : Session} {space : Nat} {path : Path} {flags : Option (List OpenFlag)}
    {address : String} {trial : Trial}
    (hopen : session.openTrial space path flags address = (opened, .ok trial)) :
    trial.space = space := by
  have hlink : ∀ {session : Session} {file listener : Handle},
      session.openLink space file listener address = (opened, .ok trial) →
        trial.space = space := by
    intro session file listener hlinked
    unfold Session.openLink at hlinked
    split at hlinked
    · split at hlinked
      · cases hlinked
        rfl
      · cases hlinked
    · cases hlinked
  have hsockets : ∀ {session : Session} {file : Handle} {endpoint : Endpoint},
      session.openSockets space file address endpoint = (opened, .ok trial) →
        trial.space = space := by
    intro session file endpoint hopened
    unfold Session.openSockets at hopened
    split at hopened
    · cases hopened
    · split at hopened
      · split at hopened
        · cases hopened
        · exact hlink hopened
      · cases hopened
  unfold Session.openTrial at hopen
  split at hopen
  · split at hopen
    · exact hsockets hopen
    · cases hopen
  · cases hopen
  · cases hopen

namespace Session.Placed

variable {session : Session} {runtimes count space : Nat}

theorem tryResources
    (hplaced : session.Placed runtimes count) (configuration : Configuration) (path : Path)
    (flags : Option (List OpenFlag)) (address : String) (size : Nat) (data : Bytes) :
    (session.tryResources configuration path flags address size data).1.Placed runtimes count := by
  have hgrown := session.machine.grown_addSpace { configuration with bufferSize := size }
  have hprepared : Session.Placed
      { session with
        machine := (session.machine.addSpace { configuration with bufferSize := size }).1 }
      runtimes (session.machine.spaces.length + 1) :=
    { hplaced.setMachine hgrown.spaces with
      spaces := by
        show _ ≤ (session.machine.spaces ++ [_]).length
        simp }
  have hspace : session.machine.spaces.length < session.machine.spaces.length + 1 := by omega
  have hopened := hprepared.openTrial hspace path flags address
  have hcount : count ≤ session.machine.spaces.length + 1 := hplaced.spaces.trans (Nat.le_succ _)
  unfold Session.tryResources
  dsimp only [Machine.addSpace] at hopened ⊢
  generalize hopen : Session.openTrial _ session.machine.spaces.length path flags address = begun
    at hopened ⊢
  obtain ⟨opened, outcome⟩ := begun
  cases outcome with
  | error fault => exact settle { hopened with spaces := hcount.trans hopened.spaces }
  | ok trial =>
      have hplace : trial.space < session.machine.spaces.length + 1 := by
        rw [Session.space_openTrial hopen]
        exact hspace
      have hclosed := hopened.closeTrial hplace size data
      exact settle { hclosed with spaces := hcount.trans hclosed.spaces }

/-! ### Steps -/

theorem spaceOf_lt (hplaced : session.Placed runtimes count) (runtime : Nat) :
    session.spaceOf runtime < session.machine.spaces.length := by
  unfold Session.spaceOf
  rw [List.getD_eq_getElem?_getD]
  cases hspace : session.current[runtime]? with
  | some space => exact hplaced.current space (List.mem_of_getElem? hspace)
  | none =>
      have hfirst := List.getElem_mem (hplaced.length ▸ hplaced.inhabited)
      exact Nat.zero_lt_of_lt (hplaced.current _ hfirst)

theorem getElem?_current
    {runtime : Nat} (hplaced : session.Placed runtimes count) (hruntime : runtime < runtimes) :
    session.current[runtime]? = some (session.spaceOf runtime) := by
  unfold Session.spaceOf
  rw [List.getD_eq_getElem?_getD, List.getElem?_eq_getElem (hplaced.length.symm ▸ hruntime)]
  rfl

/-- The session with at least as many spaces as it has. -/
theorem here (hplaced : session.Placed runtimes count) :
    session.Placed runtimes session.machine.spaces.length :=
  { hplaced with spaces := le_rfl }

theorem reset (hplaced : session.Placed runtimes count) (runtime : Nat) :
    (session.reset runtime).Placed runtimes count := by
  have hgrown := session.machine.grown_addSpace (session.space runtime).configuration
  have hlonger := hplaced.setMachine hgrown.spaces
  unfold Session.reset
  apply settle
  refine { hlonger with length := ?_, current := ?_, apart := ?_ }
  · exact List.length_set.trans hplaced.length
  · intro space hmem
    rcases List.mem_or_eq_of_mem_set hmem with hold | rfl
    · exact hlonger.current space hold
    · show session.machine.spaces.length < (session.machine.spaces ++ [_]).length
      simp
  · have hnew : session.machine.spaces.length ∉ session.current :=
      fun hmem => lt_irrefl _ (hplaced.current _ hmem)
    exact hplaced.apart.set hnew

theorem launchNamed
    (hplaced : session.Placed runtimes count) (hspace : space < count) (name : String)
    (script : Script) : (session.launchNamed name space script).Placed runtimes count :=
  { hplaced.launch hspace script with }

theorem spawn
    (hplaced : session.Placed runtimes count) (name : String) {inner : Step}
    (hinner : (session.step inner).1.Placed runtimes count) :
    (session.step (.spawn name inner)).1.Placed runtimes count := by
  by_cases hserve : ∃ runtime address deadline bodies,
      inner = .serve runtime address deadline bodies
  · obtain ⟨runtime, address, deadline, bodies, rfl⟩ := hserve
    have hbegun := hplaced.here.beginExchange (hplaced.spaceOf_lt runtime) address deadline bodies
    rw [Session.step]
    split
    · next begun job hbegin =>
        rw [hbegin] at hbegun
        exact { hbegun with spaces := hplaced.spaces.trans hbegun.spaces }
    · next failed fault hbegin =>
        rw [hbegin] at hbegun
        have hnamed :=
          hbegun.launchNamed (hplaced.spaceOf_lt runtime) name (.ended (.failed fault))
        exact { hnamed with spaces := hplaced.spaces.trans hnamed.spaces }
  · rw [Session.step]
    · split
      · next runtime script hscript =>
          have hnamed := hplaced.here.launchNamed (hplaced.spaceOf_lt runtime) name script
          exact { hnamed with spaces := hplaced.spaces.trans hnamed.spaces }
      · have hnamed := hinner.here.launchNamed (hinner.spaceOf_lt 0) name
          (.ended (session.step inner).2)
        exact { hnamed with spaces := hinner.spaces.trans hnamed.spaces }
    · intro runtime address deadline bodies hinnerServe
      exact hserve ⟨runtime, address, deadline, bodies, hinnerServe⟩

/-- Whatever a step does, runtimes and tasks keep their places. -/
theorem step (hplaced : session.Placed runtimes count) (step : Step) :
    (session.step step).1.Placed runtimes count := by
  have hrun : ∀ runtime script,
      (session.run (session.spaceOf runtime) script).1.Placed runtimes count := by
    intro runtime script
    have hleft := hplaced.here.run (hplaced.spaceOf_lt runtime) script
    exact { hleft with spaces := hplaced.spaces.trans hleft.spaces }
  induction step with
  | spawn name inner ih => exact hplaced.spawn name ih
  | serve runtime address deadline bodies =>
      have hserved := hplaced.here.serve (hplaced.spaceOf_lt runtime) address deadline bodies
      exact { hserved with spaces := hplaced.spaces.trans hserved.spaces }
  | tryResources runtime path flags address size data =>
      exact hplaced.tryResources _ path flags address size data
  | reset runtime => exact hplaced.reset runtime
  | save path configuration => exact { hplaced with }
  | makeDirectories path => exact { hplaced with }
  | seed path data =>
      rw [Session.step]
      unfold Session.changed
      split
      · exact hplaced
      · exact { hplaced with }
  | join name =>
      rw [Session.step]
      unfold Session.join
      split
      · exact hplaced
      · next job hjob =>
          have hforgotten :
              Session.Placed { session with names := session.names.erase name } runtimes count :=
            { hplaced with }
          exact hforgotten.await job
  | call runtime call => exact hrun runtime _
  | lend runtime handle => exact hrun runtime _
  | drain runtime handle => exact hrun runtime _
  | gather runtime handle wanted => exact hrun runtime _
  | roundTrip runtime path data => exact hrun runtime _
  | request runtime address body => exact hrun runtime _
  | classify runtime handle => exact hplaced
  | configuration runtime => exact hplaced
  | load path => exact hplaced
  | content path => exact hplaced
  | text path => exact hplaced
  | list => exact hplaced
  | hasEnded name => exact hplaced

theorem afterAll (hplaced : session.Placed runtimes count) (steps : List Step) :
    (session.afterAll steps).Placed runtimes count := by
  induction steps generalizing session with
  | nil => exact hplaced
  | cons step rest ih => exact ih (hplaced.step step)

theorem boot
    (tree : FileTree) (routed : Bool) (capacity : Nat) {configurations : List Configuration}
    (hsome : 0 < configurations.length) :
    (boot tree routed capacity configurations).Placed
      configurations.length configurations.length where
  spaces := by simp [Session.boot, ofConfigurations, setTree]
  inhabited := hsome
  length := List.length_range
  current space hmem := by
    simpa [Session.boot, ofConfigurations, setTree] using hmem
  apart := List.nodup_range
  tasks := by simp [Session.boot, ofConfigurations, setTree]

end Session.Placed

end ResourceHandles
