import ResourceHandles.Session.Step
import ResourceHandles.Proofs.Machine.Transitions

/-!
# What every step of a session keeps

A session changes its machine in a few ways only: tasks start calls and let them
advance, calls are given up, runtimes are renewed, and helpers write files and make
directories.  A property of machines that survives each of these holds after every
step, whatever runs beside it.
-/

namespace ResourceHandles

/-- A property of machines that nothing done in a session can end. -/
structure Lasting (P : Machine → Prop) : Prop where
  change : ∀ machine next, machine.Change next → P machine → P next
  addSpace : ∀ machine configuration, P machine → P (machine.addSpace configuration).1
  dropSpace : ∀ machine space, P machine → P (machine.dropSpace space)
  writeOpen :
    ∀ machine handle number data, P machine → P (machine.writeFile handle number data).1
  writeFile :
    ∀ (machine : Machine) path data tree,
      machine.tree.writeFile path data = .ok tree → P machine → P { machine with tree := tree }
  makeDirectories :
    ∀ machine path,
      P machine → P { machine with tree := (machine.tree.makeDirectories path).1 }
  save :
    ∀ machine path configuration,
      P machine → P { machine with tree := (Configuration.save machine.tree path configuration).1 }

namespace Session

/-- A session on a machine on which nothing has happened yet. -/
def boot (tree : FileTree) (routed : Bool) (capacity : Nat)
    (configurations : List Configuration) : Session :=
  (ofConfigurations { routed := routed, capacity := capacity } configurations).setTree tree

@[simp] theorem machine_boot
    (tree : FileTree) (routed : Bool) (capacity : Nat) (configurations : List Configuration) :
    (boot tree routed capacity configurations).machine =
      Machine.boot tree routed capacity configurations := rfl

/-- The session after some steps. -/
def afterAll (session : Session) (steps : List Step) : Session :=
  steps.foldl (fun session step => (session.step step).1) session

end Session

namespace Lasting

variable {P : Machine → Prop} {session : Session}

/-! ## Tasks -/

theorem task
    (hlasting : Lasting P) {machine next : Machine} {task later : Task}
    (hstep : task.step? machine = some (next, later)) (hmachine : P machine) : P next := by
  unfold Task.step? at hstep
  split at hstep
  · next ticket hwaiting =>
      split at hstep
      · cases hstep
      · next advanced hadvance =>
          cases hstep
          exact hlasting.change _ _ (Machine.advance_change hadvance) hmachine
      · next advanced reply hadvance =>
          cases hstep
          exact hlasting.change _ _ (Machine.advance_change hadvance) hmachine
  · split at hstep
    · cases hstep
    · cases hstep
    · next call hturn =>
        have hstart := hlasting.change _ _ (machine.start_change task.space call) hmachine
        split at hstep
        · next started reply hstarted =>
            cases hstep
            rwa [hstarted] at hstart
        · next started ticket hstarted =>
            cases hstep
            rwa [hstarted] at hstart

theorem stepFirst?
    (hlasting : Lasting P) {machine next : Machine} {tasks later : List Task}
    (hstep : Session.stepFirst? machine tasks = some (next, later)) (hmachine : P machine) :
    P next := by
  induction tasks generalizing later with
  | nil => cases hstep
  | cons task rest ih =>
      rw [Session.stepFirst?] at hstep
      split at hstep
      · next htask =>
          cases hstep
          exact hlasting.task htask hmachine
      · split at hstep
        · next hrest =>
            cases hstep
            exact ih hrest
        · cases hstep

theorem step?
    (hlasting : Lasting P) {next : Session} (hstep : session.step? = some next)
    (hsession : P session.machine) : P next.machine := by
  unfold Session.step? at hstep
  split at hstep
  · next machine tasks hfirst =>
      cases hstep
      exact hlasting.stepFirst? hfirst hsession
  · unfold Session.dropRetired? at hstep
    split at hstep
    · cases hstep
    · cases hstep
      exact hlasting.dropSpace _ _ hsession

theorem runSteps (hlasting : Lasting P) (fuel : Nat) (hsession : P session.machine) :
    P (Session.runSteps fuel session).machine := by
  induction fuel generalizing session with
  | zero => exact hsession
  | succ fuel ih =>
      rw [Session.runSteps]
      split
      · next hstep => exact ih (hlasting.step? hstep hsession)
      · exact hsession

theorem settle (hlasting : Lasting P) (hsession : P session.machine) :
    P session.settle.machine :=
  hlasting.runSteps _ hsession

theorem launch
    (hlasting : Lasting P) (space : Nat) (script : Script) (hsession : P session.machine) :
    P (session.launch space script).machine :=
  hlasting.settle hsession

theorem giveUp (hlasting : Lasting P) (number : Nat) (hsession : P session.machine) :
    P (session.giveUp number).machine := by
  unfold Session.giveUp
  split
  · exact hsession
  · next task htask =>
      split
      · exact hsession
      · apply hlasting.settle
        cases task.waiting with
        | none => exact hsession
        | some ticket => exact hlasting.change _ _ (session.machine.abandon_change ticket) hsession

/-! ## Waiting -/

theorem wake?
    (hlasting : Lasting P) {later : Session} (hwake : session.wake? = some later)
    (hsession : P session.machine) : P later.machine := by
  unfold Session.wake? at hwake
  split at hwake
  · cases hwake
  · cases hwake
    exact hlasting.settle hsession

theorem passTime
    (hlasting : Lasting P) (job : Job) (fuel : Nat) (hsession : P session.machine) :
    P (Session.passTime job fuel session).machine := by
  induction fuel generalizing session with
  | zero => exact hsession
  | succ fuel ih =>
      rw [Session.passTime]
      split
      · exact hsession
      · split
        · exact hsession
        · next hwake => exact ih (hlasting.wake? hwake hsession)

theorem await (hlasting : Lasting P) (job : Job) (hsession : P session.machine) :
    P (session.await job).1.machine :=
  hlasting.passTime job _ hsession

theorem run
    (hlasting : Lasting P) (space : Nat) (script : Script) (hsession : P session.machine) :
    P (session.run space script).1.machine :=
  hlasting.giveUp _ (hlasting.await _ (hlasting.launch space script hsession))

/-! ## Exchanges -/

theorem startServer
    (hlasting : Lasting P) (space : Nat) (address : String) (deadline : Nat)
    (hsession : P session.machine) :
    P (session.startServer space address deadline).1.machine := by
  have hlistening := hlasting.run space (.once (.listen address)) hsession
  unfold Session.startServer
  split
  · next listening listener hrun =>
      rw [hrun] at hlistening
      split
      · exact hlistening
      · exact hlasting.launch _ _ (hlasting.launch _ _ hlistening)
  · next failed outcome hother hrun =>
      rw [hrun] at hlistening
      exact hlistening

theorem beginExchange
    (hlasting : Lasting P) (space : Nat) (address : String) (deadline : Nat)
    (bodies : List Bytes) (hsession : P session.machine) :
    P (session.beginExchange space address deadline bodies).1.machine := by
  have hserving := hlasting.startServer space address deadline hsession
  unfold Session.beginExchange
  split
  · next failed fault hstart =>
      rw [hstart] at hserving
      exact hserving
  · next serving server hstart =>
      rw [hstart] at hserving
      exact hlasting.launch _ _ hserving

theorem serve
    (hlasting : Lasting P) (space : Nat) (address : String) (deadline : Nat)
    (bodies : List Bytes) (hsession : P session.machine) :
    P (session.serve space address deadline bodies).1.machine := by
  have hbegun := hlasting.beginExchange space address deadline bodies hsession
  unfold Session.serve
  split
  · next failed fault hbegin =>
      rw [hbegin] at hbegun
      exact hbegun
  · next begun job hbegin =>
      rw [hbegin] at hbegun
      exact hlasting.giveUp _ (hlasting.await job hbegun)

/-! ## Trials -/

theorem runCall
    (hlasting : Lasting P) (space : Nat) (call : Call) (hsession : P session.machine) :
    P (session.runCall space call).1.machine :=
  hlasting.run space _ hsession

theorem openLink
    (hlasting : Lasting P) (space : Nat) (file listener : Handle) (address : String)
    (hsession : P session.machine) :
    P (session.openLink space file listener address).1.machine := by
  have hconnected := hlasting.runCall space (.connect address) hsession
  unfold Session.openLink
  split
  · next connected caller hconnect =>
      rw [hconnect] at hconnected
      have haccepted := hlasting.runCall space (.accept listener) hconnected
      split
      · next accepted answerer haccept =>
          rw [haccept] at haccepted
          exact haccepted
      · next accepted outcome hother haccept =>
          rw [haccept] at haccepted
          exact haccepted
  · next connected outcome hother hconnect =>
      rw [hconnect] at hconnected
      exact hconnected

theorem openSockets
    (hlasting : Lasting P) (space : Nat) (file : Handle) (address : String)
    (endpoint : Endpoint) (hsession : P session.machine) :
    P (session.openSockets space file address endpoint).1.machine := by
  unfold Session.openSockets
  split
  · exact hsession
  · have hlistening := hlasting.runCall space (.listen address) hsession
    split
    · next listening listener hlisten =>
        rw [hlisten] at hlistening
        split
        · exact hlistening
        · exact hlasting.openLink space file listener address hlistening
    · next listening outcome hother hlisten =>
        rw [hlisten] at hlistening
        exact hlistening

theorem openTrial
    (hlasting : Lasting P) (space : Nat) (path : Path) (flags : Option (List OpenFlag))
    (address : String) (hsession : P session.machine) :
    P (session.openTrial space path flags address).1.machine := by
  have hopened := hlasting.runCall space (.open path flags) hsession
  unfold Session.openTrial
  split
  · next opened file hopen =>
      rw [hopen] at hopened
      split
      · exact hlasting.openSockets space file address _ hopened
      · exact hopened
  · next opened fault hopen =>
      rw [hopen] at hopened
      exact hopened
  · next opened outcome hhandle hfailed hopen =>
      rw [hopen] at hopened
      exact hopened

theorem writeTwice
    (hlasting : Lasting P) (resource : Option Resource) (data : Bytes)
    (hsession : P session.machine) :
    P (session.writeTwice resource data).1.machine := by
  unfold Session.writeTwice
  split
  · next number =>
      have hwritten := hlasting.writeOpen _ .invalid number data hsession
      split
      · next written handle stage fault hwrite =>
          rw [hwrite] at hwritten
          exact hwritten
      · next written reply hother hwrite =>
          rw [hwrite] at hwritten
          exact hlasting.writeOpen _ _ _ _ hwritten
  · exact hsession

theorem closeTrial
    (hlasting : Lasting P) (trial : Trial) (size : Nat) (data : Bytes)
    (hsession : P session.machine) :
    P (session.closeTrial trial size data).1.machine := by
  have hsent := hlasting.runCall trial.space (.write trial.caller data) hsession
  have hreceived := hlasting.runCall trial.space (.read trial.answerer) hsent
  have hclosed := hlasting.runCall trial.space (.close trial.caller) hreceived
  have hsilent := hlasting.runCall trial.space (.close trial.listener) hclosed
  have hwritten :=
    hlasting.writeTwice (session.machine.resource? trial.space trial.file) data hsilent
  unfold Session.closeTrial
  dsimp only
  split
  · next written fault hwrite =>
      rw [hwrite] at hwritten
      exact hwritten
  · next written hwrite =>
      rw [hwrite] at hwritten
      exact hwritten

theorem tryResources
    (hlasting : Lasting P) (configuration : Configuration) (path : Path)
    (flags : Option (List OpenFlag)) (address : String) (size : Nat) (data : Bytes)
    (hsession : P session.machine) :
    P (session.tryResources configuration path flags address size data).1.machine := by
  have hprepared :
      P (Session.machine { session with
        machine := (session.machine.addSpace { configuration with bufferSize := size }).1 }) :=
    hlasting.addSpace session.machine { configuration with bufferSize := size } hsession
  have hopened :=
    hlasting.openTrial
      (session.machine.addSpace { configuration with bufferSize := size }).2 path flags address
      hprepared
  unfold Session.tryResources
  dsimp only
  apply hlasting.settle
  dsimp only
  split
  · next opened fault hopen =>
      rw [hopen] at hopened
      exact hopened
  · next opened trial hopen =>
      rw [hopen] at hopened
      exact hlasting.closeTrial trial size data hopened

/-! ## Steps -/

theorem reset (hlasting : Lasting P) (runtime : Nat) (hsession : P session.machine) :
    P (session.reset runtime).machine := by
  unfold Session.reset
  exact hlasting.settle (hlasting.addSpace _ _ hsession)

theorem spawn
    (hlasting : Lasting P) (name : String) {inner : Step}
    (hinner : ∀ {session : Session}, P session.machine → P (session.step inner).1.machine)
    (hsession : P session.machine) : P (session.step (.spawn name inner)).1.machine := by
  have hlaunch : ∀ {session : Session} space script, P session.machine →
      P (session.launchNamed name space script).machine :=
    fun space script hsession => hlasting.launch space script hsession
  by_cases hserve : ∃ runtime address deadline bodies,
      inner = .serve runtime address deadline bodies
  · obtain ⟨runtime, address, deadline, bodies, rfl⟩ := hserve
    have hbegun :=
      hlasting.beginExchange (session.spaceOf runtime) address deadline bodies hsession
    rw [Session.step]
    split
    · next begun job hbegin =>
        rw [hbegin] at hbegun
        exact hbegun
    · next failed fault hbegin =>
        rw [hbegin] at hbegun
        exact hlaunch _ _ hbegun
  · rw [Session.step]
    · split
      · exact hlaunch _ _ hsession
      · exact hlaunch _ _ (hinner hsession)
    · intro runtime address deadline bodies hinnerServe
      exact hserve ⟨runtime, address, deadline, bodies, hinnerServe⟩

/-- Whatever a step does and whatever runs beside it, a lasting property survives it. -/
theorem step (hlasting : Lasting P) (step : Step) (hsession : P session.machine) :
    P (session.step step).1.machine := by
  induction step generalizing session with
  | spawn name inner ih => exact hlasting.spawn name ih hsession
  | serve runtime address deadline bodies => exact hlasting.serve _ _ _ _ hsession
  | tryResources runtime path flags address size data =>
      exact hlasting.tryResources _ _ _ _ _ _ hsession
  | reset runtime => exact hlasting.reset runtime hsession
  | save path configuration => exact hlasting.save _ _ _ hsession
  | makeDirectories path => exact hlasting.makeDirectories _ _ hsession
  | seed path data =>
      rw [Session.step]
      unfold Session.changed
      split
      · exact hsession
      · next tree hwrite => exact hlasting.writeFile _ _ _ _ hwrite hsession
  | join name =>
      rw [Session.step]
      unfold Session.join
      split
      · exact hsession
      · exact hlasting.await _ hsession
  | call runtime call => exact hlasting.run _ _ hsession
  | lend runtime handle => exact hlasting.run _ _ hsession
  | drain runtime handle => exact hlasting.run _ _ hsession
  | gather runtime handle wanted => exact hlasting.run _ _ hsession
  | roundTrip runtime path data => exact hlasting.run _ _ hsession
  | request runtime address body => exact hlasting.run _ _ hsession
  | classify runtime handle => exact hsession
  | configuration runtime => exact hsession
  | load path => exact hsession
  | content path => exact hsession
  | text path => exact hsession
  | list => exact hsession
  | hasEnded name => exact hsession

theorem afterAll (hlasting : Lasting P) (steps : List Step) (hsession : P session.machine) :
    P (session.afterAll steps).machine := by
  induction steps generalizing session with
  | nil => exact hsession
  | cons step steps ih => exact ih (hlasting.step step hsession)

end Lasting

end ResourceHandles
