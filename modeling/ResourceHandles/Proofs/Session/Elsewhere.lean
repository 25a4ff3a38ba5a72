import ResourceHandles.Proofs.Session.Mirroring

/-!
# Steps of the other runtimes

Every step of the other runtimes ends alike in two sessions that differ in the space of one
runtime, whether it serves, tries resources out, renews a runtime or goes on beside the later
steps.  So does every row of such steps.
-/

namespace ResourceHandles

/-- The runtimes that a step is done on. -/
def Step.runtimes : Step → List Nat
  | .call runtime _ => [runtime]
  | .lend runtime _ => [runtime]
  | .drain runtime _ => [runtime]
  | .gather runtime _ _ => [runtime]
  | .roundTrip runtime _ _ => [runtime]
  | .request runtime _ _ => [runtime]
  | .serve runtime _ _ _ => [runtime]
  | .tryResources runtime _ _ _ _ _ => [runtime]
  | .classify runtime _ => [runtime]
  | .configuration runtime => [runtime]
  | .reset runtime => [runtime]
  | .spawn _ inner => inner.runtimes
  | _ => []

/-- A step that is done on other runtimes than one, of those that there are. -/
def Step.Avoids (step : Step) (runtime count : Nat) : Prop :=
  ∀ other ∈ step.runtimes, other ≠ runtime ∧ other < count

namespace Renewal

variable {renewal : Renewal} {runtime count space : Nat} {first second : Session}

namespace MirrorsSession

/-! ## Exchanges -/

theorem startServer
    (hmirrors : renewal.MirrorsSession runtime count first second) (hlive : renewal.Live space)
    (address : String) (deadline : Nat) :
    renewal.AlikeSession runtime count (first.startServer space address deadline)
      (second.startServer (renewal.rename space) address deadline) := by
  have hrun := hmirrors.run hlive (.once (.listen address))
  unfold Session.startServer
  generalize first.run space (.once (.listen address)) = listened at hrun ⊢
  generalize second.run (renewal.rename space) (.once (.listen address)) = further at hrun ⊢
  obtain ⟨listening, outcome⟩ := listened
  obtain ⟨mirror, same⟩ := further
  obtain ⟨hlistening, rfl⟩ := hrun
  cases same with
  | handle listener =>
      dsimp only at hlistening ⊢
      split
      · exact ⟨hlistening, rfl⟩
      · rw [hlistening.clock]
        have hclosing :=
          hlistening.launch (.delayed (listening.clock + deadline) (.close listener))
            fun _ => ⟨hlive, rfl⟩
        exact ⟨hclosing.launch _ fun _ => ⟨hlive, rfl⟩,
          congrArg Except.ok hclosing.tasks.length_eq.symm⟩
  | _ => exact ⟨hlistening, rfl⟩

theorem beginExchange
    (hmirrors : renewal.MirrorsSession runtime count first second) (hlive : renewal.Live space)
    (address : String) (deadline : Nat) (bodies : List Bytes) :
    renewal.AlikeSession runtime count (first.beginExchange space address deadline bodies)
      (second.beginExchange (renewal.rename space) address deadline bodies) := by
  have hstart := hmirrors.startServer hlive address deadline
  unfold Session.beginExchange
  generalize first.startServer space address deadline = started at hstart ⊢
  generalize second.startServer (renewal.rename space) address deadline = further at hstart ⊢
  obtain ⟨serving, outcome⟩ := started
  obtain ⟨mirror, same⟩ := further
  obtain ⟨hserving, rfl⟩ := hstart
  cases same with
  | error fault => exact ⟨hserving, rfl⟩
  | ok server =>
      have hlength := hserving.tasks.length_eq
      dsimp only at hserving hlength ⊢
      rw [hlength]
      exact ⟨hserving.launch _ fun _ => ⟨hlive, rfl⟩, rfl⟩

theorem serve
    (hmirrors : renewal.MirrorsSession runtime count first second) (hlive : renewal.Live space)
    (address : String) (deadline : Nat) (bodies : List Bytes) :
    renewal.AlikeSession runtime count (first.serve space address deadline bodies)
      (second.serve (renewal.rename space) address deadline bodies) := by
  have hbegin := hmirrors.beginExchange hlive address deadline bodies
  unfold Session.serve
  generalize first.beginExchange space address deadline bodies = begun at hbegin ⊢
  generalize second.beginExchange (renewal.rename space) address deadline bodies = further
    at hbegin ⊢
  obtain ⟨serving, outcome⟩ := begun
  obtain ⟨mirror, same⟩ := further
  obtain ⟨hserving, rfl⟩ := hbegin
  cases same with
  | error fault => exact ⟨hserving, rfl⟩
  | ok job =>
      have hlength := hserving.tasks.length_eq
      have hawait := hserving.await job
      dsimp only at hlength ⊢
      rw [hlength]
      exact ⟨hawait.mirrors.giveUp _, hawait.same⟩

/-! ## Trials -/

theorem runCall
    (hmirrors : renewal.MirrorsSession runtime count first second) (hlive : renewal.Live space)
    (call : Call) :
    renewal.AlikeSession runtime count (first.runCall space call)
      (second.runCall (renewal.rename space) call) :=
  hmirrors.run hlive (.once call)

end MirrorsSession

/-- What is tried out in the second session as in the first. -/
inductive MirrorsTrial (renewal : Renewal) : Except Fault Trial → Except Fault Trial → Prop where
  | error (fault : Fault) : MirrorsTrial renewal (.error fault) (.error fault)
  | ok {trial : Trial} (hlive : renewal.Live trial.space) :
      MirrorsTrial renewal (.ok trial)
        (.ok { trial with space := renewal.rename trial.space })

/-- Two trials that are opened alike, or fail alike. -/
structure OpensAlike (renewal : Renewal) (runtime count : Nat)
    (first second : Session × Except Fault Trial) : Prop where
  mirrors : renewal.MirrorsSession runtime count first.1 second.1
  trial : renewal.MirrorsTrial first.2 second.2

namespace MirrorsSession

theorem openLink
    (hmirrors : renewal.MirrorsSession runtime count first second) (hlive : renewal.Live space)
    (file listener : Handle) (address : String) :
    renewal.OpensAlike runtime count (first.openLink space file listener address)
      (second.openLink (renewal.rename space) file listener address) := by
  have hconnect := hmirrors.runCall hlive (.connect address)
  unfold Session.openLink
  generalize first.runCall space (.connect address) = connected at hconnect ⊢
  generalize second.runCall (renewal.rename space) (.connect address) = further at hconnect ⊢
  obtain ⟨session, outcome⟩ := connected
  obtain ⟨mirror, same⟩ := further
  obtain ⟨hconnected, rfl⟩ := hconnect
  cases same with
  | handle caller =>
      have haccept := hconnected.runCall hlive (.accept listener)
      dsimp only at haccept ⊢
      generalize session.runCall space (.accept listener) = accepted at haccept ⊢
      generalize mirror.runCall (renewal.rename space) (.accept listener) = further at haccept ⊢
      obtain ⟨session, outcome⟩ := accepted
      obtain ⟨mirror, same⟩ := further
      obtain ⟨haccepted, rfl⟩ := haccept
      cases same with
      | handle answerer =>
          exact ⟨haccepted,
            @MirrorsTrial.ok renewal ⟨space, file, listener, caller, answerer⟩ hlive⟩
      | _ => exact ⟨haccepted, .error _⟩
  | _ => exact ⟨hconnected, .error _⟩

theorem openSockets
    (hmirrors : renewal.MirrorsSession runtime count first second) (hlive : renewal.Live space)
    (file : Handle) (address : String) (endpoint : Endpoint) :
    renewal.OpensAlike runtime count (first.openSockets space file address endpoint)
      (second.openSockets (renewal.rename space) file address endpoint) := by
  unfold Session.openSockets
  rw [hmirrors.machine.space space hlive, hmirrors.machine.bindAt_eq]
  cases first.machine.bindAt (first.machine.space space).configuration.mode endpoint with
  | error fault => exact ⟨hmirrors, .error _⟩
  | ok bound =>
      have hlisten := hmirrors.runCall hlive (.listen address)
      dsimp only
      generalize first.runCall space (.listen address) = listened at hlisten ⊢
      generalize second.runCall (renewal.rename space) (.listen address) = further at hlisten ⊢
      obtain ⟨session, outcome⟩ := listened
      obtain ⟨mirror, same⟩ := further
      obtain ⟨hlistening, rfl⟩ := hlisten
      cases same with
      | handle listener =>
          have hreach := hlistening.machine.reach_eq endpoint
          dsimp only at hreach ⊢
          rw [hreach]
          cases session.machine.reach endpoint with
          | error fault => exact ⟨hlistening, .error _⟩
          | ok reached => exact hlistening.openLink hlive file listener address
      | _ => exact ⟨hlistening, .error _⟩

theorem openTrial
    (hmirrors : renewal.MirrorsSession runtime count first second) (hlive : renewal.Live space)
    (path : Path) (flags : Option (List OpenFlag)) (address : String) :
    renewal.OpensAlike runtime count (first.openTrial space path flags address)
      (second.openTrial (renewal.rename space) path flags address) := by
  have hopen := hmirrors.runCall hlive (.open path flags)
  unfold Session.openTrial
  generalize first.runCall space (.open path flags) = opened at hopen ⊢
  generalize second.runCall (renewal.rename space) (.open path flags) = further at hopen ⊢
  obtain ⟨session, outcome⟩ := opened
  obtain ⟨mirror, same⟩ := further
  obtain ⟨hopened, rfl⟩ := hopen
  cases same with
  | handle file =>
      have hspace := hopened.machine.space space hlive
      dsimp only at hspace ⊢
      rw [hspace]
      cases Endpoint.parse? address (session.machine.space space).configuration.wildcardHost with
      | none => exact ⟨hopened, .error _⟩
      | some endpoint => exact hopened.openSockets hlive file address endpoint
  | failed fault => exact ⟨hopened, .error _⟩
  | _ => exact ⟨hopened, .error _⟩

theorem writeTwice
    (hmirrors : renewal.MirrorsSession runtime count first second) (resource : Option Resource)
    (data : Bytes) :
    renewal.AlikeSession runtime count (first.writeTwice resource data)
      (second.writeTwice resource data) := by
  unfold Session.writeTwice
  split
  · next number =>
      have hwrite := hmirrors.machine.writeFile .invalid number data
      generalize first.machine.writeFile .invalid number data = written at hwrite ⊢
      generalize second.machine.writeFile .invalid number data = further at hwrite ⊢
      obtain ⟨machine, reply⟩ := written
      obtain ⟨mirror, same⟩ := further
      obtain ⟨hwritten, rfl⟩ := hwrite
      have hagain := hmirrors.setMachine (hwritten.writeFile .invalid number data).mirrors
      cases same with
      | failed fault =>
          cases fault with
          | fileNotWritten handle stage fault => exact ⟨hmirrors.setMachine hwritten, rfl⟩
          | _ => exact ⟨hagain, rfl⟩
      | _ => exact ⟨hagain, rfl⟩
  · exact ⟨hmirrors, rfl⟩

end MirrorsSession

namespace Mirrors

variable {machine mirror : Machine} {found : Option Resource}

theorem resource?_eq
    (hmirrors : renewal.Mirrors machine mirror) (hlive : renewal.Live space) (handle : Handle) :
    mirror.resource? (renewal.rename space) handle = machine.resource? space handle := by
  unfold Machine.resource?
  rw [hmirrors.space space hlive]

theorem hasOwnAddress_eq
    (hmirrors : renewal.Mirrors machine mirror)
    (hkept : ∀ resource, found = some resource → ¬renewal.Gone resource) :
    mirror.hasOwnAddress found = machine.hasOwnAddress found := by
  have hsocket : mirror.socketOf? found = machine.socketOf? found := by
    unfold Machine.socketOf?
    split
    · next number =>
        rw [hmirrors.listeners.entry number (hkept _ rfl), hmirrors.network]
    · rfl
  unfold Machine.hasOwnAddress
  rw [hsocket]

theorem takesWrite_eq
    (hmirrors : renewal.Mirrors machine mirror)
    (hkept : ∀ resource, found = some resource → ¬renewal.Gone resource) (data : Bytes) :
    mirror.takesWrite found data = machine.takesWrite found data := by
  unfold Machine.takesWrite
  split
  · next number => rw [(hmirrors.send (hkept _ rfl) .invalid data 0).same]
  · rfl

theorem readable_eq
    (hmirrors : renewal.Mirrors machine mirror)
    (hkept : ∀ resource, found = some resource → ¬renewal.Gone resource) :
    mirror.readable found = machine.readable found := by
  unfold Machine.readable
  split
  · next number => rw [(hmirrors.receive (hkept _ rfl) .invalid 0).same]
  · rfl

theorem acceptsNothing_eq
    (hmirrors : renewal.Mirrors machine mirror) (hlive : renewal.Live space)
    (hkept : ∀ resource, found = some resource → ¬renewal.Gone resource) :
    mirror.acceptsNothing (renewal.rename space) found = machine.acceptsNothing space found := by
  unfold Machine.acceptsNothing
  split
  · next number => rw [(hmirrors.accept hlive (hkept _ rfl)).same]
  · rfl

end Mirrors

namespace MirrorsSession

theorem closeTrial
    {trial : Trial} (hmirrors : renewal.MirrorsSession runtime count first second)
    (hlive : renewal.Live trial.space) (size : Nat) (data : Bytes) :
    renewal.AlikeSession runtime count (first.closeTrial trial size data)
      (second.closeTrial { trial with space := renewal.rename trial.space } size data) := by
  have hkept : ∀ handle resource,
      first.machine.resource? trial.space handle = some resource → ¬renewal.Gone resource :=
    fun handle resource => hmirrors.machine.kept_of_get?
  have hsent := (hmirrors.runCall hlive (.write trial.caller data)).mirrors
  have hreceived := hsent.runCall hlive (.read trial.answerer)
  have hclosed := (hreceived.mirrors.runCall hlive (.close trial.caller)).mirrors
  have hsilent := (hclosed.runCall hlive (.close trial.listener)).mirrors
  have hwritten := hsilent.writeTwice (first.machine.resource? trial.space trial.file) data
  unfold Session.closeTrial
  simp only [hmirrors.machine.resource?_eq hlive, hmirrors.machine.hasOwnAddress_eq (hkept _),
    hsilent.machine.takesWrite_eq (hkept _), hsilent.machine.readable_eq (hkept _),
    hsilent.machine.acceptsNothing_eq hlive (hkept _), hreceived.same]
  generalize Session.writeTwice _ _ data = written at hwritten ⊢
  generalize Session.writeTwice _ _ data = further at hwritten ⊢
  obtain ⟨session, fault⟩ := written
  obtain ⟨mirror, same⟩ := further
  obtain ⟨hlast, rfl⟩ := hwritten
  cases same with
  | none => exact ⟨hlast, rfl⟩
  | some fault => exact ⟨hlast, rfl⟩

/-- A space that is given up. -/
theorem retire
    (hmirrors : renewal.MirrorsSession runtime count first second) (hlive : renewal.Live space) :
    renewal.MirrorsSession runtime count { first with retired := first.retired ++ [space] }
      { second with retired := second.retired ++ [renewal.rename space] } :=
  { hmirrors with
    retired := by
      dsimp only
      rw [hmirrors.retired, List.map_append]
      rfl
    leaving := by
      intro left hmem
      rcases List.mem_append.mp hmem with hold | hnew
      · exact hmirrors.leaving left hold
      · rwa [List.mem_singleton.mp hnew] }

/-- A space of its own is given up by both sessions. -/
theorem tryResources
    (hmirrors : renewal.MirrorsSession runtime count first second) (configuration : Configuration)
    (path : Path) (flags : Option (List OpenFlag)) (address : String) (size : Nat)
    (data : Bytes) :
    renewal.AlikeSession runtime count
      (first.tryResources configuration path flags address size data)
      (second.tryResources configuration path flags address size data) := by
  obtain ⟨hmachine, hlive, hnumber⟩ :=
    hmirrors.machine.addSpace { configuration with bufferSize := size }
  unfold Session.tryResources
  generalize first.machine.addSpace { configuration with bufferSize := size } = added
    at hmachine hlive hnumber ⊢
  generalize second.machine.addSpace { configuration with bufferSize := size } = further
    at hmachine hnumber ⊢
  obtain ⟨machine, space⟩ := added
  obtain ⟨mirror, same⟩ := further
  dsimp only at hmachine hlive hnumber ⊢
  subst hnumber
  have hopened := (hmirrors.setMachine hmachine).openTrial hlive path flags address
  generalize Session.openTrial _ space path flags address = opened at hopened ⊢
  generalize Session.openTrial _ (renewal.rename space) path flags address = further at hopened ⊢
  obtain ⟨opened, outcome⟩ := opened
  obtain ⟨further, same⟩ := further
  obtain ⟨hsession, htrial⟩ := hopened
  cases htrial with
  | error fault => exact ⟨(hsession.retire hlive).settle, rfl⟩
  | ok hplace =>
      have hclosed := hsession.closeTrial hplace size data
      exact ⟨(hclosed.mirrors.retire hlive).settle, hclosed.same⟩

/-! ## Steps -/

theorem spaceOf
    {other : Nat} (hmirrors : renewal.MirrorsSession runtime count first second)
    (hother : other ≠ runtime) (hlt : other < count) :
    renewal.Live (first.spaceOf other) ∧
      second.spaceOf other = renewal.rename (first.spaceOf other) := by
  have hentry : first.current[other]? = some (first.spaceOf other) := by
    unfold Session.spaceOf
    rw [← hmirrors.length] at hlt
    simp [List.getD_eq_getElem?_getD, List.getElem?_eq_getElem hlt]
  refine ⟨hmirrors.others other _ hother hentry, ?_⟩
  have hrenamed : second.current[other]? = some (renewal.rename (first.spaceOf other)) := by
    rw [hmirrors.current, List.getElem?_map, hentry, Option.map_some]
  simp [Session.spaceOf, List.getD_eq_getElem?_getD, hrenamed]

theorem space_eq
    {other : Nat} (hmirrors : renewal.MirrorsSession runtime count first second)
    (hother : other ≠ runtime) (hlt : other < count) : second.space other = first.space other := by
  obtain ⟨hlive, hspace⟩ := hmirrors.spaceOf hother hlt
  unfold Session.space
  rw [hspace, hmirrors.machine.space _ hlive]

theorem runOn
    {other : Nat} (hmirrors : renewal.MirrorsSession runtime count first second)
    (hother : other ≠ runtime) (hlt : other < count) (script : Script) :
    renewal.AlikeSession runtime count (first.run (first.spaceOf other) script)
      (second.run (second.spaceOf other) script) := by
  obtain ⟨hlive, hspace⟩ := hmirrors.spaceOf hother hlt
  rw [hspace]
  exact hmirrors.run hlive script

theorem script?_eq
    {step : Step} (hmirrors : renewal.MirrorsSession runtime count first second)
    (havoids : step.Avoids runtime count) :
    second.script? step = first.script? step := by
  cases step with
  | gather other handle wanted =>
      obtain ⟨hother, hlt⟩ := havoids other List.mem_cons_self
      simp only [Session.script?, hmirrors.space_eq hother hlt]
  | _ => rfl

/-- The runtime of a script is the one of its step. -/
theorem mem_runtimes_of_script?
    {session : Session} {step : Step} {other : Nat} {script : Script}
    (hscript : session.script? step = some (other, script)) : other ∈ step.runtimes := by
  cases step <;> simp [Session.script?] at hscript <;>
    simp [Step.runtimes, hscript.1]

/-- Another runtime is renewed in both sessions. -/
theorem reset
    {other : Nat} (hmirrors : renewal.MirrorsSession runtime count first second)
    (hother : other ≠ runtime) (hlt : other < count) :
    renewal.MirrorsSession runtime count (first.reset other) (second.reset other) := by
  obtain ⟨hlive, hspace⟩ := hmirrors.spaceOf hother hlt
  obtain ⟨hmachine, hfresh, hnumber⟩ :=
    hmirrors.machine.addSpace (first.space other).configuration
  have hrenewed : renewal.MirrorsSession runtime count
      { first with
        machine := (first.machine.addSpace (first.space other).configuration).1
        current :=
          first.current.set other (first.machine.addSpace (first.space other).configuration).2 }
      { second with
        machine := (second.machine.addSpace (first.space other).configuration).1
        current :=
          second.current.set other
            (second.machine.addSpace (first.space other).configuration).2 } :=
    { hmirrors with
      machine := hmachine
      length := by
        rw [List.length_set]
        exact hmirrors.length
      current := by
        dsimp only
        rw [hnumber, hmirrors.current, List.map_set]
      renewed := by
        rw [List.getElem?_set_ne hother]
        exact hmirrors.renewed
      others := by
        intro another space hanother hentry
        rw [List.getElem?_set] at hentry
        split at hentry
        · split at hentry
          · cases hentry
            exact hfresh
          · cases hentry
        · exact hmirrors.others another space hanother hentry }
  unfold Session.reset
  rw [hmirrors.space_eq hother hlt, hspace]
  exact (hrenewed.retire hlive).settle

theorem nameJob
    (hmirrors : renewal.MirrorsSession runtime count first second) (name : String) (job : Job) :
    renewal.MirrorsSession runtime count (first.nameJob name job) (second.nameJob name job) :=
  { hmirrors with
    names := by
      show second.names.insert name job = first.names.insert name job
      rw [hmirrors.names] }

theorem launchNamed
    (hmirrors : renewal.MirrorsSession runtime count first second) (name : String)
    (script : Script) {place : Nat}
    (hplace :
      Task.outcome? ⟨space, script, none⟩ = none →
        renewal.Live space ∧ place = renewal.rename space) :
    renewal.MirrorsSession runtime count (first.launchNamed name space script)
      (second.launchNamed name place script) := by
  unfold Session.launchNamed
  rw [← hmirrors.tasks.length_eq]
  exact (hmirrors.launch script hplace).nameJob name _

theorem ended?_eq
    (hmirrors : renewal.MirrorsSession runtime count first second) (name : String) :
    second.ended? name = first.ended? name := by
  unfold Session.ended?
  simp only [hmirrors.names, hmirrors.jobOutcome?_eq]

theorem join
    (hmirrors : renewal.MirrorsSession runtime count first second) (name : String) :
    renewal.AlikeSession runtime count (first.join name) (second.join name) := by
  unfold Session.join
  rw [hmirrors.names]
  cases first.names.find? name with
  | none => exact ⟨hmirrors, rfl⟩
  | some job =>
      have hforgotten : renewal.MirrorsSession runtime count
          { first with names := first.names.erase name }
          { second with names := first.names.erase name } := { hmirrors with names := rfl }
      exact hforgotten.await job

theorem setTree
    (hmirrors : renewal.MirrorsSession runtime count first second) (tree : FileTree) :
    renewal.MirrorsSession runtime count (first.setTree tree) (second.setTree tree) :=
  hmirrors.setMachine (hmirrors.machine.setTree tree)

theorem changed
    (hmirrors : renewal.MirrorsSession runtime count first second)
    (result : Except FileFault FileTree) :
    renewal.AlikeSession runtime count (first.changed result) (second.changed result) := by
  cases result with
  | error fault => exact ⟨hmirrors, rfl⟩
  | ok tree => exact ⟨hmirrors.setTree tree, rfl⟩

theorem changedUntil
    (hmirrors : renewal.MirrorsSession runtime count first second) (tree : FileTree)
    (fault : Option Fault) :
    renewal.AlikeSession runtime count (first.changedUntil tree fault)
      (second.changedUntil tree fault) :=
  ⟨hmirrors.setTree tree, rfl⟩

theorem openHandles_eq (hmirrors : renewal.MirrorsSession runtime count first second) :
    second.openHandles = first.openHandles := by
  unfold Session.openHandles
  rw [hmirrors.current, List.map_map]
  apply List.map_congr_left
  intro space hmem
  obtain ⟨other, hlt, rfl⟩ := List.mem_iff_getElem.mp hmem
  have hentry : first.current[other]? = some first.current[other] := List.getElem?_eq_getElem hlt
  by_cases hother : other = runtime
  · subst hother
    have hfresh : first.current[other] = renewal.fresh :=
      Option.some.inj (hentry.symm.trans hmirrors.renewed)
    rw [Function.comp_apply, hfresh, rename_fresh, hmirrors.machine.emptied,
      hmirrors.machine.fresh]
  · have hlive := hmirrors.others other _ hother hentry
    rw [Function.comp_apply, hmirrors.machine.space _ hlive]

/-- What a script that is spawned does goes on beside the later steps of both sessions. -/
theorem spawn
    {inner : Step} (hmirrors : renewal.MirrorsSession runtime count first second) (name : String)
    (havoids : inner.Avoids runtime count)
    (hinner :
      renewal.AlikeSession runtime count (first.step inner) (second.step inner)) :
    renewal.AlikeSession runtime count (first.step (.spawn name inner))
      (second.step (.spawn name inner)) := by
  by_cases hserve : ∃ other address deadline bodies,
      inner = .serve other address deadline bodies
  · obtain ⟨other, address, deadline, bodies, rfl⟩ := hserve
    obtain ⟨hother, hlt⟩ := havoids other List.mem_cons_self
    obtain ⟨hlive, hspace⟩ := hmirrors.spaceOf hother hlt
    have hbegin := hmirrors.beginExchange hlive address deadline bodies
    rw [Session.step, Session.step, hspace]
    generalize first.beginExchange (first.spaceOf other) address deadline bodies = begun
      at hbegin ⊢
    generalize second.beginExchange (renewal.rename (first.spaceOf other)) address deadline bodies =
      further at hbegin ⊢
    obtain ⟨serving, outcome⟩ := begun
    obtain ⟨mirror, same⟩ := further
    obtain ⟨hserving, rfl⟩ := hbegin
    cases same with
    | ok job => exact ⟨hserving.nameJob name job, rfl⟩
    | error fault => exact ⟨hserving.launchNamed name _ fun _ => ⟨hlive, rfl⟩, rfl⟩
  · have hplain : ∀ (other : Nat) (address : String) (deadline : Nat) (bodies : List Bytes),
        inner = .serve other address deadline bodies → False :=
      fun other address deadline bodies hinnerServe =>
        hserve ⟨other, address, deadline, bodies, hinnerServe⟩
    rw [Session.step, Session.step, hmirrors.script?_eq havoids]
    · cases hscript : first.script? inner with
      | some launched =>
          obtain ⟨other, script⟩ := launched
          obtain ⟨hother, hlt⟩ := havoids other (mem_runtimes_of_script? hscript)
          obtain ⟨hlive, hspace⟩ := hmirrors.spaceOf hother hlt
          exact ⟨hmirrors.launchNamed name script fun _ => ⟨hlive, hspace⟩, rfl⟩
      | none =>
          dsimp only
          rw [hinner.same]
          refine ⟨hinner.mirrors.launchNamed name _ ?_, rfl⟩
          intro hrunning
          cases hrunning
    · exact hplain
    · exact hplain

/-- A step of other runtimes ends alike. -/
theorem step
    {step : Step} (hmirrors : renewal.MirrorsSession runtime count first second)
    (havoids : step.Avoids runtime count) :
    renewal.AlikeSession runtime count (first.step step) (second.step step) := by
  induction step generalizing first second with
  | spawn name inner ih => exact hmirrors.spawn name havoids (ih hmirrors havoids)
  | serve other address deadline bodies =>
      obtain ⟨hother, hlt⟩ := havoids other List.mem_cons_self
      obtain ⟨hlive, hspace⟩ := hmirrors.spaceOf hother hlt
      rw [Session.step, Session.step, hspace]
      exact hmirrors.serve hlive address deadline bodies
  | tryResources other path flags address size data =>
      obtain ⟨hother, hlt⟩ := havoids other List.mem_cons_self
      rw [Session.step, Session.step, hmirrors.space_eq hother hlt]
      exact hmirrors.tryResources _ path flags address size data
  | call other call =>
      obtain ⟨hother, hlt⟩ := havoids other List.mem_cons_self
      exact hmirrors.runOn hother hlt _
  | lend other handle =>
      obtain ⟨hother, hlt⟩ := havoids other List.mem_cons_self
      exact hmirrors.runOn hother hlt _
  | drain other handle =>
      obtain ⟨hother, hlt⟩ := havoids other List.mem_cons_self
      exact hmirrors.runOn hother hlt _
  | gather other handle wanted =>
      obtain ⟨hother, hlt⟩ := havoids other List.mem_cons_self
      change renewal.AlikeSession runtime count _ (second.run (second.spaceOf other)
        (.gather handle wanted (second.space other).configuration.bufferSize 0 []))
      rw [hmirrors.space_eq hother hlt]
      exact hmirrors.runOn hother hlt _
  | roundTrip other path data =>
      obtain ⟨hother, hlt⟩ := havoids other List.mem_cons_self
      exact hmirrors.runOn hother hlt _
  | request other address body =>
      obtain ⟨hother, hlt⟩ := havoids other List.mem_cons_self
      exact hmirrors.runOn hother hlt _
  | classify other handle =>
      obtain ⟨hother, hlt⟩ := havoids other List.mem_cons_self
      rw [Session.step, Session.step, hmirrors.space_eq hother hlt]
      exact ⟨hmirrors, rfl⟩
  | configuration other =>
      obtain ⟨hother, hlt⟩ := havoids other List.mem_cons_self
      rw [Session.step, Session.step, hmirrors.space_eq hother hlt]
      exact ⟨hmirrors, rfl⟩
  | reset other =>
      obtain ⟨hother, hlt⟩ := havoids other List.mem_cons_self
      exact ⟨hmirrors.reset hother hlt, rfl⟩
  | load path =>
      rw [Session.step, Session.step, hmirrors.machine.tree]
      exact ⟨hmirrors, rfl⟩
  | save path configuration =>
      rw [Session.step, Session.step, hmirrors.machine.tree]
      exact hmirrors.changedUntil _ _
  | seed path data =>
      rw [Session.step, Session.step, hmirrors.machine.tree]
      exact hmirrors.changed _
  | makeDirectories path =>
      rw [Session.step, Session.step, hmirrors.machine.tree]
      exact hmirrors.changedUntil _ _
  | content path =>
      rw [Session.step, Session.step, hmirrors.machine.tree]
      exact ⟨hmirrors, rfl⟩
  | text path =>
      rw [Session.step, Session.step, hmirrors.machine.tree]
      exact ⟨hmirrors, rfl⟩
  | list =>
      rw [Session.step, Session.step, hmirrors.machine.tree]
      exact ⟨hmirrors, rfl⟩
  | join name => exact hmirrors.join name
  | hasEnded name =>
      rw [Session.step, Session.step, hmirrors.ended?_eq]
      exact ⟨hmirrors, rfl⟩

/-- Steps of other runtimes end alike, one after the other. -/
theorem runAll
    {steps : List Step} (hmirrors : renewal.MirrorsSession runtime count first second)
    (havoids : ∀ step ∈ steps, step.Avoids runtime count) :
    second.runAll steps = first.runAll steps := by
  induction steps generalizing first second with
  | nil => rfl
  | cons step rest ih =>
      have hstep := hmirrors.step (havoids step List.mem_cons_self)
      have hrest := ih hstep.mirrors fun later hmem => havoids later (List.mem_cons_of_mem _ hmem)
      rw [Session.runAll, Session.runAll]
      dsimp only
      rw [hstep.same, hstep.mirrors.openHandles_eq, hrest]

end MirrorsSession

end Renewal

end ResourceHandles
