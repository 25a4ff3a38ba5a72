import ResourceHandles.Proofs.Machine.Modeless
import ResourceHandles.Proofs.Session.Quiet

/-!
# The call modes are one contract

As long as a session does one thing after the other, calls go different ways in different
modes, but what they are answered with, the handles that are open, and the files are the same.
The one exception is a connect to a listener in which many connections wait: the modes let
different numbers of them wait, so it fails in one mode and not in the other.
-/

namespace ResourceHandles

/-- Whether a step runs no tasks beside each other and shows no configuration of a
runtime. -/
def Step.isPlain : Step → Bool
  | .serve _ _ _ _ => false
  | .tryResources _ _ _ _ _ _ => false
  | .configuration _ => false
  | .spawn _ _ => false
  | .join _ => false
  | .hasEnded _ => false
  | _ => true

/-- The runtime and the address of a step that makes a connection. -/
def Step.connection? : Step → Option (Nat × String)
  | .call runtime (.connect address) => some (runtime, address)
  | .request runtime address _ => some (runtime, address)
  | _ => none

/-- The configurations of some runtimes, each with a mode that is chosen for it. -/
def Configuration.inModes (modes : Nat → CallMode) (configurations : List Configuration) :
    List Configuration :=
  configurations.mapIdx fun runtime configuration => { configuration with mode := modes runtime }

theorem Configuration.modeless_inModes
    (modes : Nat → CallMode) (configurations : List Configuration) :
    (Configuration.inModes modes configurations).map Configuration.modeless =
      configurations.map Configuration.modeless := by
  apply List.ext_getElem?
  intro runtime
  unfold inModes
  rw [List.getElem?_map, List.getElem?_mapIdx, List.getElem?_map]
  cases configurations[runtime]? with
  | none => rfl
  | some configuration => rfl

/-! ## Scripts -/

theorem Request.after_ne_connect
    (address : String) (reply : Reply) (stage : Request) (body : Bytes) :
    stage.after address reply ≠ .under (.connect body) := by
  cases stage with
  | connect body =>
      cases reply with
      | handle opened =>
          simp only [Request.after]
          split
          · nofun
          · nofun
      | _ => nofun
  | send handle body => cases reply <;> nofun
  | receive handle => cases reply <;> nofun
  | close handle data => cases reply <;> nofun

namespace Script

/-- Whether a script makes connections one after the other. -/
def isRow : Script → Bool
  | .requests _ _ _ _ => true
  | _ => false

/-- A script that makes one connection at most makes it in its first call. -/
theorem after_of_not_row {script : Script} (hrow : script.isRow = false) (reply : Reply) :
    (script.after reply).isRow = false ∧
      ∀ address, (script.after reply).turn ≠ .call (.connect address) := by
  have hended : ∀ outcome,
      (Script.ended outcome).isRow = false ∧
        ∀ address, (Script.ended outcome).turn ≠ .call (.connect address) :=
    fun _ => ⟨rfl, nofun⟩
  have hresponse : ∀ response,
      (ofResponse response).isRow = false ∧
        ∀ address, (ofResponse response).turn ≠ .call (.connect address) := by
    intro response
    cases response with
    | _ => exact hended _
  cases script with
  | requests address stage later responses => cases hrow
  | once call => cases reply <;> exact hended _
  | lend handle => cases reply <;> exact hended _
  | delayed due call => cases reply <;> exact hended _
  | ended outcome => cases reply <;> exact hended _
  | drain handle chunks =>
      cases reply with
      | bytes data =>
          cases data with
          | nil => exact hended _
          | cons byte rest => exact ⟨rfl, nofun⟩
      | _ => exact hended _
  | gather handle wanted limit count chunks =>
      cases reply with
      | bytes data =>
          cases data with
          | nil => exact hended _
          | cons byte rest =>
              refine ⟨rfl, fun address => ?_⟩
              simp only [after, turn]
              split
              · nofun
              · nofun
      | _ => exact hended _
  | roundTrip path stage =>
      cases reply with
      | failed fault => exact hended _
      | bytes data =>
          cases stage with
          | read handle chunks =>
              cases data with
              | nil => exact ⟨rfl, nofun⟩
              | cons byte rest => exact ⟨rfl, nofun⟩
          | create data => exact hended _
          | reopen => exact hended _
          | unlink data => exact hended _
          | _ => exact ⟨rfl, nofun⟩
      | handle opened =>
          cases stage with
          | read handle chunks => exact hended _
          | unlink data => exact hended _
          | _ => exact ⟨rfl, nofun⟩
      | done =>
          cases stage with
          | create data => exact hended _
          | reopen => exact hended _
          | read handle chunks => exact hended _
          | unlink data => exact hended _
          | _ => exact ⟨rfl, nofun⟩
  | request address stage =>
      have hrequest :
          (afterRequest address reply stage).isRow = false ∧
            ∀ other, (afterRequest address reply stage).turn ≠ .call (.connect other) := by
        unfold afterRequest
        split
        · next later hunder =>
            refine ⟨rfl, fun other hturn => ?_⟩
            cases later with
            | connect body => exact Request.after_ne_connect address reply stage body hunder
            | _ => cases hturn
        · exact hresponse _
      cases reply with
      | failed fault => exact hended _
      | _ => exact hrequest
  | serve listener bodies stage =>
      cases reply with
      | failed fault => exact hended _
      | handle opened =>
          cases stage with
          | accept =>
              simp only [after, afterService]
              split
              · exact ⟨rfl, nofun⟩
              · exact hended _
          | receive handle => exact hended _
          | _ => exact ⟨rfl, nofun⟩
      | bytes data =>
          cases stage with
          | accept => exact hended _
          | _ => exact ⟨rfl, nofun⟩
      | done =>
          cases stage with
          | accept => exact hended _
          | receive handle => exact hended _
          | _ => exact ⟨rfl, nofun⟩

end Script

/-- A script plays on a machine as it does without modes, if a connection that it makes finds
room. -/
theorem Script.Plays.of_modeless
    {space count : Nat} {base machine last : Machine} {script : Script} {outcome : Outcome}
    (hplays : Script.Plays space base script count last outcome)
    (hbase : machine.bare.modeless = base) (hquiet : machine.pending = [])
    (horderly : machine.Orderly) (hrow : script.isRow = false)
    (hroom :
      ∀ address, script.turn = .call (.connect address) → machine.hasRoom space address = true) :
    ∃ reached,
      reached.modeless = last ∧ Script.Plays space machine.bare script count reached outcome := by
  induction hplays generalizing machine with
  | @finished base script outcome hturn => exact ⟨machine.bare, hbase, .finished hturn⟩
  | @answered base next last script call reply count outcome hturn halone hlater ih =>
      have hmodeless := Machine.modeless_alone horderly
        fun address hcall => hroom address (hturn.trans (congrArg Turn.call hcall))
      rw [hbase, halone] at hmodeless
      obtain ⟨hnext, hreply⟩ := Prod.mk.inj hmodeless
      have halone : machine.bare.alone space call =
          ((machine.bare.alone space call).1, some reply) := Prod.ext rfl hreply.symm
      have hgoes := Machine.goes hquiet space call
      rw [halone] at hgoes
      obtain ⟨middle, -, -, hbare, hstill, hmiddle, -⟩ := Task.passes_call horderly hturn hgoes
      obtain ⟨hafterRow, hafter⟩ := Script.after_of_not_row hrow reply
      obtain ⟨reached, hreached, hplays⟩ :=
        ih (by rw [hbare, hnext]) hstill hmiddle hafterRow
          fun address hturn => absurd hturn (hafter address)
      rw [hbare] at hplays
      exact ⟨reached, hreached, .answered hturn halone hplays⟩
  | @unanswered base last script call hturn halone =>
      have hmodeless := Machine.modeless_alone horderly
        fun address hcall => hroom address (hturn.trans (congrArg Turn.call hcall))
      rw [hbase, halone] at hmodeless
      obtain ⟨hlast, hreply⟩ := Prod.mk.inj hmodeless
      exact ⟨_, hlast.symm, .unanswered hturn (Prod.ext rfl hreply.symm)⟩

namespace Session

variable {session first second : Session}

/-- The session without the modes of its runtimes and without tickets. -/
def modeless (session : Session) : Session :=
  { session with machine := session.machine.bare.modeless }

/-- Whether the connection that a step makes, if it makes one, finds room in the listener that
it reaches, in whichever mode that was bound. -/
def hasRoom (session : Session) (step : Step) : Bool :=
  step.connection?.all fun (runtime, address) =>
    session.machine.hasRoom (session.spaceOf runtime) address

/-- Whether all connections find room that are made by steps one after the other. -/
def findsRoom (session : Session) : List Step → Bool
  | [] => true
  | next :: rest => session.hasRoom next && (session.step next).1.findsRoom rest

/-- The script of a step makes one connection at most, and makes it in its first call. -/
theorem room_of_script
    {step : Step} {runtime : Nat} {script : Script}
    (hscript : session.script? step = some (runtime, script))
    (hroom : session.hasRoom step = true) :
    script.isRow = false ∧
      ∀ address, script.turn = .call (.connect address) →
        session.machine.hasRoom (session.spaceOf runtime) address = true := by
  cases step with
  | call runtime call =>
      cases hscript
      refine ⟨rfl, fun address hturn => ?_⟩
      cases hturn
      exact hroom
  | request runtime address body =>
      cases hscript
      refine ⟨rfl, fun address hturn => ?_⟩
      cases hturn
      exact hroom
  | lend runtime handle =>
      cases hscript
      exact ⟨rfl, nofun⟩
  | drain runtime handle =>
      cases hscript
      exact ⟨rfl, nofun⟩
  | gather runtime handle wanted =>
      cases hscript
      refine ⟨rfl, fun address hturn => ?_⟩
      simp only [Script.turn] at hturn
      split at hturn
      · cases hturn
      · cases hturn
  | roundTrip runtime path data =>
      cases hscript
      exact ⟨rfl, nofun⟩
  | _ => cases hscript

/-- Two idle sessions that differ in the modes of their runtimes at most. -/
structure Agree (first second : Session) : Prop where
  firstIdle : first.Idle
  secondIdle : second.Idle
  modeless : first.modeless = second.modeless

namespace Agree

/-! ## What agreeing sessions share -/

theorem machine (hagree : Agree first second) :
    first.machine.bare.modeless = second.machine.bare.modeless := by
  have hmachine := congrArg Session.machine hagree.modeless
  exact hmachine

theorem current (hagree : Agree first second) : first.current = second.current := by
  have hcurrent := congrArg Session.current hagree.modeless
  exact hcurrent

theorem tree (hagree : Agree first second) : first.machine.tree = second.machine.tree := by
  have htree := congrArg Machine.tree hagree.machine
  exact htree

theorem bytes (hagree : Agree first second) : first.bytes = second.bytes := by
  have hbytes := congrArg Session.bytes hagree.modeless
  exact hbytes

theorem spaces (hagree : Agree first second) :
    first.machine.spaces.length = second.machine.spaces.length := by
  have hspaces := congrArg (fun machine : Machine => machine.spaces.length) hagree.machine
  simp only [Machine.modeless, List.length_map] at hspaces
  exact hspaces

theorem spaceOf (hagree : Agree first second) (runtime : Nat) :
    first.spaceOf runtime = second.spaceOf runtime := by
  unfold Session.spaceOf
  rw [hagree.current]

theorem owner (hagree : Agree first second) (space : Nat) :
    (first.machine.space space).modeless = (second.machine.space space).modeless := by
  have howner := congrArg (fun machine : Machine => machine.space space) hagree.machine
  simpa only [Machine.space_modeless, Machine.space_bare] using howner

theorem table (hagree : Agree first second) (space : Nat) :
    (first.machine.space space).table = (second.machine.space space).table := by
  have htable := congrArg HandleSpace.table (hagree.owner space)
  exact htable

theorem configuration (hagree : Agree first second) (runtime : Nat) :
    (first.space runtime).configuration.modeless =
      (second.space runtime).configuration.modeless := by
  have hconfiguration := congrArg HandleSpace.configuration (hagree.owner (first.spaceOf runtime))
  rw [hagree.spaceOf] at hconfiguration
  unfold Session.space
  rw [hagree.spaceOf]
  exact hconfiguration

theorem bufferSize (hagree : Agree first second) (runtime : Nat) :
    (first.space runtime).configuration.bufferSize =
      (second.space runtime).configuration.bufferSize := by
  have hsize := congrArg Configuration.bufferSize (hagree.configuration runtime)
  exact hsize

theorem openHandles (hagree : Agree first second) : first.openHandles = second.openHandles := by
  unfold Session.openHandles
  rw [hagree.current]
  apply List.map_congr_left
  intro space _
  rw [hagree.table]

theorem hasRoom (hagree : Agree first second) (space : Nat) (address : String) :
    first.machine.hasRoom space address = second.machine.hasRoom space address := by
  have hroom : first.machine.bare.modeless.hasRoom space address =
      second.machine.bare.modeless.hasRoom space address := by
    rw [hagree.machine]
  rwa [Machine.hasRoom_modeless, Machine.hasRoom_modeless] at hroom

/-! ## Steps -/

theorem setMachine
    {reached other : Machine} (hagree : Agree first second)
    (hmodeless : reached.bare.modeless = other.bare.modeless)
    (hreached : reached.pending = []) (hother : other.pending = [])
    (hfirst : reached.Orderly) (hsecond : other.Orderly) :
    Agree { first with machine := reached } { second with machine := other } where
  firstIdle := ⟨hagree.firstIdle.tasks, hagree.firstIdle.retired, hreached, hfirst⟩
  secondIdle := ⟨hagree.secondIdle.tasks, hagree.secondIdle.retired, hother, hsecond⟩
  modeless := by
    have hrest :=
      congrArg (fun session : Session => { session with machine := other.bare.modeless })
        hagree.modeless
    unfold Session.modeless at hrest ⊢
    rw [hmodeless]
    exact hrest

/-- A script is run to the same end. -/
theorem run
    {step : Step} {runtime : Nat} {script : Script} (hagree : Agree first second)
    (hscript : first.script? step = some (runtime, script)) (hroom : first.hasRoom step = true) :
    (first.run (first.spaceOf runtime) script).2 =
        (second.run (second.spaceOf runtime) script).2 ∧
      Agree (first.run (first.spaceOf runtime) script).1
        (second.run (second.spaceOf runtime) script).1 := by
  obtain ⟨hrow, hfinds⟩ := room_of_script hscript hroom
  have hwithin : first.machine.bare.modeless.Within first.bytes :=
    ⟨first.within_bytes.contents, first.within_bytes.inboxes⟩
  have htable :
      (first.machine.bare.modeless.space (first.spaceOf runtime)).table.WellFormed := by
    rw [Machine.space_modeless]
    exact hagree.firstIdle.orderly.bindings.tables _
  -- The script plays once, on the machine without modes, and both sessions follow it.
  obtain ⟨count, last, outcome, hcount, hplays⟩ :=
    Script.endsWithin_of_step hscript hwithin htable
  obtain ⟨firstLast, hfirstLast, hfirstPlays⟩ :=
    hplays.of_modeless rfl hagree.firstIdle.pending hagree.firstIdle.orderly hrow hfinds
  obtain ⟨secondLast, hsecondLast, hsecondPlays⟩ :=
    hplays.of_modeless hagree.machine.symm hagree.secondIdle.pending hagree.secondIdle.orderly
      hrow fun address hturn => (hagree.hasRoom _ address).symm.trans (hfinds address hturn)
  obtain ⟨reached, hreached, hfirstBare, hquiet⟩ := run_idle hagree.firstIdle hfirstPlays hcount
  rw [hagree.bytes] at hcount
  obtain ⟨other, hother, hsecondBare, hotherQuiet⟩ :=
    run_idle hagree.secondIdle hsecondPlays hcount
  have hfirst := Machine.lasting_orderly.run (first.spaceOf runtime) script
    hagree.firstIdle.orderly
  have hsecond := Machine.lasting_orderly.run (first.spaceOf runtime) script
    hagree.secondIdle.orderly
  rw [← hagree.spaceOf]
  rw [hreached] at hfirst ⊢
  rw [hother] at hsecond ⊢
  refine ⟨rfl, hagree.setMachine ?_ hquiet hotherQuiet hfirst hsecond⟩
  rw [hfirstBare, hfirstLast, hsecondBare, hsecondLast]

/-- A change of the tree that looks at nothing but the tree. -/
theorem setTree (hagree : Agree first second) (tree : FileTree) :
    Agree (first.setTree tree) (second.setTree tree) := by
  apply hagree.setMachine
  · exact congrArg (fun machine : Machine => { machine with tree := tree }) hagree.machine
  · exact hagree.firstIdle.pending
  · exact hagree.secondIdle.pending
  · exact hagree.firstIdle.orderly.congr rfl rfl rfl rfl rfl
  · exact hagree.secondIdle.orderly.congr rfl rfl rfl rfl rfl

end Agree

/-! ## Renewing a runtime -/

theorem reset_idle (hidle : session.Idle) (runtime : Nat) :
    session.reset runtime =
      { session with
        machine := session.renewed runtime
        current := session.current.set runtime session.machine.spaces.length } := by
  apply hidle.quiet.reset_eq
  unfold isRunning
  rw [hidle.tasks]
  rfl

theorem modeless_renewed (hidle : session.Idle) (runtime : Nat) :
    (session.renewed runtime).bare.modeless =
        (session.machine.bare.modeless.addSpace
          (session.space runtime).configuration.modeless).1.dropSpace (session.spaceOf runtime) ∧
      (session.renewed runtime).pending = [] := by
  obtain ⟨hbare, hquiet⟩ := @Machine.bare_dropSpace
    (session.machine.addSpace (session.space runtime).configuration).1 hidle.pending
    (session.spaceOf runtime)
  refine ⟨?_, hquiet⟩
  rw [← Machine.modeless_addSpace, ← Machine.modeless_dropSpace]
  exact congrArg Machine.modeless hbare

theorem Agree.reset (hagree : Agree first second) (runtime : Nat) :
    Agree (first.reset runtime) (second.reset runtime) := by
  obtain ⟨hfirst, hfirstQuiet⟩ := modeless_renewed hagree.firstIdle runtime
  obtain ⟨hsecond, hsecondQuiet⟩ := modeless_renewed hagree.secondIdle runtime
  rw [hagree.machine, hagree.configuration, hagree.spaceOf, ← hsecond] at hfirst
  rw [reset_idle hagree.firstIdle, reset_idle hagree.secondIdle]
  refine ⟨⟨hagree.firstIdle.tasks, hagree.firstIdle.retired, hfirstQuiet, ?_⟩,
    ⟨hagree.secondIdle.tasks, hagree.secondIdle.retired, hsecondQuiet, ?_⟩, ?_⟩
  · exact (hagree.firstIdle.orderly.addSpace _).dropSpace _
  · exact (hagree.secondIdle.orderly.addSpace _).dropSpace _
  · have hrest := congrArg
      (fun session : Session =>
        { session with
          machine := (second.renewed runtime).bare.modeless
          current := second.current.set runtime second.machine.spaces.length })
      hagree.modeless
    rw [hagree.current, hagree.spaces]
    refine Eq.trans ?_ hrest
    rw [← hfirst]
    rfl

/-- A plain step that finds room ends alike in agreeing sessions, and they still agree after
it. -/
theorem Agree.step
    {step : Step} (hagree : Agree first second) (hplain : step.isPlain = true)
    (hroom : first.hasRoom step = true) :
    (first.step step).2 = (second.step step).2 ∧
      Agree (first.step step).1 (second.step step).1 := by
  have hrun : ∀ {runtime script}, first.script? step = some (runtime, script) →
      (first.run (first.spaceOf runtime) script).2 =
          (second.run (second.spaceOf runtime) script).2 ∧
        Agree (first.run (first.spaceOf runtime) script).1
          (second.run (second.spaceOf runtime) script).1 :=
    fun hscript => hagree.run hscript hroom
  cases step with
  | call runtime call => exact @hrun runtime (.once call) rfl
  | lend runtime handle => exact @hrun runtime (.lend handle) rfl
  | drain runtime handle => exact @hrun runtime (.drain handle []) rfl
  | gather runtime handle wanted =>
      have hgather := @hrun runtime
        (.gather handle wanted (first.space runtime).configuration.bufferSize 0 []) rfl
      simp only [Session.step, script?]
      rwa [← hagree.bufferSize]
  | roundTrip runtime path data => exact @hrun runtime (.roundTrip path (.create data)) rfl
  | request runtime address body => exact @hrun runtime (.request address (.connect body)) rfl
  | classify runtime handle =>
      refine ⟨?_, hagree⟩
      simp only [Session.step, Session.space, hagree.spaceOf, hagree.table]
  | reset runtime => exact ⟨rfl, hagree.reset runtime⟩
  | load path =>
      refine ⟨?_, hagree⟩
      simp only [Session.step, hagree.tree]
  | save path configuration =>
      simp only [Session.step, hagree.tree]
      exact ⟨rfl, hagree.setTree _⟩
  | seed path data =>
      simp only [Session.step, hagree.tree, changed]
      split
      · exact ⟨rfl, hagree⟩
      · exact ⟨rfl, hagree.setTree _⟩
  | makeDirectories path =>
      simp only [Session.step, hagree.tree]
      exact ⟨rfl, hagree.setTree _⟩
  | content path =>
      refine ⟨?_, hagree⟩
      simp only [Session.step, hagree.tree]
  | text path =>
      refine ⟨?_, hagree⟩
      simp only [Session.step, hagree.tree]
  | list =>
      refine ⟨?_, hagree⟩
      simp only [Session.step, hagree.tree]
  | _ => cases hplain

/-! ## Sequences of steps -/

theorem Agree.runAll
    {steps : List Step} (hagree : Agree first second)
    (hplain : ∀ step ∈ steps, step.isPlain = true) (hroom : first.findsRoom steps = true) :
    first.runAll steps = second.runAll steps ∧
      Agree (first.afterAll steps) (second.afterAll steps) := by
  induction steps generalizing first second with
  | nil => exact ⟨rfl, hagree⟩
  | cons step rest ih =>
      obtain ⟨hfinds, hlater⟩ := Bool.and_eq_true_iff.mp hroom
      obtain ⟨houtcome, hstepped⟩ := hagree.step (hplain step List.mem_cons_self) hfinds
      obtain ⟨hrest, hlast⟩ :=
        ih hstepped (fun later hmem => hplain later (List.mem_cons_of_mem _ hmem)) hlater
      refine ⟨?_, hlast⟩
      rw [Session.runAll, Session.runAll]
      dsimp only
      rw [houtcome, hstepped.openHandles, hrest]

theorem idle_boot
    (tree : FileTree) (routed : Bool) (capacity : Nat) (configurations : List Configuration) :
    (boot tree routed capacity configurations).Idle :=
  ⟨rfl, rfl, rfl, Machine.orderly_boot tree routed capacity configurations⟩

theorem agree_boot
    (tree : FileTree) (routed : Bool) (capacity : Nat) {configurations others : List Configuration}
    (hmodes :
      configurations.map Configuration.modeless = others.map Configuration.modeless) :
    Agree (boot tree routed capacity configurations) (boot tree routed capacity others) := by
  refine ⟨idle_boot _ _ _ _, idle_boot _ _ _ _, ?_⟩
  have hlength : configurations.length = others.length := by
    have hlength := congrArg List.length hmodes
    rwa [List.length_map, List.length_map] at hlength
  have hspaces : ∀ configurations : List Configuration,
      (boot tree routed capacity configurations).machine.bare.modeless =
        { tree := tree
          network := { routed := routed, capacity := capacity }
          spaces := (configurations.map Configuration.modeless).map
            fun configuration => { configuration := configuration } } := by
    intro configurations
    simp only [machine_boot, Machine.boot, Machine.bare, Machine.modeless, List.map_map]
    rfl
  unfold modeless
  rw [hspaces, hspaces, hmodes]
  unfold boot ofConfigurations setTree
  rw [hlength]

/-- Two sessions that start with the same files and with runtimes that differ in their modes
at most end every step alike, with the same handles open, and leave the same files, if no
connection is made to a listener that is full in some mode. -/
theorem call_modes_agree
    (tree : FileTree) (routed : Bool) (capacity : Nat) (configurations : List Configuration)
    (modes others : Nat → CallMode) (steps : List Step)
    (hplain : ∀ step ∈ steps, step.isPlain = true)
    (hroom :
      (boot tree routed capacity (Configuration.inModes modes configurations)).findsRoom steps =
        true) :
    let session := boot tree routed capacity (Configuration.inModes modes configurations)
    let other := boot tree routed capacity (Configuration.inModes others configurations)
    session.runAll steps = other.runAll steps ∧
      (session.afterAll steps).machine.tree = (other.afterAll steps).machine.tree := by
  intro session other
  have hagree : Agree session other :=
    agree_boot tree routed capacity
      ((Configuration.modeless_inModes modes configurations).trans
        (Configuration.modeless_inModes others configurations).symm)
  obtain ⟨houtcomes, hlast⟩ := hagree.runAll hplain hroom
  exact ⟨houtcomes, hlast.tree⟩

/-- A file is written and a connection is made, used and closed, once without and once with
deferred calls on one of two runtimes. -/
theorem deferred_calls_agree :
    let configurations : List Configuration := [{}, {}]
    let modes : Nat → CallMode := fun _ => .preResolved
    let others : Nat → CallMode := fun runtime => if runtime = 0 then .deferred else .preResolved
    let steps : List Step :=
      [.call 0 (.open ⟨"kept"⟩ (some [.write, .create])), .call 0 (.write ⟨3⟩ [1, 2, 3]),
        .call 0 (.close ⟨3⟩), .roundTrip 1 ⟨"gone"⟩ [4], .call 0 (.listen "127.0.0.1:8080"),
        .call 1 (.connect "127.0.0.1:8080"), .call 0 (.accept ⟨4⟩), .call 1 (.write ⟨5⟩ [5]),
        .call 1 (.close ⟨5⟩), .drain 0 ⟨5⟩, .reset 0, .content ⟨"kept"⟩]
    (∀ step ∈ steps, step.isPlain = true) ∧
      (boot {} true 8 (Configuration.inModes modes configurations)).findsRoom steps = true ∧
        (let session := boot {} true 8 (Configuration.inModes modes configurations)
          let other := boot {} true 8 (Configuration.inModes others configurations)
          session.runAll steps = other.runAll steps ∧
            (session.afterAll steps).machine.tree = (other.afterAll steps).machine.tree) ∧
          (boot {} true 8 (Configuration.inModes modes configurations)).runAll steps =
            [(.handle ⟨3⟩, [1, 0]), (.done, [1, 0]), (.done, [0, 0]), (.bytes [4], [0, 0]),
              (.handle ⟨4⟩, [1, 0]), (.handle ⟨5⟩, [1, 1]), (.handle ⟨5⟩, [2, 1]), (.done, [2, 1]),
              (.done, [2, 0]), (.chunks [[5]], [2, 0]), (.reset, [0, 0]),
              (.bytes [1, 2, 3], [0, 0])] := by
  intro configurations modes others steps
  have hplain : ∀ step ∈ steps, step.isPlain = true := by decide
  have hroom :
      (boot {} true 8 (Configuration.inModes modes configurations)).findsRoom steps = true := by
    decide +kernel
  exact ⟨hplain, hroom, call_modes_agree {} true 8 configurations modes others steps hplain hroom,
    by decide +kernel⟩

/-- One listener and connections to it that nobody accepts: the hundred and thirtieth is
refused where the listener was bound without deferring, and made where it was deferred. -/
theorem full_queue_tells_modes_apart :
    let steps : List Step :=
      .call 0 (.listen "127.0.0.1:8080") ::
        List.replicate 130 (.call 0 (.connect "127.0.0.1:8080"))
    (∀ step ∈ steps, step.isPlain = true) ∧
      ((boot {} true 65536 [{ mode := .preResolved }]).runAll steps)[130]? =
          some (.handle .invalid, [130]) ∧
        ((boot {} true 65536 [{ mode := .deferred }]).runAll steps)[130]? =
          some (.handle ⟨133⟩, [131]) := by
  decide +kernel

end Session

end ResourceHandles
