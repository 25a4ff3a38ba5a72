import ResourceHandles.Proofs.Session.Orderly
import ResourceHandles.Proofs.Session.Playing

/-!
# Running a script on an idle session

While nothing else runs, each call of a script takes two steps at most: it is started, and
it advances once.  The steps that a session allows for are enough, so the script plays to
its end, or until a call waits in vain; that one is given up.
-/

namespace ResourceHandles

namespace Task

variable {machine next last : Machine} {space count : Nat} {task later ended : Task}

/-- A task makes a number of steps on a machine and then has none left. -/
inductive Rests : Machine → Task → Nat → Machine → Task → Prop where
  | still {machine : Machine} {task : Task} (hstill : task.step? machine = none) :
      Rests machine task 0 machine task
  | step {machine next last : Machine} {task later ended : Task} {count : Nat}
      (hstep : task.step? machine = some (next, later))
      (hrests : Rests next later count last ended) : Rests machine task (count + 1) last ended

/-- A machine without the call that a task waits for. -/
def left (task : Task) (machine : Machine) : Machine :=
  (task.waiting.map machine.abandon).getD machine

/-- What a task that has no step left ends with. -/
def verdict (task : Task) : Outcome :=
  task.outcome?.getD (.failed .timedOut)

/-- What a script comes to that plays alone, told by a task that has no step left. -/
structure Ends (task : Task) (machine last : Machine) (outcome : Outcome) : Prop where
  bare : (task.left machine).bare = last
  quiet : (task.left machine).pending = []
  outcome : task.verdict = outcome
  due : task.due? = none

/-! ## Steps -/

section Steps

variable {script : Script} {call : Call} {reply : Reply} {ticket : Nat}

theorem step?_answered
    (hturn : script.turn = .call call)
    (hstart : machine.start space call = (next, .answered reply)) :
    Task.step? machine ⟨space, script, none⟩ = some (next, ⟨space, script.after reply, none⟩) := by
  simp only [step?, hturn, hstart]
  rfl

theorem step?_waiting
    (hturn : script.turn = .call call)
    (hstart : machine.start space call = (next, .waiting ticket)) :
    Task.step? machine ⟨space, script, none⟩ = some (next, ⟨space, script, some ticket⟩) := by
  simp only [step?, hturn, hstart]

theorem step?_resumed
    (hadvance : machine.advance? ticket machine.network.capacity = some (next, some reply)) :
    Task.step? machine ⟨space, script, some ticket⟩ =
      some (next, ⟨space, script.after reply, none⟩) := by
  simp only [step?, hadvance]
  rfl

theorem step?_advanced
    (hadvance : machine.advance? ticket machine.network.capacity = some (next, none)) :
    Task.step? machine ⟨space, script, some ticket⟩ =
      some (next, ⟨space, script, some ticket⟩) := by
  simp only [step?, hadvance]

theorem step?_blocked
    (hblocked : machine.advance? ticket machine.network.capacity = none) :
    Task.step? machine ⟨space, script, some ticket⟩ = none := by
  simp only [step?, hblocked]

theorem ends_blocked (hquiet : (machine.abandon ticket).pending = []) :
    Ends ⟨space, script, some ticket⟩ machine (machine.abandon ticket).bare
      (.failed .timedOut) :=
  ⟨rfl, hquiet, rfl, rfl⟩

/-- A call that is answered takes two steps at most, and nothing waits after them. -/
theorem passes_call
    (horderly : machine.Orderly) (hturn : script.turn = .call call)
    (hgoes : machine.Goes space call (next, some reply)) :
    ∃ reached steps,
      steps ≤ 2 ∧ reached.bare = next ∧ reached.pending = [] ∧ reached.Orderly ∧
        ∀ {count last ended},
          Rests reached ⟨space, script.after reply, none⟩ count last ended →
            Rests machine ⟨space, script, none⟩ (count + steps) last ended := by
  have hchange := machine.start_change space call
  generalize hanswer : (next, some reply) = answer at hgoes
  cases hgoes with
  | @answered reached answered hstart hquiet =>
      cases hanswer
      rw [hstart] at hchange
      exact ⟨reached, 1, by omega, rfl, hquiet, hchange.orderly horderly,
        fun hrests => .step (step?_answered hturn hstart) hrests⟩
  | @advanced parked reached ticket answered hstart hadvance hquiet =>
      cases hanswer
      rw [hstart] at hchange
      have hparked := hchange.orderly horderly
      exact ⟨reached, 2, le_rfl, rfl, hquiet, (Machine.advance_change hadvance).orderly hparked,
        fun hrests => .step (step?_waiting hturn hstart) (.step (step?_resumed hadvance) hrests)⟩
  | blocked hstart hblocked hquiet => cases hanswer
  | stuck hstart hadvance hblocked hquiet => cases hanswer

/-- A task comes to rest at a call that waits in vain. -/
theorem rests_at_call
    (hturn : script.turn = .call call) (hgoes : machine.Goes space call (last, none)) :
    ∃ steps reached task,
      steps ≤ 2 ∧ Rests machine ⟨space, script, none⟩ steps reached task ∧
        task.Ends reached last (.failed .timedOut) := by
  generalize hanswer : ((last, none) : Machine × Option Reply) = answer at hgoes
  cases hgoes with
  | answered hstart hquiet => cases hanswer
  | advanced hstart hadvance hquiet => cases hanswer
  | @blocked parked ticket hstart hblocked hquiet =>
      cases hanswer
      exact ⟨1, parked, ⟨space, script, some ticket⟩, by omega,
        .step (step?_waiting hturn hstart) (.still (step?_blocked hblocked)),
        ends_blocked hquiet⟩
  | @stuck parked reached ticket hstart hadvance hblocked hquiet =>
      cases hanswer
      exact ⟨2, reached, ⟨space, script, some ticket⟩, le_rfl,
        .step (step?_waiting hturn hstart)
          (.step (step?_advanced hadvance) (.still (step?_blocked hblocked))),
        ends_blocked hquiet⟩

end Steps

end Task

/-- A script plays alike on all machines on which nothing waits and that are the same otherwise. -/
theorem Script.Plays.rests
    {space count : Nat} {base machine last : Machine} {script : Script} {outcome : Outcome}
    (hplays : Script.Plays space base script count last outcome)
    (hbase : machine.bare = base) (hquiet : machine.pending = [])
    (horderly : machine.Orderly) :
    ∃ steps reached task,
      steps ≤ 2 * count ∧ Task.Rests machine ⟨space, script, none⟩ steps reached task ∧
        task.Ends reached last outcome := by
  induction hplays generalizing machine with
  | @finished base script outcome hturn =>
      refine ⟨0, machine, ⟨space, script, none⟩, Nat.zero_le _, .still ?_, hbase, hquiet, ?_, ?_⟩
      · simp only [Task.step?, hturn]
      · simp only [Task.verdict, Task.outcome?, hturn]
        rfl
      · simp only [Task.due?, hturn]
  | @answered base next last script call reply count outcome hturn halone hlater ih =>
      have hgoes := Machine.goes hquiet space call
      rw [hbase, halone] at hgoes
      obtain ⟨middle, taken, htaken, hbare, hstill, hmiddle, hpass⟩ :=
        Task.passes_call horderly hturn hgoes
      obtain ⟨steps, reached, task, hsteps, hrests, hends⟩ := ih hbare hstill hmiddle
      exact ⟨steps + taken, reached, task, by omega, hpass hrests, hends⟩
  | @unanswered base last script call hturn halone =>
      have hgoes := Machine.goes hquiet space call
      rw [hbase, halone] at hgoes
      exact Task.rests_at_call hturn hgoes

theorem le_total_of_mem {amounts : List Nat} {amount : Nat} (hmem : amount ∈ amounts) :
    amount ≤ total amounts := by
  induction amounts with
  | nil => cases hmem
  | cons first rest ih =>
      rw [total]
      rcases List.mem_cons.mp hmem with rfl | hrest
      · exact Nat.le_add_right _ _
      · exact (ih hrest).trans (Nat.le_add_left _ _)

namespace Session

variable {session : Session} {space fuel : Nat} {script : Script}

/-- Nothing runs in a session, nothing waits, and no handle space is left to be dropped. -/
structure Idle (session : Session) : Prop where
  tasks : session.tasks = []
  retired : session.retired = []
  pending : session.machine.pending = []
  orderly : session.machine.Orderly

/-! ## Steps -/

/-- A session with a task and nothing else to do. -/
def only (session : Session) (machine : Machine) (task : Task) : Session :=
  { session with machine := machine, tasks := [task] }

theorem step?_only
    {machine next : Machine} {task later : Task}
    (hstep : task.step? machine = some (next, later)) :
    (session.only machine task).step? = some (session.only next later) := by
  simp only [step?, only, stepFirst?, hstep]

theorem step?_only_still
    {machine : Machine} {task : Task} (hretired : session.retired = [])
    (hstill : task.step? machine = none) : (session.only machine task).step? = none := by
  simp only [step?, only, stepFirst?, hstill, dropRetired?, hretired, List.find?_nil]

theorem runSteps_only
    {machine last : Machine} {task ended : Task} {count : Nat} (hretired : session.retired = [])
    (hrests : Task.Rests machine task count last ended) (hfuel : count ≤ fuel) :
    runSteps fuel (session.only machine task) = session.only last ended := by
  induction hrests generalizing fuel with
  | still hstill =>
      cases fuel with
      | zero => rfl
      | succ fuel =>
          rw [runSteps]
          simp only [step?_only_still hretired hstill]
  | step hstep hrests ih =>
      obtain ⟨fuel, rfl⟩ := Nat.exists_eq_add_of_le' (Nat.le_trans (Nat.le_add_left 1 _) hfuel)
      rw [runSteps]
      simp only [step?_only hstep]
      exact ih (Nat.le_of_succ_le_succ hfuel)

/-! ## The number of steps -/

/-- The number of bytes in files and under way. -/
def bytes (session : Session) : Nat :=
  total (session.machine.tree.contents.map List.length) +
    total (session.machine.network.links.map fun link =>
      link.caller.inbox.length + link.answerer.inbox.length + response.length)

theorem within_bytes (session : Session) : session.machine.Within session.bytes where
  contents number := by
    unfold FileTree.content bytes
    rw [List.getD_eq_getElem?_getD]
    cases hcontent : session.machine.tree.contents[number]? with
    | none => exact Nat.zero_le _
    | some content =>
        have hmem := List.mem_map_of_mem (f := List.length) (List.mem_of_getElem? hcontent)
        exact (le_total_of_mem hmem).trans (Nat.le_add_right _ _)
  inboxes id := by
    unfold Network.getEnd bytes
    split
    · next link hlink =>
        have hmem := le_total_of_mem
          (List.mem_map_of_mem
            (f := fun link : Link =>
              link.caller.inbox.length + link.answerer.inbox.length + response.length)
            (List.mem_of_getElem? hlink))
        unfold Link.get
        split
        · omega
        · omega
    · exact Nat.zero_le _

theorem budget_only (hretired : session.retired = []) :
    (session.only session.machine ⟨space, script, none⟩).budget =
      32 * (session.bytes + script.volume + response.length + 16) := by
  simp only [budget, volume, only, hretired, List.map_cons, List.map_nil, total,
    List.length_cons, List.length_nil, bytes]
  omega

/-! ## Runs -/

theorem launch_idle
    {reached : Machine} {task : Task} {count : Nat} (hidle : session.Idle)
    (hrests : Task.Rests session.machine ⟨space, script, none⟩ count reached task)
    (hcount : count ≤ 32 * (session.bytes + script.volume + response.length + 16)) :
    session.launch space script = session.only reached task := by
  have hgrown :
      ({ session with tasks := session.tasks ++ [⟨space, script, none⟩] } : Session) =
        session.only session.machine ⟨space, script, none⟩ := by
    rw [hidle.tasks]
    rfl
  unfold launch settle
  dsimp only
  rw [hgrown]
  apply runSteps_only hidle.retired hrests
  rwa [budget_only hidle.retired]

/-- Nobody waits for the time to pass if the only task does not rest. -/
theorem await_only {machine : Machine} {task : Task} (hdue : task.due? = none) :
    (session.only machine task).await (.task 0) = (session.only machine task, task.verdict) := by
  have hwake : (session.only machine task).wake? = none := by
    simp only [wake?, nextDue?, only, List.filterMap_cons, hdue, List.filterMap_nil, List.min?_nil]
  have hpass :
      passTime (.task 0) 1 (session.only machine task) = session.only machine task := by
    rw [passTime]
    split
    · rfl
    · rw [hwake]
  unfold await
  rw [show (session.only machine task).tasks.length = 1 from rfl, hpass]
  rfl

theorem giveUp_only {machine : Machine} (task : Task) (hretired : session.retired = []) :
    ∃ ended, (session.only machine task).giveUp 0 = session.only (task.left machine) ended := by
  have htask : (session.only machine task).tasks[0]? = some task := rfl
  unfold giveUp
  rw [htask]
  dsimp only
  split
  · next hended =>
      -- A task that has ended waits for nothing.
      refine ⟨task, ?_⟩
      unfold Task.left
      unfold Task.outcome? at hended
      cases hwaiting : task.waiting with
      | none => rfl
      | some ticket =>
          rw [hwaiting] at hended
          cases hended
  · refine ⟨⟨task.space, .ended (.failed .timedOut), none⟩, ?_⟩
    exact runSteps_only hretired (.still rfl) (Nat.zero_le _)

/-- A script that plays alone is run to its end; the session is idle again. -/
theorem run_idle
    {last : Machine} {outcome : Outcome} {count : Nat} (hidle : session.Idle)
    (hplays : Script.Plays space session.machine.bare script count last outcome)
    (hcount : count ≤ session.bytes + script.volume + 7) :
    ∃ machine,
      session.run space script = ({ session with machine := machine }, outcome) ∧
        machine.bare = last ∧ machine.pending = [] := by
  obtain ⟨steps, reached, task, hsteps, hrests, hends⟩ :=
    hplays.rests rfl hidle.pending hidle.orderly
  have hlaunch : session.launch space script = session.only reached task :=
    launch_idle hidle hrests (by omega)
  obtain ⟨ended, hgiveUp⟩ := @giveUp_only session reached task hidle.retired
  refine ⟨task.left reached, ?_, hends.bare, hends.quiet⟩
  unfold run
  rw [hlaunch, show session.tasks.length = 0 from congrArg List.length hidle.tasks]
  dsimp only
  rw [await_only hends.due]
  dsimp only
  rw [hgiveUp, hends.outcome]
  simp only [only, List.take_zero, ← hidle.tasks]

end Session

end ResourceHandles
