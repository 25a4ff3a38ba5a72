import ResourceHandles.Proofs.Session.Idle
import ResourceHandles.Proofs.Session.Schedules

/-!
# Sessions in which nothing is under way

A task that has ended or rests makes no call by itself.  A script that is run beside such tasks
goes as if it were alone, and a runtime that is renewed is dropped at once unless something is
still to be done on it.
-/

namespace ResourceHandles

/-- Whether a task makes no call by itself: it has ended, or it rests for some time. -/
def Task.isStill (task : Task) : Bool :=
  task.outcome?.isSome || task.due?.isSome

theorem Task.step?_of_isStill {task : Task} (hstill : task.isStill = true) (machine : Machine) :
    task.step? machine = none := by
  cases hwaiting : task.waiting with
  | some ticket => simp [isStill, outcome?, due?, hwaiting] at hstill
  | none =>
      cases hturn : task.script.turn with
      | finish outcome => simp only [step?, hwaiting, hturn]
      | rest due => simp only [step?, hwaiting, hturn]
      | call call => simp [isStill, outcome?, due?, hwaiting, hturn] at hstill

theorem Task.waiting_of_isStill {task : Task} (hstill : task.isStill = true) :
    task.waiting = none := by
  cases hwaiting : task.waiting with
  | none => rfl
  | some ticket => simp [isStill, outcome?, due?, hwaiting] at hstill

/-- A task that waits for nothing and has no step left is still. -/
theorem Task.isStill_of_step?
    {task : Task} {machine : Machine} (hwaiting : task.waiting = none)
    (hstep : task.step? machine = none) : task.isStill = true := by
  unfold step? at hstep
  rw [hwaiting] at hstep
  cases hturn : task.script.turn with
  | finish outcome => simp [isStill, outcome?, hwaiting, hturn]
  | rest due => simp [isStill, due?, hwaiting, hturn]
  | call call =>
      simp only [hturn] at hstep
      split at hstep <;> cases hstep

theorem Task.isStill_of_outcome {task : Task} (houtcome : task.outcome? ≠ none) :
    task.isStill = true := by
  unfold isStill
  rw [Option.isSome_iff_ne_none.mpr houtcome, Bool.true_or]

namespace Session

variable {session : Session} {space fuel count : Nat}
variable {machine last : Machine} {task ended : Task} {tasks : List Task} {script : Script}
variable {outcome : Outcome} {job : Job}

/-! ## Beside tasks that are still -/

theorem stepFirst?_still (hstill : ∀ task ∈ tasks, task.isStill = true) (machine : Machine) :
    stepFirst? machine tasks = none := by
  induction tasks with
  | nil => rfl
  | cons first rest ih =>
      have hfirst := Task.step?_of_isStill (hstill first (List.mem_cons_self ..)) machine
      have hrest := ih fun task hmem => hstill task (List.mem_cons_of_mem _ hmem)
      rw [stepFirst?, hfirst]
      simp only [hrest]

theorem stepFirst?_last (hstill : ∀ task ∈ tasks, task.isStill = true) :
    stepFirst? machine (tasks ++ [task]) =
      (task.step? machine).map fun stepped => (stepped.1, tasks ++ [stepped.2]) := by
  induction tasks with
  | nil =>
      rw [List.nil_append, stepFirst?]
      cases hstep : task.step? machine with
      | none => rfl
      | some stepped => rfl
  | cons first rest ih =>
      have hfirst := Task.step?_of_isStill (hstill first (List.mem_cons_self ..)) machine
      have hrest := ih fun task hmem => hstill task (List.mem_cons_of_mem _ hmem)
      rw [List.cons_append, stepFirst?, hfirst]
      simp only [hrest]
      cases hstep : task.step? machine with
      | none => rfl
      | some stepped => rfl

/-- No space is dropped on which something is still to be done. -/
theorem dropRetired?_running
    (hretired : ∀ space ∈ session.retired, session.isRunning space = true) :
    session.dropRetired? = none := by
  unfold dropRetired?
  rw [List.find?_eq_none.mpr]
  intro space hmem
  simp [hretired space hmem]

theorem isRunning_append
    (hrunning : ({ session with tasks := tasks } : Session).isRunning space = true)
    (machine : Machine) (task : Task) :
    ({ session with machine := machine, tasks := tasks ++ [task] } : Session).isRunning space =
      true := by
  unfold isRunning at hrunning ⊢
  simp only [List.any_append, hrunning, Bool.true_or]

/-- A task runs beside others that are still as if it were alone. -/
theorem runSteps_last
    (hretired :
      ∀ space ∈ session.retired, ({ session with tasks := tasks } : Session).isRunning space = true)
    (hstill : ∀ task ∈ tasks, task.isStill = true)
    (hrests : Task.Rests machine task count last ended) (hfuel : count ≤ fuel) :
    runSteps fuel { session with machine := machine, tasks := tasks ++ [task] } =
      { session with machine := last, tasks := tasks ++ [ended] } := by
  induction hrests generalizing fuel with
  | @still machine task hrest =>
      cases fuel with
      | zero => rfl
      | succ fuel =>
          have hdrop : ({ session with machine := machine, tasks := tasks ++ [task] } :
              Session).dropRetired? = none :=
            dropRetired?_running fun space hmem => isRunning_append (hretired space hmem) _ _
          rw [runSteps]
          simp only [step?, stepFirst?_last hstill, hrest, Option.map_none, hdrop]
  | step hstep hrests ih =>
      obtain ⟨fuel, rfl⟩ := Nat.exists_eq_add_of_le' (Nat.le_trans (Nat.le_add_left 1 _) hfuel)
      rw [runSteps]
      simp only [step?, stepFirst?_last hstill, hstep, Option.map_some]
      exact ih (Nat.le_of_succ_le_succ hfuel)

/-- No time passes for a job that has ended. -/
theorem passTime_of_outcome
    (houtcome : session.jobOutcome? job = some outcome) : passTime job fuel session = session := by
  cases fuel with
  | zero => rfl
  | succ fuel =>
      rw [passTime, houtcome]
      rfl

theorem await_of_outcome (houtcome : session.jobOutcome? job = some outcome) :
    session.await job = (session, outcome) := by
  unfold await
  rw [passTime_of_outcome houtcome]
  dsimp only
  rw [houtcome]
  rfl

/-- The steps that a session allows for are never few. -/
theorem le_budget (session : Session) : 256 ≤ session.budget := by
  unfold budget
  have htasks : 1 ≤ session.tasks.length + 1 := Nat.le_add_left 1 _
  have hvolume : 16 ≤ session.volume + 16 := Nat.le_add_left 16 _
  have hproduct := Nat.mul_le_mul (Nat.mul_le_mul_left 16 htasks) hvolume
  omega

/-- A script that comes to rest soon does so at once beside tasks that are still. -/
theorem launch_last
    (hretired : ∀ space ∈ session.retired, session.isRunning space = true)
    (hstill : ∀ task ∈ session.tasks, task.isStill = true)
    (hrests : Task.Rests session.machine ⟨space, script, none⟩ count last ended)
    (hcount : count ≤ 256) :
    session.launch space script =
      { session with machine := last, tasks := session.tasks ++ [ended] } := by
  unfold launch settle
  apply runSteps_last hretired hstill hrests
  exact hcount.trans (le_budget _)

/-- A script that comes to its end soon is run to its end beside tasks that are still. -/
theorem run_last
    (hretired : ∀ space ∈ session.retired, session.isRunning space = true)
    (hstill : ∀ task ∈ session.tasks, task.isStill = true)
    (hrests : Task.Rests session.machine ⟨space, script, none⟩ count last ended)
    (houtcome : ended.outcome? = some outcome) (hcount : count ≤ 256) :
    session.run space script = ({ session with machine := last }, outcome) := by
  have hlaunch := launch_last hretired hstill hrests hcount
  have hjob :
      ({ session with machine := last, tasks := session.tasks ++ [ended] } : Session).jobOutcome?
          (.task session.tasks.length) = some outcome := by
    simp only [jobOutcome?, taskOutcome?, List.getElem?_concat_length, Option.bind_some, houtcome]
  unfold run
  rw [hlaunch]
  dsimp only
  rw [await_of_outcome hjob]
  simp only [giveUp, List.getElem?_concat_length, houtcome, Option.isSome_some, if_true,
    List.take_left]

/-! ## Quiet sessions -/

/-- No call is pending in a session, no task waits for one, and there is nothing left to do
before some time has passed. -/
structure Quiet (session : Session) : Prop where
  pending : session.machine.pending = []
  waiting : ∀ task ∈ session.tasks, task.waiting = none
  settled : session.step? = none

theorem quiet_of_still
    (hpending : session.machine.pending = [])
    (hstill : ∀ task ∈ session.tasks, task.isStill = true)
    (hretired : ∀ space ∈ session.retired, session.isRunning space = true) : session.Quiet where
  pending := hpending
  waiting task hmem := Task.waiting_of_isStill (hstill task hmem)
  settled := by
    unfold step?
    rw [stepFirst?_still hstill]
    exact dropRetired?_running hretired

theorem Quiet.still (hquiet : session.Quiet) : ∀ task ∈ session.tasks, task.isStill = true := by
  have hnone : stepFirst? session.machine session.tasks = none := by
    have hsettled := hquiet.settled
    unfold step? at hsettled
    split at hsettled
    · cases hsettled
    · next hfirst => exact hfirst
  intro task hmem
  exact Task.isStill_of_step? (hquiet.waiting task hmem) (stepFirst?_none hnone task hmem)

/-- A space that was given up is still there only because something is to be done on it. -/
theorem Quiet.retired (hquiet : session.Quiet) :
    ∀ space ∈ session.retired, session.isRunning space = true := by
  have hsettled := hquiet.settled
  unfold step? at hsettled
  rw [stepFirst?_still hquiet.still] at hsettled
  unfold dropRetired? at hsettled
  dsimp only at hsettled
  split at hsettled
  · next hfind =>
      intro space hmem
      simpa using List.find?_eq_none.mp hfind space hmem
  · cases hsettled

theorem Idle.quiet (hidle : session.Idle) : session.Quiet :=
  quiet_of_still hidle.pending (by simp [hidle.tasks]) (by simp [hidle.retired])

theorem dropRetired?_eq
    (hfind : (session.retired.find? fun space => !session.isRunning space) = some space) :
    session.dropRetired? =
      some { session with
        machine := session.machine.dropSpace space
        retired := session.retired.erase space } := by
  unfold dropRetired?
  rw [hfind]

/-- A space that is given up is dropped at once if nothing is to be done on it. -/
theorem Quiet.settle_retired
    (hquiet : session.Quiet) (hspace : session.isRunning space = false) (machine : Machine)
    (current : List Nat) :
    settle
        { session with
          machine := machine, current := current, retired := session.retired ++ [space] } =
      { session with machine := machine.dropSpace space, current := current } := by
  have hnew : space ∉ session.retired := by
    intro hmem
    rw [hquiet.retired space hmem] at hspace
    cases hspace
  have hfind : ((session.retired ++ [space]).find? fun space => !session.isRunning space) =
      some space := by
    rw [List.find?_append, List.find?_eq_none.mpr]
    · simp [hspace]
    · intro other hmem
      simp [hquiet.retired other hmem]
  have hstep : step?
      { session with
        machine := machine, current := current, retired := session.retired ++ [space] } =
      some { session with machine := machine.dropSpace space, current := current } := by
    unfold step?
    rw [stepFirst?_still hquiet.still]
    refine (dropRetired?_eq hfind).trans ?_
    simp only [List.erase_append_right _ hnew, List.erase_cons_head, List.append_nil]
  have hstill : step?
      { session with machine := machine.dropSpace space, current := current } = none := by
    unfold step?
    rw [stepFirst?_still hquiet.still]
    exact dropRetired?_running hquiet.retired
  unfold settle
  generalize hbudget : budget _ = fuel
  have hfuel : 256 ≤ fuel := by
    rw [← hbudget]
    exact le_budget _
  obtain ⟨rest, rfl⟩ := Nat.exists_eq_add_of_le' (show 2 ≤ fuel by omega)
  rw [runSteps, hstep]
  dsimp only
  rw [runSteps, hstill]

/-! ## Renewing a runtime -/

/-- The machine with a new space for a runtime and without its old one. -/
def renewed (session : Session) (runtime : Nat) : Machine :=
  (session.machine.addSpace (session.space runtime).configuration).1.dropSpace
    (session.spaceOf runtime)

theorem Quiet.reset_eq
    {runtime : Nat} (hquiet : session.Quiet)
    (hown : session.isRunning (session.spaceOf runtime) = false) :
    session.reset runtime =
      { session with
        machine := session.renewed runtime
        current := session.current.set runtime session.machine.spaces.length } :=
  hquiet.settle_retired hown _ _

/-! ## Closing a handle -/

/-- A handle is closed at once, as if nothing had ever waited. -/
theorem Quiet.close_eq
    (hquiet : session.Quiet) (horderly : session.machine.Orderly) (space : Nat)
    (handle : Handle) :
    ∃ machine,
      session.run space (.once (.close handle)) = ({ session with machine := machine }, .done) ∧
        machine.bare = (session.machine.bare.alone space (.close handle)).1 ∧
          machine.pending = [] := by
  have hgoes : session.machine.Goes space (.close handle) _ :=
    Machine.goes hquiet.pending space (.close handle)
  have hanswer : session.machine.bare.alone space (.close handle) =
      ((session.machine.bare.alone space (.close handle)).1, some .done) := by
    cases hlookup : session.machine.lookup space handle with
    | none => rw [@Machine.alone_close_unbound session.machine.bare space handle hlookup]
    | some resource => rw [Machine.alone_close_bound horderly hlookup]
  have hturn : (Script.once (.close handle)).turn = .call (.close handle) := rfl
  rw [hanswer] at hgoes
  obtain ⟨machine, steps, hsteps, hbare, hstill, -, hpass⟩ :=
    Task.passes_call horderly hturn hgoes
  refine ⟨machine, ?_, hbare, hstill⟩
  exact run_last hquiet.retired hquiet.still (hpass (.still rfl)) rfl (by omega)

end Session

end ResourceHandles
