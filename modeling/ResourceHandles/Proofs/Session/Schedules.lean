import ResourceHandles.Session.Task

/-!
# Schedules of a session

A session lets its tasks run by turns, the first one that can make a step before the others,
and time passes when none of them can.  Other schedules are possible: any of the tasks may
be the next to make a step, and a task that rests may go on while others still run.  What
holds along all of them does not depend on the turns.
-/

namespace ResourceHandles

namespace Session

variable {session next later : Session} {machine reached : Machine} {tasks others : List Task}
variable {client count : Nat}

/-- What may happen next in a session with a client: any task makes a step, or the time of the
task that rests the shortest has come.  That is not before the client has ended. -/
inductive Moves (client : Nat) : Session → Session → Prop where
  | step {session : Session} {number : Nat} {task later : Task} {machine : Machine}
      (htask : session.tasks[number]? = some task)
      (hstep : task.step? session.machine = some (machine, later)) :
      Moves client session
        { session with machine := machine, tasks := session.tasks.set number later }
  | wake {session : Session} {number due : Nat}
      (hended : session.taskOutcome? client ≠ none)
      (hdue : session.nextDue? = some (number, due)) :
      Moves client session
        { session with
          tasks := session.tasks.modify number Task.wake
          clock := max session.clock due }

/-- A number of moves, one after the other. -/
inductive Runs (client : Nat) : Nat → Session → Session → Prop where
  | nothing {session : Session} : Runs client 0 session session
  | move {count : Nat} {session next later : Session} (hruns : Runs client count session next)
      (hmove : Moves client next later) : Runs client (count + 1) session later

/-- Nothing may happen any more. -/
def AtRest (client : Nat) (session : Session) : Prop :=
  ∀ next, ¬Moves client session next

/-- Moves are made by tasks; they make no new runtimes and give none up. -/
theorem Runs.frame (hruns : Runs client count session later) :
    later.current = session.current ∧ later.retired = session.retired := by
  induction hruns with
  | nothing => exact ⟨rfl, rfl⟩
  | move hruns hmove ih =>
      cases hmove with
      | step htask hstep => exact ih
      | wake hended hdue => exact ih

/-! ## Turns -/

/-- The first task that can make a step makes it. -/
theorem stepFirst?_some (hstep : stepFirst? machine tasks = some (reached, others)) :
    ∃ number task later,
      tasks[number]? = some task ∧ task.step? machine = some (reached, later) ∧
        others = tasks.set number later := by
  induction tasks generalizing others with
  | nil => cases hstep
  | cons first rest ih =>
      rw [stepFirst?] at hstep
      split at hstep
      · next stepped later hfirst =>
          cases hstep
          exact ⟨0, first, later, rfl, hfirst, rfl⟩
      · split at hstep
        · next stepped after hrest =>
            cases hstep
            obtain ⟨number, task, later, htask, hstepped, rfl⟩ := ih hrest
            exact ⟨number + 1, task, later, htask, hstepped, rfl⟩
        · cases hstep

theorem stepFirst?_none (hstep : stepFirst? machine tasks = none) :
    ∀ task ∈ tasks, task.step? machine = none := by
  induction tasks with
  | nil =>
      intro task hmem
      cases hmem
  | cons first rest ih =>
      rw [stepFirst?] at hstep
      split at hstep
      · cases hstep
      · next hfirst =>
          split at hstep
          · cases hstep
          · next hrest =>
              intro task hmem
              rcases List.mem_cons.mp hmem with rfl | hmem
              · exact hfirst
              · exact ih hrest task hmem

/-- Every step of a task keeps a property of the machine and the tasks, and takes them higher,
up to a bound. -/
structure Climbs (P : Machine → List Task → Nat → Prop) (bound : Nat) : Prop where
  step :
    ∀ {machine tasks height number task reached later}, P machine tasks height →
      tasks[number]? = some task → task.step? machine = some (reached, later) →
        ∃ higher, height < higher ∧ P reached (tasks.set number later) higher
  height_le : ∀ {machine tasks height}, P machine tasks height → height ≤ bound

/-- Any number of turns keeps what climbs, and after enough of them no task can make a
step. -/
theorem Climbs.runSteps
    {P : Machine → List Task → Nat → Prop} {bound height : Nat} (hclimbs : Climbs P bound)
    (hretired : session.retired = []) (fuel : Nat)
    (hsession : P session.machine session.tasks height) :
    ∃ machine tasks higher,
      Session.runSteps fuel session = { session with machine := machine, tasks := tasks } ∧
        P machine tasks higher ∧
          (bound < height + fuel → ∀ task ∈ tasks, task.step? machine = none) := by
  induction fuel generalizing session height with
  | zero =>
      have hle := hclimbs.height_le hsession
      exact ⟨session.machine, session.tasks, height, rfl, hsession, fun hfuel => by omega⟩
  | succ fuel ih =>
      rw [Session.runSteps]
      cases hfirst : stepFirst? session.machine session.tasks with
      | none =>
          have hnone : session.step? = none := by
            simp only [step?, hfirst, dropRetired?, hretired, List.find?_nil]
          rw [hnone]
          exact ⟨session.machine, session.tasks, height, rfl, hsession,
            fun _ => stepFirst?_none hfirst⟩
      | some stepped =>
          obtain ⟨reached, others⟩ := stepped
          have hsome :
              session.step? = some { session with machine := reached, tasks := others } := by
            simp only [step?, hfirst]
          rw [hsome]
          obtain ⟨number, task, later, htask, hstepped, rfl⟩ := stepFirst?_some hfirst
          obtain ⟨higher, hlt, hreached⟩ := hclimbs.step hsession htask hstepped
          obtain ⟨last, ended, highest, hruns, hlast, hrest⟩ :=
            @ih { session with machine := reached, tasks := session.tasks.set number later }
              higher hretired hreached
          exact ⟨last, ended, highest, hruns, hlast, fun hfuel => hrest (by omega)⟩

end Session

end ResourceHandles
