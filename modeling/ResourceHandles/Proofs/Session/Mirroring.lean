import ResourceHandles.Session.Step
import ResourceHandles.Proofs.Machine.Mirroring

/-!
# Sessions that differ in one space

Two sessions whose machines differ in one space, and which have otherwise the same tasks,
names and runtimes, take the same turns.  Whatever is done with the other runtimes ends alike
in both, and leaves two sessions that differ as before.
-/

namespace ResourceHandles

/-! ## Related lists -/

section Related

variable {α β γ : Type} {R : α → β → Prop} {entries : List α} {others : List β}

theorem forall₂_map_eq
    {view : α → γ} {seen : β → γ} (hview : ∀ entry other, R entry other → seen other = view entry)
    (hrelated : List.Forall₂ R entries others) : others.map seen = entries.map view := by
  induction hrelated with
  | nil => rfl
  | cons hfirst hrest ih => rw [List.map_cons, List.map_cons, hview _ _ hfirst, ih]

theorem forall₂_getElem? (hrelated : List.Forall₂ R entries others) (number : Nat) :
    Option.Rel R entries[number]? others[number]? := by
  induction hrelated generalizing number with
  | nil => exact .none
  | cons hfirst hrest ih =>
      cases number with
      | zero => exact .some hfirst
      | succ number => exact ih number

theorem forall₂_set
    {entry : α} {other : β} (hrelated : List.Forall₂ R entries others) (hentry : R entry other)
    (number : Nat) : List.Forall₂ R (entries.set number entry) (others.set number other) := by
  induction hrelated generalizing number with
  | nil => exact .nil
  | cons hfirst hrest ih =>
      cases number with
      | zero => exact .cons hentry hrest
      | succ number => exact .cons hfirst (ih number)

theorem forall₂_modify
    {change : α → α} {alter : β → β}
    (hchange : ∀ entry other, R entry other → R (change entry) (alter other))
    (hrelated : List.Forall₂ R entries others) (number : Nat) :
    List.Forall₂ R (entries.modify number change) (others.modify number alter) := by
  induction hrelated generalizing number with
  | nil =>
      rw [List.modify_nil, List.modify_nil]
      exact .nil
  | cons hfirst hrest ih =>
      cases number with
      | zero => exact .cons (hchange _ _ hfirst) hrest
      | succ number => exact .cons hfirst (ih number)

end Related

namespace Renewal

variable {renewal : Renewal}

/-! ## Tasks -/

/-- A task of the second session that does what one of the first does; where a task runs is of
no account once it has ended. -/
structure MirrorsTask (renewal : Renewal) (task other : Task) : Prop where
  script : other.script = task.script
  waiting : other.waiting = task.waiting.map (· + renewal.lag)
  space :
    task.outcome? = none →
      renewal.Live task.space ∧ other.space = renewal.rename task.space

/-- What a step makes of a task and its machine, in both sessions. -/
structure MirrorsStep (renewal : Renewal) (stepped other : Machine × Task) : Prop where
  machine : renewal.Mirrors stepped.1 other.1
  task : renewal.MirrorsTask stepped.2 other.2

namespace MirrorsTask

variable {first second : Machine} {task other : Task}

theorem outcome?_eq (htask : renewal.MirrorsTask task other) : other.outcome? = task.outcome? := by
  unfold Task.outcome?
  rw [htask.script, htask.waiting]
  cases task.waiting with
  | none => rfl
  | some ticket => rfl

theorem due?_eq (htask : renewal.MirrorsTask task other) : other.due? = task.due? := by
  unfold Task.due?
  rw [htask.script, htask.waiting]
  cases task.waiting with
  | none => rfl
  | some ticket => rfl

theorem resume
    (htask : renewal.MirrorsTask task other) (hrunning : task.outcome? = none) (reply : Reply) :
    renewal.MirrorsTask (task.resume reply) (other.resume reply) := by
  refine ⟨?_, rfl, fun _ => htask.space hrunning⟩
  unfold Task.resume
  rw [htask.script]

theorem wake (htask : renewal.MirrorsTask task other) :
    renewal.MirrorsTask task.wake other.wake := by
  unfold Task.wake
  rw [htask.script]
  cases hscript : task.script with
  | delayed due call =>
      refine ⟨rfl, htask.waiting, fun _ => htask.space ?_⟩
      unfold Task.outcome?
      rw [hscript]
      cases task.waiting with
      | none => rfl
      | some ticket => rfl
  | _ => exact htask

theorem step?
    (hmirrors : renewal.Mirrors first second) (htask : renewal.MirrorsTask task other) :
    Option.Rel renewal.MirrorsStep (task.step? first) (other.step? second) := by
  unfold Task.step?
  rw [htask.waiting]
  cases hwaiting : task.waiting with
  | some ticket =>
      have hrunning : task.outcome? = none := by
        unfold Task.outcome?
        rw [hwaiting]
      have hadvance := hmirrors.advance? ticket first.network.capacity
      simp only [Option.map_some, hmirrors.network]
      generalize first.advance? ticket first.network.capacity = advanced at hadvance ⊢
      generalize second.advance? (ticket + renewal.lag) first.network.capacity = further
        at hadvance ⊢
      cases hadvance with
      | none => exact .none
      | @some advanced further halike =>
          obtain ⟨machine, reply⟩ := advanced
          obtain ⟨mirror, answer⟩ := further
          obtain ⟨hadvanced, rfl⟩ := halike
          cases answer with
          | none => exact .some ⟨hadvanced, htask⟩
          | some reply => exact .some ⟨hadvanced, htask.resume hrunning reply⟩
  | none =>
      rw [htask.script]
      cases hturn : task.script.turn with
      | finish outcome => exact .none
      | rest due => exact .none
      | call call =>
          have hrunning : task.outcome? = none := by
            unfold Task.outcome?
            rw [hwaiting, hturn]
          obtain ⟨hlive, hspace⟩ := htask.space hrunning
          obtain ⟨hstarted, hsame⟩ := hmirrors.start hlive call
          simp only [Option.map_none, hspace]
          generalize first.start task.space call = started at hstarted hsame ⊢
          generalize second.start (renewal.rename task.space) call = further at hstarted hsame ⊢
          obtain ⟨machine, answer⟩ := started
          obtain ⟨mirror, same⟩ := further
          dsimp only at hstarted hsame
          subst hsame
          cases answer with
          | answered reply => exact .some ⟨hstarted, htask.resume hrunning reply⟩
          | waiting ticket =>
              exact .some ⟨hstarted, rfl, rfl, fun _ => ⟨hlive, rfl⟩⟩

end MirrorsTask

/-! ## Sessions -/

/-- What holds of two sessions that differ in one space, that of a runtime; `count` is the
number of runtimes. -/
structure MirrorsSession (renewal : Renewal) (runtime count : Nat) (first second : Session) :
    Prop where
  machine : renewal.Mirrors first.machine second.machine
  tasks : List.Forall₂ renewal.MirrorsTask first.tasks second.tasks
  clock : second.clock = first.clock
  names : second.names = first.names
  length : first.current.length = count
  current : second.current = first.current.map renewal.rename
  renewed : first.current[runtime]? = some renewal.fresh
  others :
    ∀ other space, other ≠ runtime → first.current[other]? = some space → renewal.Live space
  retired : second.retired = first.retired.map renewal.rename
  leaving : ∀ space ∈ first.retired, renewal.Live space

/-- Two things done in sessions that end alike and leave two sessions that differ as before. -/
structure AlikeSession {α : Type} (renewal : Renewal) (runtime count : Nat)
    (first second : Session × α) : Prop where
  mirrors : renewal.MirrorsSession runtime count first.1 second.1
  same : second.2 = first.2

namespace MirrorsSession

variable {runtime count space : Nat} {first second : Session}

theorem isRunning_eq
    (hmirrors : renewal.MirrorsSession runtime count first second) (hlive : renewal.Live space) :
    second.isRunning (renewal.rename space) = first.isRunning space := by
  have hruns :
      (second.tasks.map fun task =>
          task.space == renewal.rename space && task.outcome?.isNone) =
        first.tasks.map fun task => task.space == space && task.outcome?.isNone := by
    apply forall₂_map_eq _ hmirrors.tasks
    intro task other htask
    rw [htask.outcome?_eq]
    cases houtcome : task.outcome? with
    | some outcome => simp
    | none =>
        obtain ⟨hrunning, hspace⟩ := htask.space houtcome
        have hinj := rename_inj hrunning.ne_old hlive.ne_old
        simp [hspace, hinj]
  have hany := congrArg (List.any · id) hruns
  simpa [Session.isRunning, List.any_map, Function.comp_def] using hany

theorem setMachine
    {machine mirror : Machine} (hmirrors : renewal.MirrorsSession runtime count first second)
    (hmachine : renewal.Mirrors machine mirror) :
    renewal.MirrorsSession runtime count { first with machine := machine }
      { second with machine := mirror } :=
  { hmirrors with machine := hmachine }

/-! ## Turns -/

theorem stepFirst?
    {machine mirror : Machine} {tasks others : List Task}
    (hmachine : renewal.Mirrors machine mirror)
    (htasks : List.Forall₂ renewal.MirrorsTask tasks others) :
    Option.Rel
      (fun stepped further => renewal.Mirrors stepped.1 further.1 ∧
        List.Forall₂ renewal.MirrorsTask stepped.2 further.2)
      (Session.stepFirst? machine tasks) (Session.stepFirst? mirror others) := by
  induction htasks with
  | nil => exact .none
  | @cons task other tasks others htask hrest ih =>
      have hstep := htask.step? hmachine
      rw [Session.stepFirst?, Session.stepFirst?]
      generalize task.step? machine = stepped at hstep ⊢
      generalize other.step? mirror = further at hstep ⊢
      cases hstep with
      | some hstepped => exact .some ⟨hstepped.machine, .cons hstepped.task hrest⟩
      | none =>
          dsimp only
          generalize Session.stepFirst? machine tasks = stepped at ih ⊢
          generalize Session.stepFirst? mirror others = further at ih ⊢
          cases ih with
          | none => exact .none
          | some hlater => exact .some ⟨hlater.1, .cons htask hlater.2⟩

theorem erase_rename {spaces : List Nat} (hspaces : ∀ space ∈ spaces, renewal.Live space)
    (hlive : renewal.Live space) :
    (spaces.map renewal.rename).erase (renewal.rename space) =
      (spaces.erase space).map renewal.rename := by
  induction spaces with
  | nil => rfl
  | cons first rest ih =>
      have hinj := rename_inj (hspaces first List.mem_cons_self).ne_old hlive.ne_old
      have hrest := ih fun later hlater => hspaces later (List.mem_cons_of_mem _ hlater)
      rw [List.map_cons, List.erase_cons, List.erase_cons]
      by_cases hsame : first = space
      · simp [hsame]
      · have hne : renewal.rename first ≠ renewal.rename space := fun heq => hsame (hinj.mp heq)
        simp [hsame, hne, hrest]

theorem dropRetired? (hmirrors : renewal.MirrorsSession runtime count first second) :
    Option.Rel (renewal.MirrorsSession runtime count) first.dropRetired? second.dropRetired? := by
  have hfind :
      (second.retired.find? fun space => !second.isRunning space) =
        (first.retired.find? fun space => !first.isRunning space).map renewal.rename := by
    rw [hmirrors.retired, List.find?_map]
    congr 1
    apply List.find?_congr
    intro space hmem
    simp only [Function.comp_apply, hmirrors.isRunning_eq (hmirrors.leaving space hmem)]
  unfold Session.dropRetired?
  rw [hfind]
  cases hfound : first.retired.find? fun space => !first.isRunning space with
  | none => exact .none
  | some space =>
      have hlive := hmirrors.leaving space (List.mem_of_find?_eq_some hfound)
      refine .some { hmirrors with
        machine := hmirrors.machine.dropSpace hlive
        retired := ?_
        leaving := fun later hmem => hmirrors.leaving later (List.mem_of_mem_erase hmem) }
      dsimp only
      rw [hmirrors.retired, erase_rename hmirrors.leaving hlive]

theorem step? (hmirrors : renewal.MirrorsSession runtime count first second) :
    Option.Rel (renewal.MirrorsSession runtime count) first.step? second.step? := by
  have hstep := stepFirst? hmirrors.machine hmirrors.tasks
  unfold Session.step?
  generalize Session.stepFirst? first.machine first.tasks = stepped at hstep ⊢
  generalize Session.stepFirst? second.machine second.tasks = further at hstep ⊢
  cases hstep with
  | none => exact hmirrors.dropRetired?
  | some hstepped => exact .some { hmirrors with machine := hstepped.1, tasks := hstepped.2 }

theorem runSteps
    (hmirrors : renewal.MirrorsSession runtime count first second) (fuel : Nat) :
    renewal.MirrorsSession runtime count (Session.runSteps fuel first)
      (Session.runSteps fuel second) := by
  induction fuel generalizing first second with
  | zero => exact hmirrors
  | succ fuel ih =>
      have hstep := hmirrors.step?
      rw [Session.runSteps, Session.runSteps]
      generalize first.step? = stepped at hstep ⊢
      generalize second.step? = further at hstep ⊢
      cases hstep with
      | none => exact hmirrors
      | some hstepped => exact ih hstepped

theorem budget_eq (hmirrors : renewal.MirrorsSession runtime count first second) :
    second.budget = first.budget := by
  have hvolumes :
      (second.tasks.map fun task => task.script.volume + ResourceHandles.response.length) =
        first.tasks.map fun task => task.script.volume + ResourceHandles.response.length :=
    forall₂_map_eq (fun _ _ htask => by rw [htask.script]) hmirrors.tasks
  unfold Session.budget Session.volume
  rw [hvolumes, hmirrors.machine.tree, hmirrors.machine.network, hmirrors.retired,
    List.length_map, hmirrors.tasks.length_eq]

theorem settle (hmirrors : renewal.MirrorsSession runtime count first second) :
    renewal.MirrorsSession runtime count first.settle second.settle := by
  unfold Session.settle
  rw [hmirrors.budget_eq]
  exact hmirrors.runSteps _

/-- A task that is started, or has ended from the start. -/
theorem launch
    (hmirrors : renewal.MirrorsSession runtime count first second) (script : Script)
    {place : Nat}
    (hplace :
      Task.outcome? ⟨space, script, none⟩ = none →
        renewal.Live space ∧ place = renewal.rename space) :
    renewal.MirrorsSession runtime count (first.launch space script)
      (second.launch place script) := by
  have htask : renewal.MirrorsTask ⟨space, script, none⟩ ⟨place, script, none⟩ :=
    ⟨rfl, rfl, hplace⟩
  exact settle { hmirrors with tasks := List.rel_append hmirrors.tasks (.cons htask .nil) }

theorem taskOutcome?_eq
    (hmirrors : renewal.MirrorsSession runtime count first second) (number : Nat) :
    second.taskOutcome? number = first.taskOutcome? number := by
  have hfound := forall₂_getElem? hmirrors.tasks number
  unfold Session.taskOutcome?
  generalize first.tasks[number]? = found at hfound ⊢
  generalize second.tasks[number]? = match? at hfound ⊢
  cases hfound with
  | none => rfl
  | some htask => exact htask.outcome?_eq

theorem giveUp
    (hmirrors : renewal.MirrorsSession runtime count first second) (number : Nat) :
    renewal.MirrorsSession runtime count (first.giveUp number) (second.giveUp number) := by
  have hfound := forall₂_getElem? hmirrors.tasks number
  unfold Session.giveUp
  generalize first.tasks[number]? = found at hfound ⊢
  generalize second.tasks[number]? = match? at hfound ⊢
  cases hfound with
  | none => exact hmirrors
  | @some task other htask =>
      dsimp only
      rw [htask.outcome?_eq]
      split
      · exact hmirrors
      · next hrunning =>
          have hrunning : task.outcome? = none := by simpa using hrunning
          obtain ⟨hlive, hspace⟩ := htask.space hrunning
          have hended : renewal.MirrorsTask
              { space := task.space, script := .ended (.failed .timedOut) }
              { space := other.space, script := .ended (.failed .timedOut) } :=
            ⟨rfl, rfl, fun _ => ⟨hlive, hspace⟩⟩
          have hmachine : renewal.Mirrors
              ((task.waiting.map first.machine.abandon).getD first.machine)
              ((other.waiting.map second.machine.abandon).getD second.machine) := by
            rw [htask.waiting]
            cases task.waiting with
            | none => exact hmirrors.machine
            | some ticket => exact hmirrors.machine.abandon ticket
          exact settle { hmirrors with
            machine := hmachine
            tasks := forall₂_set hmirrors.tasks hended number }

/-! ## Waiting -/

theorem jobOutcome?_eq
    (hmirrors : renewal.MirrorsSession runtime count first second) (job : Job) :
    second.jobOutcome? job = first.jobOutcome? job := by
  cases job with
  | task number => exact hmirrors.taskOutcome?_eq number
  | exchange server client =>
      simp only [Session.jobOutcome?, hmirrors.taskOutcome?_eq]

theorem nextDue?_eq (hmirrors : renewal.MirrorsSession runtime count first second) :
    second.nextDue? = first.nextDue? := by
  have hdues : second.tasks.map Task.due? = first.tasks.map Task.due? :=
    forall₂_map_eq (fun _ _ htask => htask.due?_eq) hmirrors.tasks
  have hrest : second.tasks.filterMap Task.due? = first.tasks.filterMap Task.due? := by
    have hreduced := congrArg (List.filterMap id) hdues
    rwa [List.filterMap_map, List.filterMap_map] at hreduced
  have hfind : ∀ due, (second.tasks.findIdx? fun task => task.due? == some due) =
      first.tasks.findIdx? fun task => task.due? == some due := by
    intro due
    have hfound := congrArg (List.findIdx? (· == some due)) hdues
    rwa [List.findIdx?_map, List.findIdx?_map] at hfound
  unfold Session.nextDue?
  rw [hrest]
  simp only [hfind]

theorem wake? (hmirrors : renewal.MirrorsSession runtime count first second) :
    Option.Rel (renewal.MirrorsSession runtime count) first.wake? second.wake? := by
  unfold Session.wake?
  rw [hmirrors.nextDue?_eq]
  cases first.nextDue? with
  | none => exact .none
  | some next =>
      refine .some (settle { hmirrors with
        tasks := forall₂_modify (fun _ _ htask => htask.wake) hmirrors.tasks next.1
        clock := ?_ })
      dsimp only
      rw [hmirrors.clock]

theorem passTime
    (hmirrors : renewal.MirrorsSession runtime count first second) (job : Job) (fuel : Nat) :
    renewal.MirrorsSession runtime count (Session.passTime job fuel first)
      (Session.passTime job fuel second) := by
  induction fuel generalizing first second with
  | zero => exact hmirrors
  | succ fuel ih =>
      have hwake := hmirrors.wake?
      rw [Session.passTime, Session.passTime, hmirrors.jobOutcome?_eq]
      split
      · exact hmirrors
      · generalize first.wake? = woken at hwake ⊢
        generalize second.wake? = further at hwake ⊢
        cases hwake with
        | none => exact hmirrors
        | some hlater => exact ih hlater

theorem await
    (hmirrors : renewal.MirrorsSession runtime count first second) (job : Job) :
    renewal.AlikeSession runtime count (first.await job) (second.await job) := by
  unfold Session.await
  rw [← hmirrors.tasks.length_eq]
  have hlater := hmirrors.passTime job first.tasks.length
  exact ⟨hlater, congrArg (Option.getD · _) (hlater.jobOutcome?_eq job)⟩

/-- A script is run to the same end. -/
theorem run
    (hmirrors : renewal.MirrorsSession runtime count first second) (hlive : renewal.Live space)
    (script : Script) :
    renewal.AlikeSession runtime count (first.run space script)
      (second.run (renewal.rename space) script) := by
  unfold Session.run
  rw [← hmirrors.tasks.length_eq]
  have hlaunched := hmirrors.launch script fun _ => ⟨hlive, rfl⟩
  have hawaited := hlaunched.await (.task first.tasks.length)
  have hleft := hawaited.mirrors.giveUp first.tasks.length
  exact ⟨{ hleft with tasks := List.forall₂_take _ hleft.tasks }, hawaited.same⟩

end MirrorsSession

end Renewal

end ResourceHandles
