import ResourceHandles.Proofs.Session.ClosingTime
import ResourceHandles.Proofs.Session.Schedules

/-!
# A server, a client, and the one that closes the listener

Three tasks run beside each other: a server, the client that makes its requests, and a task
that rests until the deadline and then closes the listener.  Whichever of them makes the next
step, they are further then, and there is a bound on how far they can get.  When nothing is
left to be done, the server and the client have ended.
-/

namespace ResourceHandles

namespace Venue

variable {venue : Venue} {machine reached : Machine} {client server : Speaker} {tasks : List Task}
variable {task later : Task} {due number height : Nat}

/-- The task that closes the listener, the server, and the client. -/
def trio (venue : Venue) (closing : Script) (server client : Speaker) : List Task :=
  [⟨venue.space, closing, none⟩, server.task venue.space, client.task venue.space]

/-- The server is open; so many steps lie behind the three tasks. -/
inductive Serving (venue : Venue) (due : Nat) : Machine → List Task → Nat → Prop where
  | mk {machine : Machine} {client server : Speaker}
      (hconversing : venue.Conversing machine client server) :
      Serving venue due machine
        (venue.trio (.delayed due (.close venue.listener)) server client)
        (client.effort + server.effort)

/-- The deadline has come; so many steps lie behind the three tasks. -/
inductive Waning (venue : Venue) : Machine → List Task → Nat → Prop where
  | woken {machine : Machine} {client server : Speaker}
      (hconversing : venue.Conversing machine client server)
      (hdone : client.progress = 4 * venue.dialogue.bodies.length) :
      Waning venue machine (venue.trio (.once (.close venue.listener)) server client)
        (client.effort + server.effort + 1)
  | closed {machine : Machine} {client server : Speaker}
      (hdeparted : venue.Departed machine client server) :
      Waning venue machine (venue.trio (.ended .done) server client)
        (client.effort + server.effort + 2)

/-! ## How far they get -/

theorem Asking.effort_le
    (hasking : venue.Asking client)
    (hle : client.progress ≤ 4 * venue.dialogue.bodies.length) :
    client.effort ≤ 8 * venue.dialogue.bodies.length := by
  unfold Speaker.effort
  rcases hle.lt_or_eq with hlt | hdone
  · split <;> omega
  · rw [(hasking.ended hdone).2.1, hdone]
    simp only [Option.isSome_none, Bool.false_eq_true, if_false]
    omega

theorem Conversing.server_effort_le (hconversing : venue.Conversing machine client server) :
    server.effort ≤ 8 * venue.dialogue.bodies.length + 1 := by
  have hle := hconversing.lines.client_le
  have haccepted := hconversing.lines.accepted venue.dialogue.bodies.length
  unfold Speaker.effort
  split <;> omega

theorem Departing.effort_le (hdeparting : venue.Departing server) :
    server.effort ≤ 8 * venue.dialogue.bodies.length + 2 := by
  unfold Speaker.effort
  cases hdeparting with
  | closing hlast =>
      dsimp only
      split <;> omega
  | accepting =>
      dsimp only
      split <;> omega
  | ended hout hcall =>
      simp only [hcall, Option.isSome_none, Bool.false_eq_true, if_false]
      omega

theorem Serving.height_le (hserving : venue.Serving due machine tasks height) :
    height ≤ 16 * venue.dialogue.bodies.length + 4 := by
  obtain ⟨hconversing⟩ := hserving
  have hclient := hconversing.asking.effort_le hconversing.lines.client_le
  have hserver := hconversing.server_effort_le
  omega

theorem Waning.height_le (hwaning : venue.Waning machine tasks height) :
    height ≤ 16 * venue.dialogue.bodies.length + 4 := by
  cases hwaning with
  | woken hconversing =>
      have hclient := hconversing.asking.effort_le hconversing.lines.client_le
      have hserver := hconversing.server_effort_le
      omega
  | closed hdeparted =>
      have hclient := hdeparted.asking.effort_le hdeparted.done.le
      have hserver := hdeparted.departing.effort_le
      omega

/-! ## Steps -/

/-- A step that a party makes is the one that takes it further. -/
theorem goes_of_step
    {speaker : Speaker} {space : Nat} {holds : Machine → Speaker → Prop} {stuck : Prop}
    (hgoes :
      speaker.Goes space machine holds ∨ ((speaker.task space).step? machine = none ∧ stuck))
    (hstep : (speaker.task space).step? machine = some (reached, later)) :
    ∃ after : Speaker,
      later = after.task space ∧ holds reached after ∧ speaker.effort < after.effort := by
  rcases hgoes with ⟨next, after, hgone, hholds, hlt⟩ | ⟨hstuck, -⟩
  · rw [hstep] at hgone
    cases hgone
    exact ⟨after, rfl, hholds, hlt⟩
  · rw [hstep] at hstuck
    cases hstuck

theorem mem_trio
    {closing : Script} (htask : (venue.trio closing server client)[number]? = some task) :
    (number = 0 ∧ task = ⟨venue.space, closing, none⟩) ∨
      (number = 1 ∧ task = server.task venue.space) ∨
        (number = 2 ∧ task = client.task venue.space) := by
  unfold trio at htask
  match number with
  | 0 => exact Or.inl ⟨rfl, (Option.some.inj htask).symm⟩
  | 1 => exact Or.inr (Or.inl ⟨rfl, (Option.some.inj htask).symm⟩)
  | 2 => exact Or.inr (Or.inr ⟨rfl, (Option.some.inj htask).symm⟩)
  | _ + 3 => cases htask

theorem Asking.still
    (hasking : venue.Asking client)
    (hdone : client.progress = 4 * venue.dialogue.bodies.length) :
    (client.task venue.space).step? machine = none := by
  obtain ⟨-, hquiet, hscript⟩ := hasking.ended hdone
  simp only [Task.step?, Speaker.task, Seat.task, hquiet, hscript]
  rfl

theorem Serving.step
    (hserving : venue.Serving due machine tasks height) (htask : tasks[number]? = some task)
    (hstep : task.step? machine = some (reached, later)) :
    ∃ higher, height < higher ∧ venue.Serving due reached (tasks.set number later) higher := by
  obtain @⟨client, server, hconversing⟩ := hserving
  rcases mem_trio htask with ⟨rfl, rfl⟩ | ⟨rfl, rfl⟩ | ⟨rfl, rfl⟩
  · cases hstep
  · obtain ⟨after, rfl, hnext, hlt⟩ := goes_of_step hconversing.server_goes hstep
    exact ⟨client.effort + after.effort, by omega, .mk hnext⟩
  · obtain ⟨after, rfl, hnext, hlt⟩ := goes_of_step hconversing.client_goes hstep
    exact ⟨after.effort + server.effort, by omega, .mk hnext⟩

theorem Waning.step
    (hwaning : venue.Waning machine tasks height) (htask : tasks[number]? = some task)
    (hstep : task.step? machine = some (reached, later)) :
    ∃ higher, height < higher ∧ venue.Waning reached (tasks.set number later) higher := by
  cases hwaning with
  | @woken client server hconversing hdone =>
      rcases mem_trio htask with ⟨rfl, rfl⟩ | ⟨rfl, rfl⟩ | ⟨rfl, rfl⟩
      · obtain ⟨next, hstart, hnext⟩ := hconversing.closes_listener hdone
        rw [Task.step?_answered rfl hstart] at hstep
        cases hstep
        exact ⟨client.effort + server.effort + 2, by omega, .closed hnext⟩
      · obtain ⟨after, rfl, hnext, hlt⟩ := goes_of_step hconversing.server_goes hstep
        exact ⟨client.effort + after.effort + 1, by omega, .woken hnext hdone⟩
      · rw [hconversing.asking.still hdone] at hstep
        cases hstep
  | @closed client server hdeparted =>
      rcases mem_trio htask with ⟨rfl, rfl⟩ | ⟨rfl, rfl⟩ | ⟨rfl, rfl⟩
      · cases hstep
      · obtain ⟨after, rfl, hnext, hlt⟩ := goes_of_step hdeparted.server_goes hstep
        exact ⟨client.effort + after.effort + 2, by omega, .closed hnext⟩
      · rw [hdeparted.asking.still hdeparted.done] at hstep
        cases hstep

theorem climbs_serving (venue : Venue) (due : Nat) :
    Session.Climbs (venue.Serving due) (16 * venue.dialogue.bodies.length + 4) :=
  ⟨Serving.step, Serving.height_le⟩

theorem climbs_waning (venue : Venue) :
    Session.Climbs venue.Waning (16 * venue.dialogue.bodies.length + 4) :=
  ⟨Waning.step, Waning.height_le⟩

/-! ## Tasks that can make no step -/

/-- If none of the tasks can make a step while the server is open, all requests are responded
to and the server waits for another one. -/
theorem Serving.still
    (hserving : venue.Serving due machine tasks height)
    (hstill : ∀ task ∈ tasks, task.step? machine = none) :
    ∃ client server,
      tasks = venue.trio (.delayed due (.close venue.listener)) server client ∧
        venue.Conversing machine client server ∧
          client.progress = 4 * venue.dialogue.bodies.length ∧
            server.progress = 4 * venue.dialogue.bodies.length := by
  obtain @⟨client, server, hconversing⟩ := hserving
  exact ⟨client, server, rfl, hconversing,
    hconversing.through (hstill _ (by simp [trio])) (hstill _ (by simp [trio]))⟩

/-- If none of the tasks can make a step after the deadline, all of them have ended. -/
theorem Waning.still
    (hwaning : venue.Waning machine tasks height)
    (hstill : ∀ task ∈ tasks, task.step? machine = none) :
    ∃ client server,
      tasks = venue.trio (.ended .done) server client ∧
        venue.Departed machine client server ∧
          server.progress = 4 * venue.dialogue.bodies.length + 1 := by
  cases hwaning with
  | woken hconversing hdone =>
      obtain ⟨next, hstart, -⟩ := hconversing.closes_listener hdone
      have hstep := hstill _ (List.mem_cons_self ..)
      rw [Task.step?_answered rfl hstart] at hstep
      cases hstep
  | @closed client server hdeparted =>
      refine ⟨client, server, rfl, hdeparted, ?_⟩
      rcases hdeparted.server_goes with ⟨_, _, hstep, -⟩ | ⟨-, hended⟩
      · rw [hstill _ (by simp [trio])] at hstep
        cases hstep
      · exact hended

/-! ## The time that passes -/

theorem Asking.due?_eq (hasking : venue.Asking client) :
    (client.task venue.space).due? = none := by
  unfold Task.due? Speaker.task Seat.task
  cases hasking <;> cases Seat.call _ <;> rfl

theorem Answering.due?_eq (hanswering : venue.Answering server) :
    (server.task venue.space).due? = none := by
  unfold Task.due? Speaker.task Seat.task
  cases hanswering <;> cases Seat.call _ <;> rfl

theorem Departing.due?_eq (hdeparting : venue.Departing server) :
    (server.task venue.space).due? = none := by
  unfold Task.due? Speaker.task Seat.task
  cases hdeparting <;> cases Seat.call _ <;> rfl

section Time

variable {session next later : Session} {closing : Script}

/-- The task that rests is the only one to wait for the time to pass. -/
theorem nextDue?_delayed
    {call : Call} (htasks : session.tasks = venue.trio (.delayed due call) server client)
    (hserver : (server.task venue.space).due? = none)
    (hclient : (client.task venue.space).due? = none) :
    session.nextDue? = some (0, due) := by
  have hdue : Task.due? ⟨venue.space, .delayed due call, none⟩ = some due := rfl
  simp only [Session.nextDue?, htasks, trio, List.filterMap_cons, hdue, hserver, hclient,
    List.filterMap_nil, List.min?_singleton, List.findIdx?_cons, beq_self_eq_true, if_true,
    Option.map_some]

theorem nextDue?_none
    (htasks : session.tasks = venue.trio closing server client)
    (hclosing : Task.due? ⟨venue.space, closing, none⟩ = none)
    (hserver : (server.task venue.space).due? = none)
    (hclient : (client.task venue.space).due? = none) : session.nextDue? = none := by
  simp only [Session.nextDue?, htasks, trio, List.filterMap_cons, hclosing, hserver, hclient,
    List.filterMap_nil, List.min?_nil]

/-- The client has an outcome only when all its requests are responded to. -/
theorem Asking.done_of_outcome
    (hasking : venue.Asking client) (houtcome : (client.task venue.space).outcome? ≠ none) :
    client.progress = 4 * venue.dialogue.bodies.length := by
  cases hasking with
  | done hout hcall => rfl
  | _ =>
      refine absurd ?_ houtcome
      unfold Task.outcome? Speaker.task Seat.task
      cases Seat.call _ <;> rfl

theorem Asking.outcome?_eq
    (hasking : venue.Asking client)
    (hdone : client.progress = 4 * venue.dialogue.bodies.length) :
    (client.task venue.space).outcome? =
      some (.responded (venue.replies venue.dialogue.bodies.length)) := by
  obtain ⟨-, hquiet, hscript⟩ := hasking.ended hdone
  simp only [Task.outcome?, Speaker.task, Seat.task, hquiet, hscript]
  rfl

theorem Conversing.nextDue?_eq
    (hconversing : venue.Conversing machine client server)
    (htasks : session.tasks = venue.trio (.delayed due (.close venue.listener)) server client) :
    session.nextDue? = some (0, due) :=
  nextDue?_delayed htasks hconversing.answering.due?_eq hconversing.asking.due?_eq

theorem Waning.nextDue?_eq (hwaning : venue.Waning machine session.tasks height) :
    session.nextDue? = none := by
  generalize htasks : session.tasks = tasks at hwaning
  cases hwaning with
  | woken hconversing =>
      exact nextDue?_none htasks rfl hconversing.answering.due?_eq hconversing.asking.due?_eq
  | closed hdeparted =>
      exact nextDue?_none htasks rfl hdeparted.departing.due?_eq hdeparted.asking.due?_eq

/-- The server is open, or the deadline has come. -/
def Underway (venue : Venue) (due : Nat) (session : Session) (height : Nat) : Prop :=
  venue.Serving due session.machine session.tasks height ∨
    venue.Waning session.machine session.tasks height

/-- Whatever happens next takes the three tasks further. -/
theorem Underway.moves
    (hunderway : venue.Underway due session height) (hmove : Session.Moves 2 session next) :
    ∃ higher, height < higher ∧ venue.Underway due next higher := by
  cases hmove with
  | step htask hstep =>
      rcases hunderway with hserving | hwaning
      · obtain ⟨higher, hlt, hnext⟩ := hserving.step htask hstep
        exact ⟨higher, hlt, Or.inl hnext⟩
      · obtain ⟨higher, hlt, hnext⟩ := hwaning.step htask hstep
        exact ⟨higher, hlt, Or.inr hnext⟩
  | @wake number other hended hdue =>
      rcases hunderway with hserving | hwaning
      · generalize htasks : session.tasks = tasks at hserving
        obtain @⟨client, server, hconversing⟩ := hserving
        have houtcome : (client.task venue.space).outcome? ≠ none := by
          intro hnone
          apply hended
          unfold Session.taskOutcome?
          rw [htasks]
          exact hnone
        rw [hconversing.nextDue?_eq htasks] at hdue
        cases hdue
        exact ⟨client.effort + server.effort + 1, by omega,
          Or.inr (.woken hconversing (hconversing.asking.done_of_outcome houtcome))⟩
      · rw [hwaning.nextDue?_eq] at hdue
        cases hdue

/-- A run has no more moves than there are steps for the three tasks to make. -/
theorem Underway.runs
    {count : Nat} (hunderway : venue.Underway due session height)
    (hruns : Session.Runs 2 count session later) :
    ∃ higher, height + count ≤ higher ∧ venue.Underway due later higher := by
  induction hruns with
  | nothing => exact ⟨height, le_rfl, hunderway⟩
  | move hruns hmove ih =>
      obtain ⟨middle, hle, hmiddle⟩ := ih hunderway
      obtain ⟨higher, hlt, hlater⟩ := hmiddle.moves hmove
      exact ⟨higher, by omega, hlater⟩

theorem Underway.height_le (hunderway : venue.Underway due session height) :
    height ≤ 16 * venue.dialogue.bodies.length + 4 := by
  rcases hunderway with hserving | hwaning
  · exact hserving.height_le
  · exact hwaning.height_le

/-- When nothing may happen any more, the listener is closed and all have ended. -/
theorem Underway.over (hunderway : venue.Underway due session height) (hrest : session.AtRest 2) :
    ∃ client server,
      session.tasks = venue.trio (.ended .done) server client ∧
        venue.Departed session.machine client server ∧
          server.progress = 4 * venue.dialogue.bodies.length + 1 := by
  have hstill : ∀ task ∈ session.tasks, task.step? session.machine = none := by
    intro task hmem
    obtain ⟨number, htask⟩ := List.mem_iff_getElem?.mp hmem
    cases hstep : task.step? session.machine with
    | none => rfl
    | some stepped => exact absurd (.step htask hstep) (hrest _)
  rcases hunderway with hserving | hwaning
  · obtain ⟨client, server, htasks, hconversing, hdone, -⟩ := hserving.still hstill
    refine absurd (.wake ?_ (hconversing.nextDue?_eq htasks)) (hrest _)
    unfold Session.taskOutcome?
    rw [htasks]
    show (client.task venue.space).outcome? ≠ none
    rw [hconversing.asking.outcome?_eq hdone]
    simp
  · exact hwaning.still hstill

end Time

end Venue

end ResourceHandles
