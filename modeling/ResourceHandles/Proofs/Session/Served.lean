import ResourceHandles.Session.Exchange
import ResourceHandles.Proofs.Session.Hosting
import ResourceHandles.Proofs.Session.Quiet

/-!
# A server serves every request

A server is started, a client makes its requests one after the other, and after the deadline
the listener is closed.  However the three of them take turns, the server ends with all the
bodies in order, the client has the first part of the response for each of them, and nothing
is left open.
-/

namespace ResourceHandles

namespace Session

variable {session later : Session} {space fuel count : Nat} {address : String}
variable {machine last : Machine} {task ended : Task} {tasks : List Task} {script : Script}
variable {outcome : Outcome} {job : Job}

/-! ## Refused requests -/

/-- A request to an address that is not reached fails, in two steps. -/
theorem rests_refused
    {endpoint : Endpoint} {fault : SocketFault} (hquiet : machine.pending = [])
    (hplan :
      machine.plan space (.connect address) = (machine, .act (.connect endpoint)))
    (hreach : machine.reach endpoint = .error fault) (body : Bytes) :
    ∃ last,
      Task.Rests machine ⟨space, .request address (.connect body), none⟩ 2 last
        ⟨space, .ended (.failed (.notConnected address)), none⟩ := by
  let parked := (machine.park space (.connect endpoint)).1
  let pending : Pending := ⟨machine.nextTicket, space, .connect endpoint⟩
  have hsuspends :
      (machine.space space).configuration.mode.suspends (Call.connect address).operation =
        true := by
    cases (machine.space space).configuration.mode <;> rfl
  have hstart :
      machine.start space (.connect address) = (parked, .waiting machine.nextTicket) := by
    unfold Machine.start
    rw [hplan]
    simp only [hsuspends, if_true]
    rfl
  have honly : parked.pending = [pending] := by
    show machine.pending ++ [pending] = [pending]
    rw [hquiet, List.nil_append]
  have hperform :
      parked.perform pending.space parked.network.capacity pending.action =
        (parked, .finished (.handle .invalid)) := by
    have hparked : parked.reach endpoint = .error fault := hreach
    simp only [pending, Machine.perform, Machine.finish, Machine.connect, hparked]
  have hadvance :
      parked.advance? machine.nextTicket parked.network.capacity =
        some (parked.forget pending, some (.handle .invalid)) :=
    Machine.advance?_finished honly hperform
  have hafter :
      (Script.request address (.connect body)).after (.handle .invalid) =
        .ended (.failed (.notConnected address)) := by
    simp [Script.after, Script.afterRequest, Request.after, Handle.isValid, Handle.invalid,
      Script.ofResponse]
  have hresumed :
      Task.step? parked ⟨space, .request address (.connect body), some machine.nextTicket⟩ =
        some (parked.forget pending,
          ⟨space, .ended (.failed (.notConnected address)), none⟩) := by
    rw [← hafter]
    exact Task.step?_resumed hadvance
  exact ⟨_, .step (Task.step?_waiting rfl hstart) (.step hresumed (.still rfl))⟩

/-- Everything that was opened since is closed again, and nobody listens at the address. -/
structure Restored (session later : Session) (space : Nat) (address : String) : Prop where
  lookup :
    ∀ owner handle, later.machine.lookup owner handle = session.machine.lookup owner handle
  openHandles : later.openHandles = session.openHandles
  sockets :
    ∀ socket ∈ later.machine.network.sockets.drop session.machine.network.sockets.length,
      socket.isOpen = false
  connections :
    ∀ id : EndId, session.machine.network.links.length ≤ id.link →
      (later.machine.network.getEnd id).isOpen = false
  refused :
    ∀ body,
      (later.run space (.request address (.connect body))).2 =
        .failed (.notConnected address)

end Session

namespace Venue

variable {venue : Venue} {session later : Session} {address : String} {bodies : List Bytes}
variable {client server : Speaker} {machine : Machine}

/-- Nobody answers at the address of a server whose socket is closed. -/
theorem reach_closed
    (hsockets : machine.network.sockets = venue.dialogue.sockets ++ [venue.closedSocket]) :
    ∃ fault, machine.reach venue.endpoint = .error fault := by
  unfold Machine.reach
  rw [venue.resolved]
  unfold Network.connect
  dsimp only
  split
  · exact ⟨_, rfl⟩
  · split
    · exact ⟨_, rfl⟩
    · have hnone :
          (machine.network.sockets.findIdx? fun socket =>
            socket.answers (Network.target venue.dialogue.host) venue.endpoint.port) = none := by
        rw [hsockets, List.findIdx?_eq_none_iff]
        intro socket hmem
        rw [venue.port_eq]
        rcases List.mem_append.mp hmem with hold | hclosed
        · exact venue.dialogue.not_answers hold
        · rw [List.mem_singleton.mp hclosed]
          rfl
      rw [hnone]
      exact ⟨_, rfl⟩

/-- A server that has done all that was left to be done has ended. -/
theorem Departing.over
    (hdeparting : venue.Departing server)
    (hended : server.progress = 4 * venue.dialogue.bodies.length + 1) :
    server.seat.standing = .out ∧ server.seat.call = none ∧
      server.script = .ended (.served venue.dialogue.bodies) := by
  cases hdeparting with
  | closing hlast =>
      change 4 * _ + 3 = _ at hended
      omega
  | accepting =>
      change 4 * _ = _ at hended
      omega
  | ended hout hcall => exact ⟨hout, hcall, rfl⟩

theorem Departed.outcomes
    (hdeparted : venue.Departed machine client server)
    (hended : server.progress = 4 * venue.dialogue.bodies.length + 1) :
    (server.task venue.space).outcome? = some (.served venue.dialogue.bodies) ∧
      (client.task venue.space).outcome? =
        some (.responded (venue.replies venue.dialogue.bodies.length)) := by
  obtain ⟨-, hquiet, hscript⟩ := hdeparted.departing.over hended
  refine ⟨?_, hdeparted.asking.outcome?_eq hdeparted.done⟩
  simp only [Task.outcome?, Speaker.task, Seat.task, hquiet, hscript]
  rfl

/-- The socket is closed once the server does not wait in it any more. -/
theorem Departed.sockets_eq
    (hdeparted : venue.Departed machine client server) (hquiet : server.seat.call = none) :
    machine.network.sockets = venue.dialogue.sockets ++ [venue.closedSocket] := by
  rcases hdeparted.sockets with ⟨hclosed, -⟩ | ⟨-, hcalled, -⟩
  · exact hclosed
  · exact absurd hquiet hcalled

theorem Departed.pending_eq
    (hdeparted : venue.Departed machine client server) (hquiet : server.seat.call = none) :
    machine.pending = [] := by
  obtain ⟨-, hclientCall, -⟩ := hdeparted.asking.ended hdeparted.done
  rw [List.eq_nil_iff_forall_not_mem]
  intro pending hmem
  rcases (hdeparted.company.pending pending).mp hmem with hclient | hserver
  · rw [hclientCall] at hclient
    cases hclient
  · rw [hquiet] at hserver
    cases hserver

/-- The address still names the endpoint at which the server listened. -/
theorem Departed.plan_connect (hdeparted : venue.Departed machine client server) :
    machine.plan venue.space (.connect venue.address) =
      (machine, .act (.connect venue.endpoint)) := by
  simp only [Machine.plan, hdeparted.company.configuration, venue.space_shut, venue.parsed]

/-- A request to a server that has ended fails. -/
theorem Departed.refuses
    (hdeparted : venue.Departed later.machine client server) (hretired : later.retired = [])
    (htasks : later.tasks = venue.trio (.ended .done) server client)
    (hended : server.progress = 4 * venue.dialogue.bodies.length + 1) (body : Bytes) :
    (later.run venue.space (.request venue.address (.connect body))).2 =
      .failed (.notConnected venue.address) := by
  obtain ⟨-, hquiet, -⟩ := hdeparted.departing.over hended
  obtain ⟨hserverOutcome, hclientOutcome⟩ := hdeparted.outcomes hended
  obtain ⟨fault, hreach⟩ := venue.reach_closed (hdeparted.sockets_eq hquiet)
  obtain ⟨last, hrests⟩ :=
    Session.rests_refused (hdeparted.pending_eq hquiet) hdeparted.plan_connect hreach body
  have hstill : ∀ task ∈ later.tasks, task.isStill = true := by
    intro task hmem
    apply Task.isStill_of_outcome
    rw [htasks] at hmem
    simp only [trio, List.mem_cons, List.not_mem_nil, or_false] at hmem
    rcases hmem with rfl | rfl | rfl
    · exact Option.some_ne_none _
    · simp [hserverOutcome]
    · simp [hclientOutcome]
  rw [Session.run_last (by simp [hretired]) hstill hrests rfl (by omega)]

/-- Once all have ended everything is as it was before the server was started. -/
theorem Readies.restored
    (hreadies : venue.Readies session address bodies)
    (hcurrent : later.current = session.current) (hretired : later.retired = [])
    (htasks : later.tasks = venue.trio (.ended .done) server client)
    (hdeparted : venue.Departed later.machine client server)
    (hended : server.progress = 4 * venue.dialogue.bodies.length + 1) :
    session.Restored later venue.space address := by
  have hcompany := hdeparted.company
  obtain ⟨hclientOut, -, -⟩ := hdeparted.asking.ended hdeparted.done
  obtain ⟨hserverOut, hserverCall, -⟩ := hdeparted.departing.over hended
  have hlookup :
      ∀ owner handle,
        later.machine.lookup owner handle = session.machine.lookup owner handle := by
    intro owner handle
    by_cases hsame : owner = venue.space
    · subst hsame
      rw [← hreadies.lookup]
      apply hcompany.kept
      · simp [hclientOut]
      · simp [hserverOut]
    · unfold Machine.lookup
      rw [hcompany.elsewhere owner hsame, hreadies.others owner hsame]
  have htables : ∀ owner, (later.machine.space owner).table.WellFormed := by
    intro owner
    by_cases hsame : owner = venue.space
    · subst hsame
      exact hcompany.usable.table
    · rw [hcompany.elsewhere owner hsame, hreadies.others owner hsame]
      exact hreadies.tables owner
  refine ⟨hlookup, ?_, ?_, ?_, ?_⟩
  · unfold Session.openHandles
    rw [hcurrent]
    apply List.map_congr_left
    intro owner _
    exact (htables owner).size_eq (hreadies.tables owner) (hlookup owner)
  · rw [hdeparted.sockets_eq hserverCall, hreadies.sockets_eq, List.drop_left]
    intro socket hmem
    rw [List.mem_singleton.mp hmem]
    rfl
  · intro id hid
    rw [← hreadies.first_eq] at hid
    rw [Bool.eq_false_iff]
    exact fun hopen => (hdeparted.ends id hid hopen).2 hserverOut
  · intro body
    rw [← hreadies.address_eq]
    exact hdeparted.refuses hretired htasks hended body

/-! ## The turns that a session takes -/

theorem Answering.outcome?_eq (hanswering : venue.Answering server) :
    (server.task venue.space).outcome? = none := by
  unfold Task.outcome? Speaker.task Seat.task
  cases hanswering <;> cases Seat.call _ <;> rfl

theorem length_le_total {amounts : List Nat} (hpos : ∀ amount ∈ amounts, 1 ≤ amount) :
    amounts.length ≤ total amounts := by
  induction amounts with
  | nil => exact Nat.zero_le _
  | cons first rest ih =>
      have hfirst := hpos first (List.mem_cons_self ..)
      have hrest := ih fun amount hmem => hpos amount (List.mem_cons_of_mem _ hmem)
      rw [total, List.length_cons]
      omega

/-- Requests that are still to be made have a volume. -/
theorem length_le_volume (address : String) (responses : List Response) (bodies : List Bytes) :
    bodies.length ≤ (Script.requestsFrom address responses bodies).volume + 1 := by
  cases bodies with
  | nil => exact Nat.zero_le _
  | cons body later =>
      have hlater :
          ∀ amount ∈ later.map fun body => body.length + response.length, 1 ≤ amount := by
        intro amount hmem
        obtain ⟨other, -, rfl⟩ := List.mem_map.mp hmem
        have hresponse := List.length_pos_iff.mpr response_ne
        omega
      have hle := length_le_total hlater
      rw [List.length_map] at hle
      simp only [Script.requestsFrom, Script.volume, List.length_cons]
      omega

/-- The steps that a session allows for are enough for a row of requests. -/
theorem lt_budget
    {closing : Script} (hsession : session.tasks = venue.trio closing server venue.newClient) :
    16 * venue.dialogue.bodies.length + 4 < session.budget := by
  have hvolume : venue.dialogue.bodies.length ≤ session.volume + 1 := by
    have hscript := length_le_volume venue.address [] venue.dialogue.bodies
    have hmem :
        (Script.requestsFrom venue.address [] venue.dialogue.bodies).volume + response.length ∈
          session.tasks.map fun task => task.script.volume + response.length := by
      rw [hsession]
      simp [trio, newClient, Speaker.task, Seat.task]
    have htotal := le_total_of_mem hmem
    unfold Session.volume
    omega
  unfold Session.budget
  rw [hsession]
  simp only [trio, List.length_cons, List.length_nil]
  omega

/-- The task that closes the listener, and a server that no client has reached yet. -/
inductive Starting (venue : Venue) (due : Nat) : Machine → List Task → Nat → Prop where
  | mk {machine : Machine} {server : Speaker}
      (hconversing : venue.Conversing machine venue.newClient server) :
      Starting venue due machine
        [⟨venue.space, .delayed due (.close venue.listener), none⟩, server.task venue.space]
        server.effort

theorem Starting.step
    {due height number : Nat} {tasks : List Task} {task after : Task} {reached : Machine}
    (hstarting : venue.Starting due machine tasks height) (htask : tasks[number]? = some task)
    (hstep : task.step? machine = some (reached, after)) :
    ∃ higher, height < higher ∧ venue.Starting due reached (tasks.set number after) higher := by
  obtain @⟨server, hconversing⟩ := hstarting
  match number with
  | 0 =>
      cases htask
      cases hstep
  | 1 =>
      cases htask
      obtain ⟨next, rfl, hnext, hlt⟩ := goes_of_step hconversing.server_goes hstep
      exact ⟨next.effort, hlt, .mk hnext⟩
  | _ + 2 => cases htask

theorem climbs_starting (venue : Venue) (due : Nat) :
    Session.Climbs (venue.Starting due) (8 * venue.dialogue.bodies.length + 1) :=
  ⟨Starting.step, fun ⟨hconversing⟩ => hconversing.server_effort_le⟩

/-- The server is started, and it makes its first steps. -/
theorem Readies.startServer_eq
    (hreadies : venue.Readies session address bodies) (hidle : session.Idle) (deadline : Nat) :
    ∃ machine server,
      session.startServer venue.space address deadline =
          ({ session with
              machine := machine
              tasks :=
                [⟨venue.space, .delayed (session.clock + deadline) (.close venue.listener), none⟩,
                  server.task venue.space] }, .ok 1) ∧
        venue.Conversing machine venue.newClient server := by
  let closer : Task :=
    ⟨venue.space, .delayed (session.clock + deadline) (.close venue.listener), none⟩
  have hclosing :
      ({ session with machine := venue.base } : Session).launch venue.space
          (.delayed (session.clock + deadline) (.close venue.listener)) =
        { session with machine := venue.base, tasks := [closer] } := by
    unfold Session.launch Session.settle
    rw [hidle.tasks]
    exact Session.runSteps_last (by simp [hidle.retired]) (by simp) (.still rfl) (Nat.zero_le _)
  let waiting : Session :=
    { session with
      machine := venue.base
      tasks := [closer, venue.newServer.task venue.space] }
  obtain ⟨machine, tasks, height, hserver, hstarting, -⟩ :=
    (venue.climbs_starting (session.clock + deadline)).runSteps
      (show waiting.retired = [] from hidle.retired) waiting.budget (.mk hreadies.ready)
  obtain @⟨server, hconversing⟩ := hstarting
  have hwaiting :
      ({ session with machine := venue.base, tasks := [closer] } : Session).launch venue.space
          (.serve venue.listener [] .accept) =
        { session with machine := machine, tasks := [closer, server.task venue.space] } := by
    unfold Session.launch Session.settle
    exact hserver
  refine ⟨machine, server, ?_, hconversing⟩
  unfold Session.startServer
  rw [hreadies.listening]
  simp only [hreadies.valid, Bool.not_true, Bool.false_eq_true, if_false]
  rw [hclosing, hwaiting]
  rfl

/-- The client makes all its requests before the deadline comes. -/
theorem Readies.beginExchange_eq
    (hreadies : venue.Readies session address bodies) (hidle : session.Idle) (deadline : Nat) :
    ∃ machine client server,
      session.beginExchange venue.space address deadline bodies =
          ({ session with
              machine := machine
              tasks :=
                venue.trio (.delayed (session.clock + deadline) (.close venue.listener)) server
                  client }, .ok (.exchange 1 2)) ∧
        venue.Conversing machine client server ∧
          client.progress = 4 * venue.dialogue.bodies.length ∧
            server.progress = 4 * venue.dialogue.bodies.length := by
  obtain ⟨started, waiting, hstart, hstarted⟩ := hreadies.startServer_eq hidle deadline
  let due := session.clock + deadline
  let begun : Session :=
    { session with
      machine := started
      tasks := venue.trio (.delayed due (.close venue.listener)) waiting venue.newClient }
  obtain ⟨machine, tasks, height, hsettle, hserving, hstill⟩ :=
    (venue.climbs_serving due).runSteps (show begun.retired = [] from hidle.retired)
      begun.budget (.mk hstarted)
  have hbudget : _ < begun.budget := lt_budget rfl
  obtain ⟨client, server, rfl, hconversing, hdone⟩ := hserving.still (hstill (by omega))
  refine ⟨machine, client, server, ?_, hconversing, hdone⟩
  unfold Session.beginExchange
  rw [hstart, ← hreadies.bodies_eq, ← hreadies.address_eq]
  exact Prod.ext hsettle rfl

/-- When the deadline comes the listener is closed, and the server and the client have
ended. -/
theorem await_exchange
    {due : Nat} (hretired : session.retired = [])
    (htasks : session.tasks = venue.trio (.delayed due (.close venue.listener)) server client)
    (hconversing : venue.Conversing session.machine client server)
    (hclient : client.progress = 4 * venue.dialogue.bodies.length)
    (hserver : server.progress = 4 * venue.dialogue.bodies.length) :
    ∃ machine clock client server,
      session.await (.exchange 1 2) =
          ({ session with
              machine := machine
              tasks := venue.trio (.ended .done) server client
              clock := clock },
            .exchanged (venue.replies venue.dialogue.bodies.length) venue.dialogue.bodies) ∧
        venue.Departed machine client server ∧
          server.progress = 4 * venue.dialogue.bodies.length + 1 := by
  have hnone : session.jobOutcome? (.exchange 1 2) = none := by
    have hserverOutcome : session.taskOutcome? 1 = none := by
      unfold Session.taskOutcome?
      rw [htasks]
      exact hconversing.answering.outcome?_eq
    simp only [Session.jobOutcome?, hserverOutcome]
  let woken : Session :=
    { session with
      tasks := venue.trio (.once (.close venue.listener)) server client
      clock := max session.clock due }
  have hwake : session.wake? = some woken.settle := by
    unfold Session.wake?
    rw [hconversing.nextDue?_eq htasks, htasks]
    rfl
  obtain ⟨machine, tasks, height, hsettle, hwaning, hstill⟩ :=
    venue.climbs_waning.runSteps (show woken.retired = [] from hretired) woken.budget
      (.woken hconversing hclient)
  have henough :
      16 * venue.dialogue.bodies.length + 4 <
        client.effort + server.effort + 1 + woken.budget := by
    have hbudget := woken.le_budget
    simp only [Speaker.effort, hclient, hserver]
    omega
  obtain ⟨ended, answered, rfl, hdeparted, hover⟩ := hwaning.still (hstill henough)
  obtain ⟨hanswered, hended⟩ := hdeparted.outcomes hover
  refine ⟨machine, max session.clock due, ended, answered, ?_, hdeparted, hover⟩
  let last : Session :=
    { session with
      machine := machine
      tasks := venue.trio (.ended .done) answered ended
      clock := max session.clock due }
  have hlast :
      last.jobOutcome? (.exchange 1 2) =
        some (.exchanged (venue.replies venue.dialogue.bodies.length) venue.dialogue.bodies) := by
    have hserverOutcome : last.taskOutcome? 1 = some (.served venue.dialogue.bodies) := hanswered
    have hclientOutcome :
        last.taskOutcome? 2 = some (.responded (venue.replies venue.dialogue.bodies.length)) :=
      hended
    simp only [Session.jobOutcome?, hserverOutcome, hclientOutcome, Session.exchangeOf]
  have hpass : Session.passTime (.exchange 1 2) session.tasks.length session = last := by
    rw [htasks, show (venue.trio _ server client).length = 2 + 1 from rfl, Session.passTime, hnone,
      hwake, show woken.settle = last from hsettle]
    exact Session.passTime_of_outcome hlast
  unfold Session.await
  rw [hpass]
  dsimp only
  rw [hlast]
  rfl

/-- The server and its client are waited for, and nobody is given up. -/
theorem Readies.serve_eq
    (hreadies : venue.Readies session address bodies) (hidle : session.Idle) (deadline : Nat) :
    ∃ later,
      session.serve venue.space address deadline bodies =
          (later, .exchanged (venue.replies bodies.length) bodies) ∧
        session.Restored later venue.space address := by
  obtain ⟨machine, client, server, hbegin, hconversing, hclient, hserver⟩ :=
    hreadies.beginExchange_eq hidle deadline
  generalize hbegun :
    ({ session with
        machine := machine
        tasks :=
          venue.trio (.delayed (session.clock + deadline) (.close venue.listener)) server
            client } : Session) =
      begun at hbegin
  have hretired : begun.retired = [] := by
    rw [← hbegun]
    exact hidle.retired
  have hbegunTasks :
      begun.tasks =
        venue.trio (.delayed (session.clock + deadline) (.close venue.listener)) server
          client := by
    rw [← hbegun]
  have hbegunConversing : venue.Conversing begun.machine client server := by
    rw [← hbegun]
    exact hconversing
  obtain ⟨last, clock, ended, answered, hawait, hdeparted, hover⟩ :=
    await_exchange hretired hbegunTasks hbegunConversing hclient hserver
  generalize hlater :
    ({ begun with
        machine := last
        tasks := venue.trio (.ended .done) answered ended
        clock := clock } : Session) =
      later at hawait
  have htasks : later.tasks = venue.trio (.ended .done) answered ended := by
    rw [← hlater]
  have hgiveUp : later.giveUp (begun.tasks.length - 1) = later := by
    have hclientTask : later.tasks[begun.tasks.length - 1]? = some (ended.task venue.space) := by
      rw [htasks, hbegunTasks]
      rfl
    unfold Session.giveUp
    rw [hclientTask]
    simp only [(hdeparted.outcomes hover).2, Option.isSome_some, if_true]
  refine ⟨later, ?_, hreadies.restored ?_ ?_ htasks ?_ hover⟩
  · unfold Session.serve
    rw [hbegin]
    dsimp only
    rw [hawait]
    dsimp only
    rw [hgiveUp, hreadies.bodies_eq]
  · rw [← hlater, ← hbegun]
  · rw [← hlater]
    exact hretired
  · rw [← hlater]
    exact hdeparted

theorem replies_eq (venue : Venue) :
    venue.replies venue.dialogue.bodies.length =
      venue.dialogue.bodies.map fun _ => .bytes (response.take venue.dialogue.size) := by
  rw [List.map_const']
  rfl

end Venue

namespace Session

variable {session : Session} {space : Nat} {address : String} {bodies : List Bytes}

/-- A session with a server, a client that makes requests to it, and a task that closes the
listener at the deadline, none of which has made a step yet. -/
def opened (session : Session) (space : Nat) (address : String) (listener : Handle)
    (deadline : Nat) (bodies : List Bytes) : Session :=
  { session with
    tasks :=
      [⟨space, .delayed (session.clock + deadline) (.close listener), none⟩,
        ⟨space, .serve listener [] .accept, none⟩,
        ⟨space, .requestsFrom address [] bodies, none⟩] }

/-- Every request is served.  Whatever the order in which the server, the client and the task
that closes the listener make their steps, they come to an end; the server has then received
all bodies in order and the client the first part of the response to each of them, and all
that was opened is closed.  So it is with the turns that a session takes. -/
theorem serves_every_request
    (hserve : session.CanServe space address bodies) (deadline : Nat) :
    ∃ listening listener,
      session.run space (.once (.listen address)) = (listening, .handle listener) ∧
        listener.isValid = true ∧
        (∀ count later,
          Runs 2 count (listening.opened space address listener deadline bodies) later →
            count ≤ 16 * bodies.length + 4 ∧
              (later.AtRest 2 →
                later.taskOutcome? 1 = some (.served bodies) ∧
                  later.taskOutcome? 2 =
                      some
                        (.responded
                          (bodies.map fun _ =>
                            .bytes
                              (response.take
                                (session.machine.space space).configuration.bufferSize))) ∧
                    session.Restored later space address)) ∧
          ∃ later,
            session.serve space address deadline bodies =
                (later,
                  .exchanged
                    (bodies.map fun _ =>
                      .bytes
                        (response.take
                          (session.machine.space space).configuration.bufferSize))
                    bodies) ∧
              session.Restored later space address := by
  obtain ⟨venue, rfl, hreadies⟩ := hserve.readies
  have hreplies := venue.replies_eq
  rw [hreadies.size_eq, hreadies.bodies_eq] at hreplies
  refine ⟨_, _, hreadies.listening, hreadies.valid, ?_, ?_⟩
  · intro count later hruns
    have hbegun :
        venue.Underway (session.clock + deadline)
          (opened { session with machine := venue.base } venue.space address venue.listener
            deadline bodies) 0 := by
      rw [← hreadies.bodies_eq, ← hreadies.address_eq]
      exact Or.inl (.mk hreadies.ready)
    obtain ⟨height, hheight, hlater⟩ := hbegun.runs hruns
    have hle := hlater.height_le
    rw [hreadies.bodies_eq] at hle
    refine ⟨by omega, fun hrest => ?_⟩
    obtain ⟨client, server, htasks, hdeparted, hended⟩ := hlater.over hrest
    obtain ⟨hserver, hclient⟩ := hdeparted.outcomes hended
    obtain ⟨hcurrent, hretired⟩ := hruns.frame
    refine ⟨?_, ?_,
      hreadies.restored hcurrent (hretired.trans hserve.idle.retired) htasks hdeparted hended⟩
    · unfold taskOutcome?
      rw [htasks, ← hreadies.bodies_eq]
      exact hserver
    · unfold taskOutcome?
      rw [htasks, ← hreplies, ← hreadies.bodies_eq]
      exact hclient
  · obtain ⟨later, hlater, hrestored⟩ := hreadies.serve_eq hserve.idle deadline
    rw [hreplies] at hlater
    exact ⟨later, hlater, hrestored⟩

/-- Two requests are served by a runtime of deferred calls with a small buffer. -/
theorem two_requests_served :
    let session := boot {} true 65536 [{ mode := .deferred, bufferSize := 16 }]
    session.CanServe 0 "127.0.0.1:4000" [[104, 105], [33]] ∧
      ∃ later,
        session.serve 0 "127.0.0.1:4000" 50 [[104, 105], [33]] =
            (later,
              .exchanged [.bytes (response.take 16), .bytes (response.take 16)]
                [[104, 105], [33]]) ∧
          session.Restored later 0 "127.0.0.1:4000" := by
  intro session
  have hserve : session.CanServe 0 "127.0.0.1:4000" [[104, 105], [33]] := by
    refine ⟨⟨rfl, rfl, rfl, Machine.orderly_boot _ _ _ _⟩, by decide +kernel, rfl, rfl,
      ⟨⟨"127.0.0.1", 4000⟩, .loopback, by decide +kernel, by decide +kernel, rfl, nofun⟩,
      by decide +kernel, by decide +kernel⟩
  obtain ⟨listening, listener, -, -, -, later, hserved, hrestored⟩ :=
    serves_every_request hserve 50
  exact ⟨hserve, later, hserved, hrestored⟩

end Session

end ResourceHandles
