import ResourceHandles.Machine.Steps
import ResourceHandles.Session.Script

/-!
# Tasks

A task is a script that runs on a handle space.  In one step it makes its next
call, or the call that it waits for advances.  The tasks of a session run by
turns until none of them has a step left; those that have not ended then wait
for something that does not come by itself.

Time passes only while something is waited for that no task brings about.  Then
the task goes on that rests the shortest, and after it the next one.

A handle space that was given up is dropped once no task runs on it.
-/

namespace ResourceHandles

/-- A script on a handle space, with the ticket that it waits for. -/
structure Task where
  space : Nat
  script : Script
  waiting : Option Nat := none
  deriving Repr, DecidableEq

namespace Task

def outcome? (task : Task) : Option Outcome :=
  match task.waiting, task.script.turn with
  | none, .finish outcome => some outcome
  | _, _ => none

def due? (task : Task) : Option Nat :=
  match task.waiting, task.script.turn with
  | none, .rest due => some due
  | _, _ => none

def wake (task : Task) : Task :=
  match task.script with
  | .delayed _ call => { task with script := .once call }
  | _ => task

/-- Lets the script of a task go on after a reply. -/
def resume (task : Task) (reply : Reply) : Task :=
  { task with script := task.script.after reply, waiting := none }

/-- One step of a task; a call moves as many bytes as it can. -/
def step? (machine : Machine) (task : Task) : Option (Machine × Task) :=
  match task.waiting with
  | some ticket =>
    match machine.advance? ticket machine.network.capacity with
    | none => none
    | some (advanced, none) => some (advanced, task)
    | some (advanced, some reply) => some (advanced, task.resume reply)
  | none =>
    match task.script.turn with
    | .finish _ => none
    | .rest _ => none
    | .call call =>
      match machine.start task.space call with
      | (started, .answered reply) => some (started, task.resume reply)
      | (started, .waiting ticket) => some (started, { task with waiting := some ticket })

end Task

/-- What can be waited for: the end of a task, or the ends of a server and of the
client that makes requests to it. -/
inductive Job where
  | task (number : Nat)
  | exchange (server client : Nat)
  deriving Repr, DecidableEq

/-- A machine with the tasks that run on it, the time, the names of jobs, the
handle space of each runtime, and the handle spaces that were given up. -/
structure Session where
  machine : Machine := {}
  tasks : List Task := []
  clock : Nat := 0
  names : Store String Job := {}
  current : List Nat := []
  retired : List Nat := []
  deriving Repr, DecidableEq

namespace Session

def stepFirst? (machine : Machine) : List Task → Option (Machine × List Task)
  | [] => none
  | task :: rest =>
    match task.step? machine with
    | some (stepped, later) => some (stepped, later :: rest)
    | none =>
      match stepFirst? machine rest with
      | some (stepped, others) => some (stepped, task :: others)
      | none => none

/-- Whether a task that has not ended runs on a handle space. -/
def isRunning (session : Session) (space : Nat) : Bool :=
  session.tasks.any fun task => task.space == space && task.outcome?.isNone

/-- Drops a handle space that was given up and on which nothing runs. -/
def dropRetired? (session : Session) : Option Session :=
  match session.retired.find? fun space => !session.isRunning space with
  | none => none
  | some space =>
    some { session with
      machine := session.machine.dropSpace space
      retired := session.retired.erase space }

def step? (session : Session) : Option Session :=
  match stepFirst? session.machine session.tasks with
  | some (machine, tasks) => some { session with machine := machine, tasks := tasks }
  | none => session.dropRetired?

/-- Makes steps until there are none, at most `fuel` of them. -/
def runSteps : Nat → Session → Session
  | 0, session => session
  | fuel + 1, session =>
    match session.step? with
    | some next => runSteps fuel next
    | none => session

end Session

def Call.volume : Call → Nat
  | .write _ data => data.length
  | _ => 0

def total : List Nat → Nat
  | [] => 0
  | amount :: rest => amount + total rest

/-- The number of bytes that a request still has to write. -/
def Request.volume : Request → Nat
  | .connect body => body.length
  | .send _ body => body.length
  | _ => 0

/-- The number of bytes that a script still has to write, as far as it does not
depend on others. -/
def Script.volume : Script → Nat
  | .once call => call.volume
  | .roundTrip _ (.create data) => data.length
  | .roundTrip _ (.fill _ data) => data.length
  | .request _ stage => stage.volume
  | .requests _ stage later _ =>
    stage.volume + total (later.map fun body => body.length + response.length)
  | _ => 0

namespace Session

/-- The number of bytes in files, under way, and to be written. -/
def volume (session : Session) : Nat :=
  total (session.machine.tree.contents.map List.length) +
    total (session.machine.network.links.map fun link =>
      link.caller.inbox.length + link.answerer.inbox.length + response.length) +
    total (session.tasks.map fun task => task.script.volume + response.length)

/-- A number of steps that is enough: every call takes a few steps, and a task
makes no more calls than there are bytes to read, links to accept, and stages
of its script. -/
def budget (session : Session) : Nat :=
  16 * (session.tasks.length + 1) * (session.volume + 16) + session.retired.length

def settle (session : Session) : Session :=
  runSteps session.budget session

/-- Starts a task, and lets it run as far as it can. -/
def launch (session : Session) (space : Nat) (script : Script) : Session :=
  let task : Task := { space := space, script := script }
  let grown : Session := { session with tasks := session.tasks ++ [task] }
  grown.settle

/-- Ends a task that has not ended, and gives up what it waits for. -/
def giveUp (session : Session) (number : Nat) : Session :=
  match session.tasks[number]? with
  | none => session
  | some task =>
    if task.outcome?.isSome then session
    else
      let ended : Task := { space := task.space, script := .ended (.failed .timedOut) }
      let left : Session :=
        { session with
          machine := (task.waiting.map session.machine.abandon).getD session.machine
          tasks := session.tasks.set number ended }
      left.settle

/-! ## Waiting -/

def taskOutcome? (session : Session) (number : Nat) : Option Outcome :=
  (session.tasks[number]?).bind Task.outcome?

/-- What the ends of a server and of its client amount to; a server that fails
counts for both. -/
def exchangeOf (server client : Outcome) : Outcome :=
  match server, client with
  | .served bodies, .responded responses => .exchanged responses bodies
  | .failed fault, _ => .failed fault
  | _, _ => .failed .timedOut

def jobOutcome? (session : Session) : Job → Option Outcome
  | .task number => session.taskOutcome? number
  | .exchange server client =>
    match session.taskOutcome? server, session.taskOutcome? client with
    | some served, some responded => some (exchangeOf served responded)
    | _, _ => none

/-- The number of the task that rests the shortest, with the time at which it
goes on; of several the first. -/
def nextDue? (session : Session) : Option (Nat × Nat) :=
  match (session.tasks.filterMap Task.due?).min? with
  | none => none
  | some due => (session.tasks.findIdx? fun task => task.due? == some due).map fun number =>
    (number, due)

/-- Lets time pass until a task goes on that rests. -/
def wake? (session : Session) : Option Session :=
  match session.nextDue? with
  | none => none
  | some (number, due) =>
    let woken : Session :=
      { session with
        tasks := session.tasks.modify number Task.wake
        clock := max session.clock due }
    some woken.settle

/-- Lets time pass until a job has ended or no task rests; `fuel` bounds the
number of tasks that rest. -/
def passTime (job : Job) : Nat → Session → Session
  | 0, session => session
  | fuel + 1, session =>
    if (session.jobOutcome? job).isSome then session
    else
      match session.wake? with
      | none => session
      | some later => passTime job fuel later

/-- Waits for a job.  One that does not end is timed out. -/
def await (session : Session) (job : Job) : Session × Outcome :=
  let later := passTime job session.tasks.length session
  (later, (later.jobOutcome? job).getD (.failed .timedOut))

/-- Runs a script to its end.  If it does not end it is given up. -/
def run (session : Session) (space : Nat) (script : Script) : Session × Outcome :=
  let number := session.tasks.length
  let (later, outcome) := (session.launch space script).await (.task number)
  let left := later.giveUp number
  ({ left with tasks := left.tasks.take number }, outcome)

end Session

end ResourceHandles
