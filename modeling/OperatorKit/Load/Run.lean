import OperatorKit.Load.Plan
import OperatorKit.Load.Tally

/-!
# Runs

A run of a load test as a machine that moves by events. Users arrive one by one
with a rest in between, until all are there or the run is stopped. Each of them
goes round in circles: it sends the request of a task, gets an outcome, records
it in the common tally, and pauses. A request that a fault stopped has no outcome,
so there is nothing to record. A stopped run takes its users out, wherever they
are, and reports the tally when the last one is gone.

An event that cannot happen in a state has no next state. Apart from that the
order of events is free, so every interleaving of the users is a history here.
-/

namespace OperatorKit.Load

open OperatorKit.Random

/-! ## Users -/

/-- What a user is at. -/
inductive Phase where
  /-- It is there but has not begun. -/
  | arrived
  /-- It is about to pick a task. -/
  | ready
  /-- Its request is under way. -/
  | waiting (task : Task) (request : Request)
  /-- Its request has an outcome that is not recorded. -/
  | answered (task : Task) (request : Request) (outcome : Outcome)
  /-- It is through with its request and about to pause. -/
  | recorded
  | pausing (span : Span)
  /-- It stopped in the middle of something. -/
  | crashed (fault : Fault)
  /-- It was taken out. -/
  | gone
  deriving Repr

/-- The user does nothing any more. -/
def Phase.isOver : Phase → Bool
  | .crashed _ | .gone => true
  | _                  => false

/-- A user of a load test. -/
structure User where
  worker : Worker
  picker : Picker
  phase : Phase
  deriving Repr

namespace User

/-- A user that has just arrived. -/
def fresh (scenario : Scenario) (kind : PickerKind) : User :=
  ⟨.idle scenario, .ofKind kind, .arrived⟩

/-- Pick the next task and make its request. -/
def next (tasks : List Task) (u : User) : Draw (Picker × Task × Request) := fun words =>
  match u.picker.next (tasks.map (·.weight)) words with
  | .error e                 => .error e
  | .ok ((i, picker), words) =>
    match tasks[i]? with
    | none      => .error (.outOfBounds tasks.length i)
    | some task =>
      match u.worker.request task.work words with
      | .error e             => .error e
      | .ok (request, words) => .ok ((picker, task, request), words)

end User

/-! ## Events -/

/-- Why a run stops. -/
inductive StopCause where
  /-- The run time is over. -/
  | elapsed (runTime : Span)
  /-- The operator wants it to stop. -/
  | interrupted
  deriving DecidableEq, Repr

/-- What the operator is told about a stop. -/
def StopCause.message : StopCause → String
  | .elapsed t   => "Run time of " ++ t.shortText ++ " elapsed"
  | .interrupted => "Ctrl-C received"

/-- What a user does, or what happens to it. -/
inductive Act where
  | start
  /-- Pick a task with random words and send its request. -/
  | send (words : List UInt32)
  /-- The outcome of the request is there. -/
  | reply (outcome : Outcome)
  /-- The request was stopped by a fault. -/
  | fail (fault : Fault)
  | record
  /-- Begin a pause of random length. -/
  | pause (words : List UInt32)
  | wake
  /-- Be taken out of a stopped run. -/
  | leave
  deriving Repr

/-- What can happen in a run. -/
inductive Event where
  /-- The next user arrives. -/
  | arrive
  /-- The rest between two arrivals is over. -/
  | rested
  | stop (cause : StopCause)
  | user (id : Nat) (act : Act)
  /-- All users are out. -/
  | finish
  deriving Repr, Inhabited

/-! ## The machine -/

/-- How far a run is. -/
inductive Stage where
  /-- A user is about to arrive. -/
  | spawning
  /-- There is a rest before the next arrival. -/
  | resting
  /-- All users are there. -/
  | full
  /-- Users are being taken out. -/
  | stopping
  | finished (report : Tally)
  deriving Repr

/-- A run and what it has done so far. -/
structure Run where
  plan : Plan
  scenario : Scenario
  tasks : List Task
  stage : Stage
  users : List User
  tally : Tally
  /-- Every request that was sent, with its user and its task, in order. -/
  sent : List (Nat × Task × Request)
  /-- What was printed for the operator, line by line. -/
  notices : List String
  log : List LogLine

namespace Run

/-- The log line of a start. -/
def startLine (p : Plan) : LogLine :=
  ⟨.info, "Spawning " ++ Decimal.text p.users ++ " users at " ++
    Decimal.Layout.operator.write p.spawnRate ++ " users/s against " ++ p.host⟩

/-- A run before its first user arrives; the plan's weights have to fit. -/
def start (plan : Plan) (scenario : Scenario) : Except WeightProblem Run :=
  match applyWeights scenario.tasks plan.weights with
  | .error e  => .error e
  | .ok tasks =>
    .ok {
      plan, scenario, tasks, stage := .spawning, users := [], tally := .empty
      sent := [], notices := [], log := [startLine plan] }

/-- Add lines to the log. -/
def tell (r : Run) (lines : List LogLine) : Run := { r with log := r.log ++ lines }

/-- Put a user in the place of the one with the same number. -/
def setUser (r : Run) (id : Nat) (u : User) : Run := { r with users := r.users.set id u }

/-- The next user arrives. -/
def arrive (r : Run) : Run :=
  let users := r.users ++ [.fresh r.scenario r.plan.picker]
  if users.length = r.plan.users then
    { r with users, stage := .full }.tell
      [⟨.info, "All " ++ Decimal.text users.length ++ " users spawned"⟩]
  else { r with users, stage := .resting }

/-- Stop and tell why. -/
def halt (r : Run) (cause : StopCause) : Run :=
  { r with stage := .stopping }.tell
    [⟨.info, cause.message⟩, ⟨.info, "Stopping " ++ Decimal.text r.users.length ++ " users"⟩]

/-- What is told about users that crashed. -/
def crashLines (users : List User) : List LogLine :=
  users.filterMap fun u =>
    match u.phase with
    | .crashed e => some ⟨.error, "User task failed: " ++ e.message⟩
    | _          => none

/-- Report the tally. -/
def finish (r : Run) : Run := { r with stage := .finished r.tally }.tell (crashLines r.users)

/-- A user begins: it learns what to post. -/
def beginUser (r : Run) (id : Nat) (u : User) : Run :=
  let (worker, problem) := u.worker.start
  let r := r.setUser id { u with worker, phase := .ready }
  let started : LogLine := ⟨.debug, "User " ++ Decimal.text id ++ " started"⟩
  match problem with
  | none   => r.tell [started]
  | some e =>
    { r with notices := r.notices ++ [fallbackNotice] }.tell (fallbackLog none e ++ [started])

/-- A user sends the request of the task that it picks. There have to be enough
words for it. -/
def sendRequest (r : Run) (id : Nat) (u : User) (words : List UInt32) : Option Run :=
  match u.next r.tasks words with
  | .error .starved                   => none
  | .error e                          => some (r.setUser id { u with phase := .crashed e })
  | .ok ((picker, task, request), _) =>
    some { r.setUser id { u with picker, phase := .waiting task request } with
      sent := r.sent ++ [(id, task, request)] }

/-- The user that a log line is about. -/
def userTag (id : Nat) : String := "[user:" ++ Decimal.text id ++ "] "

/-- The log line of a request without an outcome. -/
def stoppedLine (id : Nat) (task : Task) (fault : Fault) : LogLine :=
  ⟨.error, userTag id ++ "Request task for " ++ task.name ++ " failed: " ++ fault.message⟩

/-- A user gives up a request that a fault stopped. -/
def failRequest (r : Run) (id : Nat) (u : User) (task : Task) (fault : Fault) : Run :=
  (r.setUser id { u with phase := .recorded }).tell [stoppedLine id task fault]

/-- The log line of a failed request. -/
def failureLines (id : Nat) (q : Request) (o : Outcome) : List LogLine :=
  match o.error with
  | none        => []
  | some reason =>
    [⟨.debug, userTag id ++ q.method.text ++ " " ++ q.path ++ " failed: " ++ reason⟩]

/-- A user records the outcome of its request. -/
def recordOutcome (r : Run) (id : Nat) (u : User) (task : Task) (q : Request) (o : Outcome) : Run :=
  let (tally, fault) := r.tally.record task.name q o
  let phase := match fault with
    | none   => .recorded
    | some e => .crashed e
  { r.setUser id { u with phase } with tally }.tell (failureLines id q o)

/-- A user begins a pause. There have to be enough words for it. -/
def beginPause (r : Run) (id : Nat) (u : User) (words : List UInt32) : Option Run :=
  match r.plan.pauses.draw words with
  | .error .starved => none
  | .error e        => some (r.setUser id { u with phase := .crashed e })
  | .ok (span, _)   => some (r.setUser id { u with phase := .pausing span })

/-- Take a user out of a stopped run. -/
def takeOut (r : Run) (id : Nat) (u : User) : Option Run :=
  match r.stage with
  | .stopping => if u.phase.isOver then none else some (r.setUser id { u with phase := .gone })
  | _         => none

/-- A user does something. -/
def act (r : Run) (id : Nat) (u : User) : Act → Option Run
  | .leave       => r.takeOut id u
  | .start       => match u.phase with
    | .arrived => some (r.beginUser id u)
    | _        => none
  | .send words  => match u.phase with
    | .ready => r.sendRequest id u words
    | _      => none
  | .reply o     => match u.phase with
    | .waiting task q => some (r.setUser id { u with phase := .answered task q o })
    | _               => none
  | .fail fault  => match u.phase with
    | .waiting task _ => some (r.failRequest id u task fault)
    | _               => none
  | .record      => match u.phase with
    | .answered task q o => some (r.recordOutcome id u task q o)
    | _                  => none
  | .pause words => match u.phase with
    | .recorded => r.beginPause id u words
    | _         => none
  | .wake        => match u.phase with
    | .pausing _ => some (r.setUser id { u with phase := .ready })
    | _          => none

/-- The state behind an event, if it can happen. -/
def step (r : Run) : Event → Option Run
  | .arrive      => match r.stage with
    | .spawning => some r.arrive
    | _         => none
  | .rested      => match r.stage with
    | .resting => some { r with stage := .spawning }
    | _        => none
  | .stop cause  => match r.stage with
    | .resting | .full => some (r.halt cause)
    | _                => none
  | .user id act => match r.users[id]? with
    | none   => none
    | some u => r.act id u act
  | .finish      => match r.stage with
    | .stopping => if r.users.all (·.phase.isOver) then some r.finish else none
    | _         => none

/-- The state behind a row of events, if they can happen one after the other. -/
def steps (r : Run) : List Event → Option Run
  | []      => some r
  | e :: es => match r.step e with
    | none   => none
    | some r => r.steps es

/-- The report of a run that is over. -/
def report? (r : Run) : Option Tally :=
  match r.stage with
  | .finished report => some report
  | _                => none

end Run
end OperatorKit.Load
