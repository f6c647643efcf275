import OperatorKit.Load.Run

/-!
# What is due

In many states of a run something can happen without waiting for a server or for
the clock: a user arrives, begins, sends, records, or is taken out. This module
chooses one such event. The others come from errands: the run time, rests, pauses
and requests, which whoever drives the run has to see to.
-/

namespace OperatorKit.Load

/-- What a user does without waiting for anything; `words` are for its draws. -/
def User.due? (words : List UInt32) (u : User) : Option Act :=
  match u.phase with
  | .arrived     => some .start
  | .ready       => some (.send words)
  | .answered .. => some .record
  | .recorded    => some (.pause words)
  | _            => none

/-- How a user leaves a run, if it is still there. -/
def User.leaving? (u : User) : Option Act := if u.phase.isOver then none else some .leave

/-- The first user, counted from `id`, that does something, and what it does. -/
def firstAct? (act? : User → Option Act) (id : Nat) : List User → Option Event
  | []      => none
  | u :: us =>
    match act? u with
    | some a => some (.user id a)
    | none   => firstAct? act? (id + 1) us

/-- An event that can happen at once, if there is one. -/
def Run.due? (r : Run) (isInterrupted : Bool) (words : List UInt32) : Option Event :=
  match r.stage with
  | .spawning        => some .arrive
  | .stopping        => some ((firstAct? User.leaving? 0 r.users).getD .finish)
  | .finished _      => none
  | .resting | .full =>
    if isInterrupted then some (.stop .interrupted) else firstAct? (User.due? words) 0 r.users

/-! ## Errands -/

/-- What is to be seen to outside of a run, for an event to come of it. -/
inductive Errand where
  /-- Let an event happen after a span. -/
  | wait (span : Span) (event : Event)
  /-- Send the request of a user and hand in what becomes of it: a reply or a fault. -/
  | send (id : Nat) (request : Request)

/-- The errand of the beginning: the end of the run time. -/
def Run.firstErrand? (r : Run) : Option Errand :=
  r.plan.runTime.map fun t => .wait t (.stop (.elapsed t))

/-- The errand that comes with the state behind an event. -/
def Run.errand? (r : Run) : Event → Option Errand
  | .arrive => match r.stage with
    | .resting => some (.wait r.plan.spawnInterval .rested)
    | _        => none
  | .user id _ => match r.users[id]? with
    | some ⟨_, _, .waiting _ q⟩   => some (.send id q)
    | some ⟨_, _, .pausing span⟩ => some (.wait span (.user id .wake))
    | _                          => none
  | _ => none

end OperatorKit.Load
