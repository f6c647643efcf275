import OperatorKit.Http.Script
import OperatorKit.Load.Due
import OperatorKit.Random.Keystream

/-!
# Rehearsals

A run against a scripted server under a clock of its own. Nothing takes time
but the pauses of the users, the rests between their arrivals, the run time and
the patience with a silent server. Whatever can happen at once happens first;
then the clock goes on to the next time that something waits for. The operator
interrupts a rehearsal when the server falls silent by its script.
-/

namespace OperatorKit.Load

open Http (Script)

/-- An event that waits for its time, in nanoseconds. -/
structure Timer where
  time : Nat
  event : Event

/-- A run with its server and its clock. -/
structure Rehearsal where
  run : Run
  server : Script
  now : Nat
  /-- The timers in order of their times; of equal times the one that was set first. -/
  timers : List Timer
  /-- How often random words were drawn. -/
  draws : Nat

namespace Rehearsal

/-! ## Timers -/

/-- Put a timer behind those that are not later. -/
def insertTimer (t : Timer) : List Timer → List Timer
  | []      => [t]
  | u :: us => if t.time < u.time then t :: u :: us else u :: insertTimer t us

/-- Let an event happen after a span. -/
def after (s : Rehearsal) (span : Span) (e : Event) : Rehearsal :=
  { s with timers := insertTimer ⟨s.now + span.nanos, e⟩ s.timers }

/-! ## Single steps -/

/-- The random words for one draw. -/
def freshWords (s : Rehearsal) : List UInt32 := Random.wordsOfSeed (UInt64.ofNat s.draws) 64

/-- The operator interrupts the run. -/
def isInterrupted (s : Rehearsal) : Bool :=
  match s.server.silentAt with
  | none   => false
  | some n => n ≤ s.server.received.length

/-- The exchange of a request that a user sent; its outcome comes at once, or when
the user's patience is over. -/
def deliver (s : Rehearsal) (id : Nat) (q : Request) : Rehearsal :=
  let (result, server) := (q.send Script.serve s.run.plan.host).run s.server
  let s := { s with server }
  match result with
  | .error fault => s.after .zero (.user id (.fail fault))
  | .ok reply    =>
    let elapsed := if reply = .lost .silence then s.run.plan.timeout else .zero
    s.after elapsed (.user id (.reply (.ofReply elapsed reply)))

/-- See to an errand. -/
def seeTo (s : Rehearsal) : Option Errand → Rehearsal
  | none                 => s
  | some (.wait span e)  => s.after span e
  | some (.send id q)    => s.deliver id q

/-- A rehearsal at its beginning. -/
def start (run : Run) (server : Script) : Rehearsal :=
  seeTo ⟨run, server, 0, [], 0⟩ run.firstErrand?

/-- Let an event happen, if it can. -/
def happen (s : Rehearsal) (e : Event) : Rehearsal :=
  let s := { s with draws := s.draws + 1 }
  match s.run.step e with
  | none     => s
  | some run => { s with run }.seeTo (run.errand? e)

/-- The next state: an event that happens at once, or the next timer. -/
def step? (s : Rehearsal) : Option Rehearsal :=
  match s.run.due? s.isInterrupted s.freshWords with
  | some e => some (s.happen e)
  | none   => match s.timers with
    | []      => none
    | t :: ts => some ({ s with now := max s.now t.time, timers := ts }.happen t.event)

/-! ## Whole rehearsals -/

/-- Go on for a number of steps, or until nothing happens any more. -/
def play : Nat → Rehearsal → Rehearsal
  | 0,     s => s
  | n + 1, s => match s.step? with
    | none   => s
    | some s => play n s

/-- The shortest pause that a bound on the steps reckons with, in nanoseconds. -/
abbrev leastPause : Nat := 1000000

/-- A number of steps in which a rehearsal is over, if it is ever to be. -/
def stepBound (plan : Plan) (server : Script) : Nat :=
  let requests := match server.silentAt, plan.runTime with
    | some n, _      => n
    | none, some t   => plan.users * (t.nanos / max plan.pauses.shortest.nanos leastPause + 1)
    | none, none     => 0
  8 * (requests + plan.users + 1)

/-- Rehearse a run. -/
def ofRun (run : Run) (server : Script) : Rehearsal :=
  (start run server).play (stepBound run.plan server)

end Rehearsal
end OperatorKit.Load
