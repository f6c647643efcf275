import OperatorKit.Live.Disk
import OperatorKit.Live.Server
import OperatorKit.Load.Due
import Std.Async.Signal
import Std.Sync.Channel

/-!
# Runs against real servers

Drives a run by the machine's clock, by servers on the net and by the operator.
Whatever is due happens first. Then the driver waits for its inbox, to which every
errand sends the event that comes of it.
-/

namespace OperatorKit.Live

open Load Std.Async

/-- The events that happened outside of a run. -/
abbrev Inbox : Type := Std.Channel Event

/-- The random words that are at hand for one event. -/
abbrev wordsPerEvent : Nat := 64

/-- Send a request of a user and wait for what becomes of it. -/
def resultOf (plan : Plan) (request : Request) : Async Act := do
  let begun ← IO.monoNanosNow
  match ← request.send (serve (begun + plan.timeout.nanos)) plan.host with
  | .error fault => return .fail fault
  | .ok reply    =>
    let elapsed := (← IO.monoNanosNow) - begun
    return .reply (.ofReply ((Span.ofNanos? elapsed).getD .longest) reply)

/-- See to an errand in the background. -/
def seeTo (inbox : Inbox) (plan : Plan) : Option Errand → Async Unit
  | none                     => return ()
  | some (.wait span event)  => background do
    sleep (milliseconds span.nanos)
    discard (inbox.send event)
  | some (.send id request)  => background do
    let act ← resultOf plan request
    discard (inbox.send (.user id act))

/-- Let the operator's Ctrl-C stop the run. -/
def listen (inbox : Inbox) : Async Unit := background do
  let signal ← Signal.Waiter.mk .sigint false
  discard (await (← signal.wait))
  discard (inbox.send (.stop .interrupted))

/-- Tell the operator what happened between two states of a run. -/
def tellNews (before after : Run) : IO Unit := do
  for notice in after.notices.drop before.notices.length do
    print (notice ++ "\n")
  for line in after.log.drop before.log.length do
    tell line

/-- Drive a run to its report. -/
partial def drive (inbox : Inbox) (run : Run) : IO Tally := do
  match run.report? with
  | some report => return report
  | none        =>
    let event ← match run.due? false (← randomWords wordsPerEvent) with
      | some event => pure event
      | none       => IO.wait (← inbox.recv)
    match run.step event with
    | none      => drive inbox run
    | some next =>
      tellNews run next
      (seeTo inbox run.plan (next.errand? event)).block
      drive inbox next

/-- Drive a run that has just begun. -/
def driveNew (run : Run) : IO Tally := do
  let inbox : Inbox ← Std.Channel.new
  run.log.forM tell
  (listen inbox).block
  (seeTo inbox run.plan run.firstErrand?).block
  drive inbox run

end OperatorKit.Live
