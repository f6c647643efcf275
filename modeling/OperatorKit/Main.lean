import OperatorKit.Command.KeyIssueProgram
import OperatorKit.Command.LoadTestProgram
import OperatorKit.Live.Run
import Std.Time.Zoned

/-!
# The command line

One executable holds both programs. The first argument names the program, and
the others are the program's own.
-/

namespace OperatorKit.Live

open Command

/-- End a program. -/
def finish (e : Ending) : IO UInt32 := do
  print e.out
  IO.eprint e.err
  return e.code.toUInt32

/-- The local time with its zone. -/
def now : IO String := do
  let time ← Std.Time.Timestamp.now
  let rules ← Std.Time.Database.defaultGetLocalZoneRules
  let offset := (rules.findLocalTimeTypeForTimestamp time).getTimeZone.offset
  let clock := Std.Time.PlainDateTime.ofWallTime (.ofTimestamp time offset)
  return toString clock.date ++ " " ++ toString clock.time ++ " " ++ offset.toIsoString true

/-- The environment variables that stand in for options, as far as they are set. -/
def environment (g : Arguments.Grammar) : IO (List (String × String)) :=
  g.standIns.filterMapM fun name => do
    return (← IO.getEnv name).map (name, ·)

/-- Issue a key. -/
def runKeyIssue (args : List String) : IO UInt32 := do
  finish (← perform (KeyIssue.program args))

/-- Run a load test. -/
def runLoadTest (args : List String) : IO UInt32 := do
  let (opening, outcome) := LoadTest.program (← environment LoadTest.grammar) args
  print opening
  match outcome with
  | .error e => finish e
  | .ok run  =>
    let report ← driveNew run
    finish (LoadTest.ending (← now) report)

/-- What is said if the first argument names no program. -/
def usage : String :=
  "usage: (" ++ KeyIssue.programName ++ " | " ++ LoadTest.programName ++ ") ARGUMENTS"

/-- Run the program that the first argument names. -/
def run (args : List String) : IO UInt32 := do
  let name := args.headD ""
  if name = KeyIssue.programName then runKeyIssue args.tail
  else if name = LoadTest.programName then runLoadTest args.tail
  else
    IO.eprintln usage
    return 2

end OperatorKit.Live

def main (args : List String) : IO UInt32 := OperatorKit.Live.run args
