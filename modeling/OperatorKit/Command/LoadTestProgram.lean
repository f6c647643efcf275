import OperatorKit.Command.Banner
import OperatorKit.Command.Ending
import OperatorKit.Command.LoadTestOptions
import OperatorKit.Load.Report
import OperatorKit.Load.Run

/-!
# The load test as a program

What is printed before a run and behind it. The run in between is a machine,
which is driven by a server, a clock and an operator.
-/

namespace OperatorKit.Command.LoadTest

open Arguments Load

/-- The name of the program. -/
def programName : String := "webhook-loadtest"

/-- What is printed before a run. -/
def openingText (o : Order) (p : Plan) : String :=
  let number := Decimal.Layout.operator.write
  banner "Webhook load test" ++ "Target: " ++ p.host ++ "\nUsers: " ++ Decimal.text p.users ++
    ", spawn rate: " ++ number p.spawnRate ++ "/s, wait: " ++ number o.minWait ++ "-" ++
    number o.maxWait ++ "s\n\n"

/-- The run of an order and what is printed before it, or how the program ends
without a run. -/
def carryOut (o : Order) : String × Except Ending Run :=
  match Plan.ofOrder o with
  | .error e => ("", .error (.failure (loadDiagnosis e)))
  | .ok p    =>
    (openingText o p,
      match Run.start p o.scenario with
      | .error e => .error (.failure (loadDiagnosis (.weights e)))
      | .ok run  => .ok run)

/-- The beginning of the program, with the environment and the arguments of its
command line. -/
def program (environment : List (String × String)) (args : List String) :
    String × Except Ending Run :=
  match parse environment args with
  | .error p => ("", .error (.ofProblem programName grammar p))
  | .ok o    => carryOut o

/-- The end of the program behind a run. -/
def ending (finishedAt : String) (report : Tally) : Ending :=
  match report.report finishedAt with
  | .error e => .failure e.message
  | .ok text => ⟨0, text ++ "\n", ""⟩

end OperatorKit.Command.LoadTest
