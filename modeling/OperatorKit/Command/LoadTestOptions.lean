import OperatorKit.Arguments.Parser
import OperatorKit.Decimal.FloatReader
import OperatorKit.Load.Plan
import OperatorKit.Load.RunTime

/-!
# The command line of the load test

Options for the order, and a command for each scenario.
-/

namespace OperatorKit.Command.LoadTest

open Arguments Load

/-! ## Values -/

/-- The counts and sizes on a command line fit in 64 bits. -/
abbrev wordLimit : Nat := 2 ^ 64

/-- Why a text is no number below a limit. -/
def refuseNatural? (limit : Nat) (s : String) : Option String :=
  match Decimal.read limit s.toList with
  | .ok _    => none
  | .error e => some e.message

/-- Why a text is no floating point number. -/
def refuseFloat? (s : String) : Option String :=
  match Decimal.readFloat s.toList with
  | .ok _    => none
  | .error e => some e.message

/-- Why a text is no run time. -/
def refuseRunTime? (s : String) : Option String :=
  match RunTime.ofText s with
  | .ok _    => none
  | .error e => some e.message

/-- Why a text is no way to pick tasks. -/
def refusePicker? (s : String) : Option String :=
  match PickerKind.ofText s with
  | .ok _    => none
  | .error e => some e

/-- The number that an accepted text stands for. -/
def natural (limit : Nat) (s : String) : Nat := (Decimal.read limit s.toList).toOption.getD 0

/-- The floating point number that an accepted text stands for. -/
def float (s : String) : Float := (Decimal.readFloat s.toList).toOption.getD 0

/-! ## Options -/

def host : Opt :=
  { long := "host", standIn := some "LOCUST_HOST", absent := some "http://localhost:4554" }

def users : Opt :=
  { long := "users", short := some 'u', absent := some "1", refusal? := refuseNatural? wordLimit }

def spawnRate : Opt :=
  { long := "spawn-rate", short := some 'r', absent := some "1", refusal? := refuseFloat? }

def runTime : Opt := { long := "run-time", short := some 't', refusal? := refuseRunTime? }

def minWait : Opt := { long := "min-wait", absent := some "1", refusal? := refuseFloat? }

def maxWait : Opt := { long := "max-wait", absent := some "5", refusal? := refuseFloat? }

def scheduler : Opt :=
  { long := "scheduler", absent := some "random", refusal? := refusePicker? }

def weights : Opt :=
  { long := "weights", separator := some ',', repeatable := true,
    refusal? := refuseNatural? (2 ^ 32) }

def timeout : Opt :=
  { long := "timeout", absent := some "30", refusal? := refuseNatural? wordLimit }

def jsonBody : Opt :=
  { long := "json-body", standIn := some "LOCUST_JSON_BODY", absent := some defaultBodyText }

def webhook : Opt :=
  { long := "webhook", standIn := some "LOCUST_WEBHOOK", absent := some defaultWebhook }

/-- The command line of the load test. -/
def grammar : Grammar :=
  { top :=
      { options := [host, users, spawnRate, runTime, minWait, maxWait, scheduler, weights, timeout]
        hasVersion := true }
    commands :=
      [("post", { options := [jsonBody], hasVersion := false }),
       ("get", { options := [webhook], hasVersion := false })] }

/-- The scenario of a command. -/
def scenarioOf (m : Matches) : Scenario :=
  if m.command.map (·.1) = some "get" then .get (m.commandValue webhook)
  else .post (m.commandValue jsonBody)

/-- The order on a command line. -/
def orderOf (m : Matches) : Order :=
  { host := m.value host
    users := natural wordLimit (m.value users)
    spawnRate := float (m.value spawnRate)
    runTime := (m.values runTime).getLast?.bind fun s => (RunTime.ofText s).toOption
    minWait := float (m.value minWait)
    maxWait := float (m.value maxWait)
    picker := (PickerKind.ofText (m.value scheduler)).toOption.getD .random
    weights := (m.values weights).map fun s => UInt32.ofNat (natural (2 ^ 32) s)
    timeout := UInt64.ofNat (natural wordLimit (m.value timeout))
    scenario := scenarioOf m }

/-- Read an order from a command line and environment variables. -/
def parse (environment : List (String × String)) (args : List String) :
    Except Arguments.Problem Order :=
  (grammar.parse environment args).map orderOf

end OperatorKit.Command.LoadTest
