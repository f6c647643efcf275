import OperatorKit.Decimal.Layout
import OperatorKit.Load.Pause
import OperatorKit.Load.Picker
import OperatorKit.Load.Weights

/-!
# Plans

What an operator orders and the plan of a load test that follows from it. A plan
has a host with a known scheme and no slash at its end, at least one user, a
span between two arrivals, and a range of pauses. Of several faults in an order
the first in this sequence is reported.
-/

namespace OperatorKit.Load

/-- What an operator orders. -/
structure Order where
  host : String
  users : Nat
  /-- Users that arrive in a second. -/
  spawnRate : Float
  runTime : Option Span
  /-- The shortest and the longest pause, in seconds. -/
  minWait : Float
  maxWait : Float
  picker : PickerKind
  weights : List UInt32
  /-- The patience with a silent host, in seconds. -/
  timeout : UInt64
  scenario : Scenario

/-- Why an order cannot be carried out. -/
inductive LoadProblem where
  | invalidHost (host : String)
  | noUsers
  | invalidSpawnRate (rate : Float)
  | invalidWaitRange (min max : Float)
  | weights (problem : WeightProblem)
  deriving Repr

/-- The wording of a problem. -/
def LoadProblem.message : LoadProblem → String
  | .invalidHost h       => "Invalid host '" ++ h ++ "': expected an http:// or https:// URL"
  | .noUsers             => "At least one user is required"
  | .invalidSpawnRate r  =>
    "Invalid spawn rate " ++ Decimal.Layout.operator.write r ++ ": must be a positive number"
  | .invalidWaitRange lo hi =>
    "Invalid wait range: min " ++ Decimal.Layout.operator.write lo ++
      "s must be >= 0 and <= max " ++ Decimal.Layout.operator.write hi ++ "s"
  | .weights p           => p.message

/-- A load test that can be carried out. -/
structure Plan where
  host : String
  users : Nat
  spawnRate : Float
  /-- The span between the arrivals of two users. -/
  spawnInterval : Span
  runTime : Option Span
  pauses : PauseRange
  picker : PickerKind
  weights : List UInt32
  timeout : Span

namespace Plan

/-- A host without the slashes at its end. -/
def trimHost (host : String) : String := String.ofList (Text.dropTrailing '/' host.toList)

/-- The schemes of a host. -/
def schemes : List String := ["http://", "https://"]

/-- A host with a known scheme and something behind it, without slashes at its end. -/
def host? (host : String) : Option String :=
  let trimmed := trimHost host
  if schemes.any fun s => s.toList.isPrefixOf trimmed.toList then some trimmed else none

/-- The span between two arrivals, for a rate that is a positive number. -/
def spawnInterval? (rate : Float) : Option Span :=
  if rate > 0 && rate.isFinite then Span.ofFloat? (1 / rate) else none

/-- The plan of an order. -/
def ofOrder (o : Order) : Except LoadProblem Plan :=
  match host? o.host with
  | none      => .error (.invalidHost o.host)
  | some host =>
    if o.users = 0 then .error .noUsers
    else
      match spawnInterval? o.spawnRate with
      | none          => .error (.invalidSpawnRate o.spawnRate)
      | some interval =>
        match PauseRange.ofSeconds? o.minWait o.maxWait with
        | none        => .error (.invalidWaitRange o.minWait o.maxWait)
        | some pauses =>
          .ok {
            host, users := o.users, spawnRate := o.spawnRate, spawnInterval := interval
            runTime := o.runTime, pauses, picker := o.picker, weights := o.weights
            timeout := Span.ofWord o.timeout }

end Plan
end OperatorKit.Load
