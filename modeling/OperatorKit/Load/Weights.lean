import OperatorKit.Load.Scenario

/-!
# Overriding weights

An operator may give the tasks of a scenario other weights, one for each task.
Weights that do not fit the tasks, or that leave no task to pick, are refused
and change nothing. No weights at all keep those that are there.
-/

namespace OperatorKit.Load

/-- Why weights are refused. -/
inductive WeightProblem where
  | countMismatch (given expected : Nat)
  | allZero
  deriving DecidableEq, Repr

/-- The wording of a problem. -/
def WeightProblem.message : WeightProblem → String
  | .countMismatch given expected =>
    "Got " ++ Decimal.text given ++ " weights for " ++ Decimal.text expected ++ " tasks"
  | .allZero => "At least one task weight must be greater than zero"

/-- Give each task its weight. -/
def assignWeights : List Task → List UInt32 → List Task
  | t :: ts, w :: ws => { t with weight := w } :: assignWeights ts ws
  | ts,      _       => ts

/-- The tasks with the operator's weights. -/
def applyWeights (tasks : List Task) (weights : List UInt32) : Except WeightProblem (List Task) :=
  if weights.isEmpty then .ok tasks
  else if weights.length ≠ tasks.length then
    .error (.countMismatch weights.length tasks.length)
  else if weights.all (· == 0) then .error .allZero
  else .ok (assignWeights tasks weights)

/-- Apply one list of weights after the other; a refused one is passed over. -/
def overrideWeights (tasks : List Task) (vectors : List (List UInt32)) : List Task :=
  vectors.foldl (fun ts ws => (applyWeights ts ws).toOption.getD ts) tasks

end OperatorKit.Load
