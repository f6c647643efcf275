import OperatorKit.Proofs.Load.Reporting

/-!
# From the first arrival to the report

The users of a run arrive one after the other, until all of them are there or the run is stopped
in a rest between two of them. It waits for its stop in those rests and behind the last arrival,
and never again once it was stopped. Then its users are taken out, and the report is the last
thing that happens.
-/

namespace OperatorKit.Load

/-! ## Stages -/

namespace Stage

variable {stage : Stage} {planned users : Nat}

end Stage

namespace Run

variable {plan : Plan} {scenario : Scenario} {r r' : Run} {e : Event} {es : List Event} {id : Nat}
  {u : User}

end Run
end OperatorKit.Load
