/-!
# Faults

What can stop a computation in the middle: a sum or a division that has no
result, a draw from an empty range, a look-up outside of a list, a value that is
not there, and an end of the random words that a draw consumes.
-/

namespace OperatorKit

/-- The cause that stopped a computation. -/
inductive Fault where
  /-- A sum of counts does not fit in its word. -/
  | countOverflow
  /-- A sum of spans of time is no span of time. -/
  | spanOverflow
  /-- A span of time was divided by zero. -/
  | spanOverZero
  /-- A number was to be drawn from an empty range. -/
  | emptyRange
  /-- A remainder modulo zero was asked for. -/
  | remainderByZero
  /-- A list of `length` elements has none at `index`. -/
  | outOfBounds (length index : Nat)
  /-- A row of `length` elements has no part that begins at `start`. -/
  | startOutOfBounds (length start : Nat)
  /-- A value was needed that is not there. -/
  | missingValue
  /-- The random words ran out before a draw was done. -/
  | starved
  deriving DecidableEq, Repr

/-- The wording of a fault. -/
def Fault.message : Fault → String
  | .countOverflow        => "attempt to add with overflow"
  | .spanOverflow         => "overflow when adding durations"
  | .spanOverZero         => "divide by zero error when dividing duration by scalar"
  | .emptyRange           => "cannot sample empty range"
  | .remainderByZero      => "attempt to calculate the remainder with a divisor of zero"
  | .outOfBounds l i      => s!"index out of bounds: the len is {l} but the index is {i}"
  | .startOutOfBounds l i => s!"range start index {i} out of range for slice of length {l}"
  | .missingValue         => "called \x60Option::unwrap()\x60 on a \x60None\x60 value"
  | .starved              => "no random words left"

end OperatorKit
