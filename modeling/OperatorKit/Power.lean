/-!
# Powers

Powers of natural numbers are the ones that Lean computes with, whatever other
notions of a power are in scope: `2 ^ 64` is a bound here, and evaluates to one.
-/

namespace OperatorKit

instance (priority := 1100) natPower : Pow Nat Nat := instPowNat

attribute [default_instance 20000] natPower

end OperatorKit
