import OperatorKit.Span
import OperatorKit.Decimal.Binary

/-!
# Spans from fractions of a second

A double taken as seconds is the span of the nearest number of nanoseconds, a
tie going to the even one. Negative numbers, numbers of 2^64 seconds and more,
and what is no number have no span; a negative zero is zero.
-/

namespace OperatorKit.Span

open Decimal

/-- The nanoseconds of `m * 2 ^ q` seconds, rounded. -/
def roundedNanos (m : Nat) (q : Int) : Nat :=
  let (n, d) := scaleTwo (m * nanosPerSecond) 1 q
  roundDiv n d

/-- The span of a number of seconds. -/
def ofFloat? (x : Float) : Option Span :=
  match Binary.ofFloat x with
  | .finite negative m q => if negative && m != 0 then none else ofNanos? (roundedNanos m q)
  | .infinite _          => none
  | .nan                 => none

end OperatorKit.Span
