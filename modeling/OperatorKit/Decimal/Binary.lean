import OperatorKit.Power

/-!
# Binary floating point, taken apart and put together

A double is a whole number times a power of two, `mantissa * 2 ^ exponent`.
`Binary.ofFloat` reads both off its bits and `nearest` goes back: it rounds a
quotient of natural numbers to the double next to it, a tie to the even
mantissa. All steps in between are arithmetic of natural numbers.
-/

namespace OperatorKit.Decimal

/-- A double as sign, mantissa and exponent. -/
inductive Binary where
  | nan
  | infinite (negative : Bool)
  | finite (negative : Bool) (mantissa : Nat) (exponent : Int)
  deriving DecidableEq, Repr

/-- The parts of a double. -/
def Binary.ofFloat (x : Float) : Binary :=
  let bits := x.toBits.toNat
  let negative := decide (bits ≥ 2 ^ 63)
  let field : Nat := bits / 2 ^ 52 % 2 ^ 11
  let fraction : Nat := bits % 2 ^ 52
  if field = 2047 then if fraction = 0 then .infinite negative else .nan
  else if field = 0 then .finite negative fraction (-1074)
  else .finite negative (2 ^ 52 + fraction) ((field : Int) - 1075)

/-- The quotient rounded to the nearest whole number, a half to the even one. -/
def roundDiv (num den : Nat) : Nat :=
  let q := num / den
  let twice := 2 * (num % den)
  if twice < den then q else if den < twice then q + 1 else if q % 2 = 0 then q else q + 1

/-- A fraction times a power of two, as a fraction. -/
def scaleTwo (num den : Nat) (e : Int) : Nat × Nat :=
  if e ≥ 0 then (num * 2 ^ e.toNat, den) else (num, den * 2 ^ (-e).toNat)

/-- A fraction times a power of ten, as a fraction. -/
def scaleTen (num den : Nat) (e : Int) : Nat × Nat :=
  if e ≥ 0 then (num * 10 ^ e.toNat, den) else (num, den * 10 ^ (-e).toNat)

/-- The bits of the double next to `num / den`. The exponent is the one that
leaves 53 bits before the point, or the least there is. -/
def nearestBits (num den : Nat) : Nat :=
  if num = 0 then 0 else
  let guess : Int := (num.log2 : Int) - (den.log2 : Int) - 52
  let big := fun (e : Int) => let (n, d) := scaleTwo num den (-e); decide (n ≥ d * 2 ^ 53)
  let small := fun (e : Int) => let (n, d) := scaleTwo num den (-e); decide (n < d * 2 ^ 52)
  let e := if big guess then guess + 1 else if small guess then guess - 1 else guess
  let e := if e < -1074 then -1074 else e
  let (n, d) := scaleTwo num den (-e)
  let m := roundDiv n d
  let bits := if m < 2 ^ 52 then m else (e + 1074).toNat * 2 ^ 52 + m
  if bits < 2047 * 2 ^ 52 then bits else 2047 * 2 ^ 52

/-- The double next to `num / den`, infinite if that is too large. -/
def nearest (negative : Bool) (num den : Nat) : Float :=
  Float.ofBits (UInt64.ofNat (nearestBits num den + if negative then 2 ^ 63 else 0))

example : roundDiv 5 2 = 2 ∧ roundDiv 7 2 = 4 ∧ roundDiv 11 4 = 3 := by decide
example : nearestBits 1 1 = 1023 * 2 ^ 52 ∧ nearestBits 1 (2 ^ 1074) = 1 := by decide +kernel

end OperatorKit.Decimal
