import OperatorKit.Decimal.Natural
import OperatorKit.Decimal.Binary

/-!
# The shortest decimal of a double

Among the decimals that read back as a given double, the ones with the fewest
digits, and of these the nearest; which of two equally near ones is taken is up
to the caller. A decimal is tested exactly: the reals that round to `m * 2 ^ q` form an
interval, which contains its ends if `m` is even.
-/

namespace OperatorKit.Decimal

/-- The decimal `digits * 10 ^ exponent`. -/
structure Scaled where
  digits : Nat
  exponent : Int
  deriving DecidableEq, Repr

/-- The reals that round to a double, in quarters of its last bit, on the grid
of the multiples of a power of ten: a decimal `c` of the grid stands at `c * den`
where a quarter stands at `num`. -/
structure Grid where
  num : Nat
  den : Nat
  low : Nat
  mid : Nat
  high : Nat
  closed : Bool

/-- The interval of `m * 2 ^ q` on the grid of `10 ^ k`. Below a power of two
the next double is only half as far away. -/
def Grid.of (m : Nat) (q k : Int) : Grid :=
  let (a, b) := scaleTwo 1 4 q
  let (num, den) := scaleTen a b (-k)
  let below := if m = 2 ^ 52 ∧ q > -1074 then 1 else 2
  { num, den, low := 4 * m - below, mid := 4 * m, high := 4 * m + 2, closed := m % 2 = 0 }

/-- Whether the decimal `c` of the grid reads back as the double. -/
def Grid.contains (g : Grid) (c : Nat) : Bool :=
  if g.closed then g.low * g.num ≤ c * g.den && c * g.den ≤ g.high * g.num
  else g.low * g.num < c * g.den && c * g.den < g.high * g.num

/-- Which of two equally near decimals is taken. -/
inductive Tie where
  /-- The larger one. -/
  | up
  /-- The one with an even last digit. -/
  | even
  deriving DecidableEq, Repr

/-- Whether the lower one of the neighbours `floor` and `floor + 1` is taken, which
are away from the double by `down` and `up`. -/
def Tie.prefersLower (tie : Tie) (floor down up : Nat) : Bool :=
  down < up || (down == up && tie == .even && floor % 2 == 0)

/-- The nearer neighbour of the double on the grid, if one reads back as it. -/
def Grid.pick? (g : Grid) (tie : Tie) : Option Nat :=
  let v := g.mid * g.num
  let floor := v / g.den
  let down := v - floor * g.den
  let up := (floor + 1) * g.den - v
  match g.contains floor, g.contains (floor + 1) with
  | true, true   => some (if tie.prefersLower floor down up then floor else floor + 1)
  | true, false  => some floor
  | false, true  => some (floor + 1)
  | false, false => none

/-- The exponent of the first decimal digit of `m * 2 ^ q`, which is no less
than `10 ^ -330`. -/
def leadingExponent (m : Nat) (q : Int) : Int :=
  let (n, d) := scaleTwo (m * 10 ^ 330) 1 q
  ((digits (n / d)).length : Int) - 331

/-- Move trailing zeros of the digits to the exponent. -/
def Scaled.normalize (fuel : Nat) (s : Scaled) : Scaled :=
  match fuel with
  | 0     => s
  | f + 1 => if s.digits % 10 = 0 then normalize f ⟨s.digits / 10, s.exponent + 1⟩ else s

/-- The shortest decimal of `m * 2 ^ q`, where `m` is not zero. Seventeen digits
always suffice. -/
def shortest (tie : Tie) (m : Nat) (q : Int) : Scaled :=
  let lead := leadingExponent m q
  let attempt := fun (n : Nat) =>
    let k := lead - n
    ((Grid.of m q k).pick? tie).map fun c => Scaled.normalize 20 ⟨c, k⟩
  ((List.range 17).findSome? attempt).getD ⟨0, 0⟩

end OperatorKit.Decimal
