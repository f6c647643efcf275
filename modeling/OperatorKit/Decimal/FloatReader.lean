import OperatorKit.Decimal.Natural
import OperatorKit.Decimal.Binary

/-!
# Reading floating point numbers

A number is an optional sign and either a word (`inf`, `infinity` or `nan`, in
any case) or digits with an optional point and an optional exponent; at least
one digit stands before or behind the point. It is rounded to the nearest
double.
-/

namespace OperatorKit.Decimal

/-- Why a text is no floating point number. -/
inductive FloatProblem where
  | empty
  | invalid
  deriving DecidableEq, Repr

/-- The wording of a problem. -/
def FloatProblem.message : FloatProblem → String
  | .empty   => "cannot parse float from empty string"
  | .invalid => "invalid float literal"

/-- The double next to `m * 10 ^ e`. Exponents that are out of reach are cut
short, so that no huge power is computed. -/
def nearestScaled (negative : Bool) (m : Nat) (e : Int) : Float :=
  let lead := ((digits m).length : Int) + e
  if m = 0 ∨ lead < -400 then nearest negative 0 1
  else if lead > 400 then nearest negative (10 ^ 400) 1
  else let (n, d) := scaleTen m 1 e; nearest negative n d

/-- The exponent behind a number: nothing, or `e`, an optional sign and digits. -/
def readExponent? : List Char → Option Int
  | []      => some 0
  | c :: cs =>
    if c == 'e' || c == 'E' then
      let (negative, ds) := match cs with
        | '-' :: ds => (true, ds)
        | '+' :: ds => (false, ds)
        | ds        => (false, ds)
      if ds.isEmpty || !ds.all Char.isDigit then none
      else some (if negative then -(value ds : Int) else (value ds : Int))
    else none

/-- Digits with an optional point and an optional exponent. -/
def readUnsignedFloat? (negative : Bool) (cs : List Char) : Option Float :=
  let whole := cs.takeWhile Char.isDigit
  let rest := cs.dropWhile Char.isDigit
  let (fraction, rest) := match rest with
    | '.' :: r => (r.takeWhile Char.isDigit, r.dropWhile Char.isDigit)
    | r        => ([], r)
  if whole.isEmpty && fraction.isEmpty then none
  else (readExponent? rest).map fun e =>
    nearestScaled negative (value (whole ++ fraction)) (e - fraction.length)

/-- The words for numbers that have no digits. -/
def floatWord? (negative : Bool) (cs : List Char) : Option Float :=
  let word := String.ofList (cs.map Char.toLower)
  if word == "inf" || word == "infinity" then some (nearest negative (10 ^ 400) 1)
  else if word == "nan" then some (Float.ofBits 0x7FF8000000000000)
  else none

/-- Read a floating point number. -/
def readFloat (cs : List Char) : Except FloatProblem Float :=
  if cs.isEmpty then .error .empty
  else
    let (negative, rest) := match cs with
      | '-' :: r => (true, r)
      | '+' :: r => (false, r)
      | r        => (false, r)
    match (readUnsignedFloat? negative rest).orElse fun _ => floatWord? negative rest with
    | some x => .ok x
    | none   => .error .invalid

end OperatorKit.Decimal
