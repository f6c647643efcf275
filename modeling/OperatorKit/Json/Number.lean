import OperatorKit.Decimal.FloatReader
import OperatorKit.Decimal.Layout
import OperatorKit.Json.Problem

/-!
# Numbers

JSON numbers. A whole number that fits in 64 bits stays one, with a sign or
without. Every other number becomes a double by way of a significand of 64 bits:
digits that do not fit in it are dropped, and one scaling by a power of ten
follows. The double is therefore near the written number and not always the
nearest.
-/

namespace OperatorKit.Json

/-- The parts of a written number. -/
structure Numeral where
  negative : Bool
  whole : List Char
  fraction : Option (List Char)
  exponent : Option (Bool × List Char)
  deriving DecidableEq, Repr

/-- A number that was read. -/
inductive Number where
  | integer (n : Int)
  | float (x : Float)
  deriving Repr

/-! ## Reading the parts -/

/-- The digits at the front of a text and what follows them. -/
def spanDigits (cs : List Char) : List Char × List Char :=
  (cs.takeWhile Char.isDigit, cs.dropWhile Char.isDigit)

/-- One or more digits. -/
def readDigits : Reader (List Char) := fun cs =>
  match spanDigits cs with
  | ([], [])     => .error .unfinished
  | ([], _)      => .error .malformed
  | (ds, rest)   => .ok (ds, rest)

/-- Digits of a whole number, which begins with a zero only if it is one. -/
def readWhole : Reader (List Char) := fun cs =>
  match readDigits cs with
  | .ok ('0' :: _ :: _, _) => .error .malformed
  | other                  => other

/-- An exponent, if one follows; the flag says whether it is negative. -/
def readExponent : Reader (Option (Bool × List Char))
  | c :: cs =>
    if c == 'e' || c == 'E' then
      let (negative, cs) := match cs with
        | '-' :: cs => (true, cs)
        | '+' :: cs => (false, cs)
        | cs        => (false, cs)
      match readDigits cs with
      | .error e       => .error e
      | .ok (ds, rest) => .ok (some (negative, ds), rest)
    else .ok (none, c :: cs)
  | [] => .ok (none, [])

/-- A fraction, if one follows. -/
def readFraction : Reader (Option (List Char))
  | '.' :: cs =>
    match readDigits cs with
    | .error e       => .error e
    | .ok (ds, rest) => .ok (some ds, rest)
  | cs => .ok (none, cs)

/-- The parts of a number behind its sign. -/
def readUnsigned (negative : Bool) : Reader Numeral := fun cs =>
  match readWhole cs with
  | .error e => .error e
  | .ok (whole, cs) =>
    match readFraction cs with
    | .error e => .error e
    | .ok (fraction, cs) =>
      match readExponent cs with
      | .error e           => .error e
      | .ok (exponent, cs) => .ok (⟨negative, whole, fraction, exponent⟩, cs)

/-- The parts of a number. -/
def readNumeral : Reader Numeral
  | '-' :: cs => readUnsigned true cs
  | cs        => readUnsigned false cs

/-! ## The value of a number -/

/-- Whether a digit behind the significand still fits in 64 bits. -/
def extends64 (significand : Nat) (c : Char) : Bool :=
  decide (significand * 10 + Decimal.digitValue c < 2 ^ 64)

/-- Take digits into the significand until one does not fit, and count the
digits that are left. -/
def absorb (significand : Nat) : List Char → Nat × List Char
  | []      => (significand, [])
  | c :: cs =>
    if extends64 significand c then absorb (significand * 10 + Decimal.digitValue c) cs
    else (significand, c :: cs)

/-- Scale a double by a power of ten. Powers beyond the range of doubles are
taken in steps; nothing is the answer if the result is too large. -/
def scale? (f : Float) (e : Int) : Option Float :=
  if 0 ≤ e ∧ e ≤ 308 then
    let g := f * Decimal.nearest false (10 ^ e.toNat) 1
    if g.isInf then none else some g
  else if -308 ≤ e ∧ e < 0 then some (f / Decimal.nearest false (10 ^ (-e).toNat) 1)
  else if f == 0 then some f
  else if e > 0 then none
  else scale? (f / Decimal.nearest false (10 ^ 308) 1) (e + 308)
  termination_by e.natAbs

/-- A double of a sign and of a size. -/
def signed (negative : Bool) (f : Float) : Float := if negative then -f else f

/-- The largest exponent that is added to what the digits give. -/
abbrev exponentLimit : Nat := 2 ^ 31

/-- The double of a numeral. -/
def Numeral.float (n : Numeral) : Except Problem Float :=
  let (m, dropped) := absorb 0 n.whole
  let (m', unused) := absorb m (n.fraction.getD [])
  let places := (n.fraction.getD []).length - unused.length
  let start : Int := dropped.length - places
  let exponent : Except Float Int := match n.exponent with
    | none          => .ok start
    | some (neg, ds) =>
      let e := Decimal.value ds
      if e < exponentLimit then .ok (if neg then start - e else start + e)
      else if neg || m' == 0 then .error (signed n.negative 0)
      else .ok (start + exponentLimit)
  match exponent with
  | .error zero => .ok zero
  | .ok e       =>
    match scale? (Decimal.nearest false m' 1) e with
    | some f => .ok (signed n.negative f)
    | none   => .error .malformed

/-- The number of a numeral. -/
def Numeral.number (n : Numeral) : Except Problem Number :=
  let v := Decimal.value n.whole
  if n.fraction.isNone && n.exponent.isNone && !n.negative && decide (v < 2 ^ 64) then
    .ok (.integer v)
  else if n.fraction.isNone && n.exponent.isNone && n.negative && decide (0 < v ∧ v ≤ 2 ^ 63) then
    .ok (.integer (-v))
  else
    match n.float with
    | .error e => .error e
    | .ok f    => .ok (.float f)

/-- Read a number. -/
def readNumber : Reader Number := fun cs =>
  match readNumeral cs with
  | .error e      => .error e
  | .ok (n, rest) =>
    match n.number with
    | .error e => .error e
    | .ok x    => .ok (x, rest)

/-- Pass over a number. It may be out of range, and its digits may not end with
the text. -/
def skipNumber (cs : List Char) : Except Problem (List Char) :=
  match readNumeral cs with
  | .error _      => .error .malformed
  | .ok (_, rest) => .ok rest

/-! ## Writing -/

/-- Doubles in JSON: positional from `1e-5` up to `1e16`, with a digit behind the
point; other exponents always have a sign. Of two equally near decimals the even
one is written. -/
def floatLayout : Decimal.Layout :=
  { positional := fun e => -5 ≤ e ∧ e < 16, keepsPoint := true, plusSign := "+", tie := .even }

/-- A whole number. -/
def integerText (n : Int) : List Char :=
  if n < 0 then '-' :: Decimal.digits n.natAbs else Decimal.digits n.natAbs

/-- A number. -/
def Number.text : Number → List Char
  | .integer n => integerText n
  | .float x   => (floatLayout.write x).toList

end OperatorKit.Json
