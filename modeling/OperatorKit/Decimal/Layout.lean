import OperatorKit.Decimal.Shortest

/-!
# Layouts of floating point numbers

A layout says how the shortest decimal of a double is set: where positional
notation ends, whether a whole number keeps a zero behind the point, whether a
positive exponent has a sign, and which of two equally near decimals is set.
-/

namespace OperatorKit.Decimal

/-- How a double is written. -/
structure Layout where
  /-- The exponents of the first digit that are written without an exponent. -/
  positional : Int → Bool
  /-- Whether a whole number ends in `.0`. -/
  keepsPoint : Bool
  /-- What stands before an exponent that is not negative. -/
  plusSign : String
  /-- Which of two equally near decimals is set. -/
  tie : Tie

/-- Digits with an exponent: `1.5e300`, `2e-7`. -/
def Layout.scientific (l : Layout) (ds : List Char) (lead : Int) : String :=
  let head := match ds with
    | [d]     => String.ofList [d]
    | d :: ds => String.ofList (d :: '.' :: ds)
    | []      => ""
  let sign := if lead < 0 then "-" else l.plusSign
  head ++ "e" ++ sign ++ text lead.natAbs

/-- Digits with a point, and with zeros up to it or behind it: `150`, `0.02`. -/
def Layout.plain (l : Layout) (ds : List Char) (lead : Int) : String :=
  if lead < 0 then
    String.ofList ('0' :: '.' :: List.replicate (lead.natAbs - 1) '0' ++ ds)
  else
    let whole := lead.toNat + 1
    if ds.length ≤ whole then
      String.ofList (ds ++ List.replicate (whole - ds.length) '0') ++
        (if l.keepsPoint then ".0" else "")
    else String.ofList (ds.take whole ++ '.' :: ds.drop whole)

/-- The digits of a decimal, set by a layout. -/
def Layout.set (l : Layout) (s : Scaled) : String :=
  let ds := digits s.digits
  let lead := s.exponent + ds.length - 1
  if l.positional lead then l.plain ds lead else l.scientific ds lead

/-- A double in a layout. -/
def Layout.write (l : Layout) (x : Float) : String :=
  match Binary.ofFloat x with
  | .nan              => "NaN"
  | .infinite neg     => if neg then "-inf" else "inf"
  | .finite neg 0 _   => (if neg then "-0" else "0") ++ (if l.keepsPoint then ".0" else "")
  | .finite neg m q   => (if neg then "-" else "") ++ l.set (shortest l.tie m q)

/-- The layout for operators: never an exponent, and no point behind a whole number. -/
def Layout.operator : Layout :=
  { positional := fun _ => true, keepsPoint := false, plusSign := "", tie := .up }

/-- The layout for diagnostics: positional from `1e-4` up to `1e16`, with a digit
behind the point. -/
def Layout.diagnostic : Layout :=
  { positional := fun e => -4 ≤ e ∧ e < 16, keepsPoint := true, plusSign := "", tie := .up }

end OperatorKit.Decimal
