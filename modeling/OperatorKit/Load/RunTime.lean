import OperatorKit.Text.Blank
import OperatorKit.Decimal.Natural
import OperatorKit.Span

/-!
# Run times

How long a load test lasts, written as a whole number of seconds or as a row of
segments such as `1h30m`. A segment is a number and a unit; the run time is the
sum of its segments. The first faulty segment decides what is wrong with a text.
-/

namespace OperatorKit.Load

/-- Why a text is no run time. -/
inductive RunTimeProblem where
  /-- Nothing but blanks. -/
  | empty
  /-- A unit without a number, or with one of more than 64 bits. -/
  | malformed (text : String)
  /-- A number with an unknown unit. -/
  | unknownUnit (unit : Char)
  /-- The segments so far make 2^64 seconds or more. -/
  | tooLong (text : String)
  /-- Digits at the end that no unit follows. -/
  | missingUnit (digits text : String)
  deriving DecidableEq, Repr

/-- The wording of a problem. -/
def RunTimeProblem.message : RunTimeProblem → String
  | .empty               => "Run time cannot be empty"
  | .malformed t         =>
    "Invalid run time: '" ++ t ++ "'. Use formats like '30s', '5m', '1h30m'."
  | .unknownUnit c       =>
    "Unknown run time unit: '" ++ String.ofList [c] ++ "'. Use 's', 'm', 'h' or 'd'."
  | .tooLong t           => "Run time '" ++ t ++ "' is too long"
  | .missingUnit ds t    => "Missing unit after '" ++ ds ++ "' in run time '" ++ t ++ "'"

namespace RunTime

/-- The seconds of one unit. -/
def unitSeconds? : Char → Option Nat
  | 's' => some 1
  | 'm' => some 60
  | 'h' => some 3600
  | 'd' => some 86400
  | _   => none

/-- The seconds and the counts of a run time fit in 64 bits. -/
abbrev limit : Nat := 2 ^ 64

/-- Sum up the segments of a text. `whole` is the text, `digits` are the digits
read since the last unit and `total` is the sum of the segments before them. -/
def segments (whole : String) (total : Nat) (digits : List Char) :
    List Char → Except RunTimeProblem Nat
  | [] => if digits.isEmpty then .ok total else .error (.missingUnit (String.ofList digits) whole)
  | c :: cs =>
    if c.isDigit then segments whole total (digits ++ [c]) cs
    else
      match Decimal.read limit digits with
      | .error _ => .error (.malformed whole)
      | .ok n =>
        match unitSeconds? c with
        | none => .error (.unknownUnit c)
        | some unit =>
          if total + n * unit < limit then segments whole (total + n * unit) [] cs
          else .error (.tooLong whole)

/-- The seconds of a text without blanks at its ends. -/
def secondsOf (t : String) : Except RunTimeProblem Nat :=
  if t.toList.isEmpty then .error .empty
  else
    match Decimal.read limit t.toList with
    | .ok n    => .ok n
    | .error _ => segments t 0 [] t.toList

/-- Read a run time. Blanks around it do not count. -/
def ofText (s : String) : Except RunTimeProblem Span :=
  let t := Text.trim s
  match secondsOf t with
  | .error e => .error e
  | .ok n    =>
    match Span.ofSeconds? n with
    | some span => .ok span
    | none      => .error (.tooLong t)

end RunTime
end OperatorKit.Load
