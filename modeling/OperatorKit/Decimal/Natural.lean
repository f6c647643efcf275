import OperatorKit.Power

/-!
# Natural numbers in decimal

Writing a natural number in decimal, and reading one of a limited size. A
reader goes from left to right and stops at the first character that makes the
text unreadable: one that is no digit, or a digit with which the number is too
large.
-/

namespace OperatorKit.Decimal

/-- The value of a decimal digit. -/
def digitValue (c : Char) : Nat := c.toNat - '0'.toNat

/-- The digit of a value below ten. -/
def digitChar (d : Nat) : Char := Char.ofNat (d + '0'.toNat)

/-- The number that a sequence of digits denotes, behind the digits of `acc`. -/
def valueFrom (acc : Nat) : List Char → Nat
  | []      => acc
  | c :: cs => valueFrom (acc * 10 + digitValue c) cs

/-- The number that a sequence of digits denotes; no digits denote zero. -/
def value (cs : List Char) : Nat := valueFrom 0 cs

/-- The digits of a number, the highest first and without leading zeros. -/
def digits (n : Nat) : List Char :=
  if n < 10 then [digitChar n]
  else digits (n / 10) ++ [digitChar (n % 10)]
  termination_by n
  decreasing_by omega

/-- A natural number in decimal. -/
def text (n : Nat) : String := String.ofList (digits n)

/-- A number with at least `width` digits, filled up with zeros in front. -/
def padded (width n : Nat) : List Char :=
  List.replicate (width - (digits n).length) '0' ++ digits n

/-- Why a text is no number of the wanted kind. -/
inductive Problem where
  | empty
  | invalidDigit
  | tooLarge
  deriving DecidableEq, Repr

/-- The wording of a problem. -/
def Problem.message : Problem → String
  | .empty        => "cannot parse integer from empty string"
  | .invalidDigit => "invalid digit found in string"
  | .tooLarge     => "number too large to fit in target type"

/-- Read digits behind the value `acc`, as long as the value stays below `limit`. -/
def readDigits (limit acc : Nat) : List Char → Except Problem Nat
  | []      => .ok acc
  | c :: cs =>
    if !c.isDigit then .error .invalidDigit
    else if acc * 10 + digitValue c < limit then readDigits limit (acc * 10 + digitValue c) cs
    else .error .tooLarge

/-- Read a number below `limit`: one or more digits, with or without a plus sign. -/
def read (limit : Nat) : List Char → Except Problem Nat
  | []        => .error .empty
  | ['+']     => .error .invalidDigit
  | '+' :: cs => readDigits limit 0 cs
  | cs        => readDigits limit 0 cs

end OperatorKit.Decimal
