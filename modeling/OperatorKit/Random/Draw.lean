import OperatorKit.Power
import OperatorKit.Fault

/-!
# Draws without bias

A draw takes random words from a list until one of them, or a pair read as one
number of 64 bits, is accepted. What is accepted is decided by one function of
the raw number: it multiplies the number by the size of the range, keeps the
high half of the product and looks at the low half, which has to be small
enough that every value of the range gets the same share of the raw numbers.
-/

namespace OperatorKit.Random

/-- A number of 64 bits from two words, the low one first. -/
def wide (low high : UInt32) : Nat := low.toNat + 2 ^ 32 * high.toNat

/-- A draw uses up some words of a list and leaves the others. -/
abbrev Draw (α : Type) : Type := List UInt32 → Except Fault (α × List UInt32)

/-! ## Below a bound -/

/-- The leading zeros of a number among 64 bits. -/
def leadingZeros (n : Nat) : Nat := if n = 0 then 64 else 63 - n.log2

/-- The number below `n` that the raw number `v` of 64 bits stands for. -/
def acceptBelow (n v : Nat) : Option Nat :=
  let zone := n * 2 ^ leadingZeros n - 1
  if v * n % 2 ^ 64 ≤ zone then some (v * n / 2 ^ 64) else none

/-- Try the raw numbers one after the other. -/
def firstBelow (n : Nat) : Draw Nat
  | low :: high :: rest =>
    match acceptBelow n (wide low high) with
    | some k => .ok (k, rest)
    | none   => firstBelow n rest
  | _ => .error .starved

/-- Draw a number below `n`. -/
def below (n : Nat) : Draw Nat := fun words =>
  if n = 0 then .error .emptyRange else firstBelow n words

/-! ## Between two bounds -/

/-- The number from `low` to `high` that the raw number `v` of `bits` bits
stands for. The whole range of `bits` bits takes every raw number as it is. -/
def acceptBetween (bits low high v : Nat) : Option Nat :=
  let n := (high - low + 1) % 2 ^ bits
  if n = 0 then some v
  else
    let surplus := (2 ^ bits - n) % n
    if v * n % 2 ^ bits ≤ 2 ^ bits - 1 - surplus then some (low + v * n / 2 ^ bits) else none

/-- Draw a number from `low` to `high` with one word a try. -/
def between32 (low high : Nat) : Draw Nat
  | word :: rest =>
    match acceptBetween 32 low high word.toNat with
    | some k => .ok (k, rest)
    | none   => between32 low high rest
  | [] => .error .starved

/-- Draw a number from `low` to `high` with two words a try. -/
def between64 (low high : Nat) : Draw Nat
  | lo :: hi :: rest =>
    match acceptBetween 64 low high (wide lo hi) with
    | some k => .ok (k, rest)
    | none   => between64 low high rest
  | _ => .error .starved

end OperatorKit.Random
