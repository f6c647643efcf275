/-!
# Modular arithmetic

Inverses, powers and square roots of natural numbers, as an RSA key needs them.
-/

namespace OperatorKit.Key

/-- Euclid's algorithm on `r` and `r'`, where `r` and `r'` are `s` and `s'` times
one number modulo another: the greatest common divisor and its factor. -/
def euclid (r r' : Nat) (s s' : Int) : Nat × Int :=
  if r' = 0 then (r, s) else euclid r' (r % r') s' (s - (r / r' : Nat) * s')
  termination_by r'
  decreasing_by exact Nat.mod_lt _ (by omega)

/-- The inverse of `a` modulo `m`, if the two have no common divisor. -/
def inverse? (a m : Nat) : Option Nat :=
  let (g, x) := euclid a m 1 0
  if g = 1 then some (x % m).toNat else none

/-- `b ^ e` modulo `m`, by squaring. -/
def powMod (b e m : Nat) : Nat :=
  if e = 0 then 1 % m
  else
    let h := powMod (b * b % m) (e / 2) m
    if e % 2 = 1 then h * b % m else h
  termination_by e
  decreasing_by omega

/-- The greatest number whose square is at most `n`. -/
def squareRoot (n : Nat) : Nat :=
  if n < 2 then n
  else
    let r := 2 * squareRoot (n / 4)
    if (r + 1) * (r + 1) ≤ n then r + 1 else r
  termination_by n
  decreasing_by omega

example : inverse? 17 3120 = some 2753 := by decide +kernel
example : powMod 65 17 3233 = 2790 ∧ squareRoot 99 = 9 := by decide +kernel

end OperatorKit.Key
