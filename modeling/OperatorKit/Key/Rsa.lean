import OperatorKit.Key.Modular
import OperatorKit.Decimal.Natural

/-!
# RSA keys

A key is made of a modulus, a public and a private exponent, and the prime
factors of the modulus. Numbers that do not fit together are refused; that the
factors are prime is not tested. If no factors are given they are computed from
the exponents. A key of two factors also carries the values for the Chinese
remainder theorem, unless the second factor has no inverse modulo the first.
-/

namespace OperatorKit.Key

/-- Why numbers make no RSA key. -/
inductive RsaProblem where
  /-- A single prime factor. -/
  | primeCount
  /-- No prime factors are given, and none can be computed. -/
  | invalidArguments
  /-- On the way to the prime factors, a number is taken from a smaller one. -/
  | negativeDifference
  | invalidPrime
  | invalidModulus
  | invalidExponent
  | exponentTooSmall
  | exponentTooLarge
  /-- There are hardly any primes of the length that a modulus asks for. -/
  | tooFewPrimes
  deriving DecidableEq, Repr

/-- The wording of a problem. -/
def RsaProblem.message : RsaProblem → String
  | .primeCount         => "nprimes must be >= 2"
  | .invalidArguments   => "invalid arguments"
  | .negativeDifference => "Cannot subtract b from a because b is larger than a."
  | .invalidPrime       => "invalid prime value"
  | .invalidModulus     => "invalid modulus"
  | .invalidExponent    => "invalid exponent"
  | .exponentTooSmall   => "public exponent too small"
  | .exponentTooLarge   => "public exponent too large"
  | .tooFewPrimes       => "too few primes of given length to generate an RSA key"

/-- The values with which a computation modulo `p * q` is split into one modulo
`p` and one modulo `q`. -/
structure Crt where
  dp : Nat
  dq : Nat
  qi : Nat
  deriving DecidableEq, Repr

/-- The values for the factors `p` and `q`. -/
def Crt.of? (d p q : Nat) : Option Crt :=
  (inverse? q p).map fun qi => ⟨d % (p - 1), d % (q - 1), qi⟩

/-- An RSA key. -/
structure RsaKey where
  n : Nat
  e : Nat
  d : Nat
  primes : List Nat
  crt : Option Crt
  deriving DecidableEq, Repr

namespace RsaKey

/-! ## Acceptance -/

/-- The product of numbers. -/
def product : List Nat → Nat
  | []      => 1
  | p :: ps => p * product ps

/-- Compute the two prime factors of a modulus from a pair of exponents. Their
sum `b` follows from `d * e - 1`, which is nearly a multiple of the modulus, and
their difference is the square root of `b ^ 2 - 4 * n`. -/
def recover (n e d : Nat) : Except RsaProblem (List Nat) :=
  if e ≤ 2 ^ 16 ∨ 2 ^ 256 ≤ e then .error .invalidArguments
  else if d = 0 ∨ n = 0 then .error .negativeDifference
  else
    let a := (d * e - 1) * Nat.gcd (n - 1) (d * e - 1)
    let m := a / n
    let r := a % n
    if (n - r) % (m + 1) ≠ 0 then .error .invalidArguments
    else
      let b := (n - r) / (m + 1) + 1
      if b * b ≤ 4 * n then .error .invalidArguments
      else
        let y := squareRoot (b * b - 4 * n)
        if y * y ≠ b * b - 4 * n then .error .invalidArguments
        else .ok [(b + y) / 2, (b - y) / 2]

/-- The prime factors of a key: those that are given, or else those computed. -/
def factors (n e d : Nat) (primes : List Nat) : Except RsaProblem (List Nat) :=
  match primes with
  | []  => recover n e d
  | [_] => .error .primeCount
  | ps  => .ok ps

/-- Whether a modulus and a public exponent make a public key. -/
def checkPublic (n e : Nat) : Except RsaProblem Unit :=
  if 2 ^ 64 ≤ e then .error .exponentTooLarge
  else if n ≤ e ∨ n % 2 = 0 then .error .invalidModulus
  else if e % 2 = 0 then .error .invalidExponent
  else if e < 2 then .error .exponentTooSmall
  else if 2 ^ 33 - 1 < e then .error .exponentTooLarge
  else .ok ()

/-- Whether the exponents undo each other modulo each factor of the modulus. -/
def checkPrivate (n e d : Nat) (primes : List Nat) : Except RsaProblem Unit :=
  if primes.any (· ≤ 1) then .error .invalidPrime
  else if product primes ≠ n then .error .invalidModulus
  else if primes.any (fun p => d * e % (p - 1) ≠ 1) then .error .invalidExponent
  else .ok ()

/-- The values for the Chinese remainder theorem, if there are two factors. -/
def crtOf? (d : Nat) : List Nat → Option Crt
  | [p, q] => Crt.of? d p q
  | _      => none

/-- Make a key of its numbers. -/
def ofComponents (n e d : Nat) (primes : List Nat) : Except RsaProblem RsaKey :=
  match factors n e d primes with
  | .error problem => .error problem
  | .ok ps         =>
    match checkPublic n e with
    | .error problem => .error problem
    | .ok ()         =>
      match checkPrivate n e d ps with
      | .error problem => .error problem
      | .ok ()         => .ok ⟨n, e, d, ps, crtOf? d ps⟩

/-- The key without the values for the Chinese remainder theorem. -/
def withoutCrt (k : RsaKey) : RsaKey := { k with crt := none }

end RsaKey

/-! ## The numbers of a private key -/

/-- All numbers of a private key with two factors. -/
structure PrivateNumbers where
  n : Nat
  e : Nat
  d : Nat
  p : Nat
  q : Nat
  dp : Nat
  dq : Nat
  qi : Nat
  deriving DecidableEq, Repr

end OperatorKit.Key
