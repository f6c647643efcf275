import OperatorKit.Key.Rsa
import OperatorKit.Key.Integer

/-!
# Making keys

Primes of a given length from random words, and keys from primes. A candidate
has its two highest bits set, so that a product of two primes has exactly the
length of both together, and its lowest bit; from there every second number is
tested. The test of Miller and Rabin finds every composite number that a
random candidate is likely to be.
-/

namespace OperatorKit.Key

/-! ## Testing -/

/-- The first primes. They are divided out before, and are the bases of the test. -/
def smallPrimes : List Nat :=
  [2, 3, 5, 7, 11, 13, 17, 19, 23, 29, 31, 37, 41, 43, 47, 53, 59, 61, 67, 71, 73, 79, 83, 89, 97,
   101, 103, 107, 109, 113, 127, 131, 137, 139, 149, 151, 157, 163, 167, 173, 179, 181, 191, 193,
   197, 199, 211, 223, 227, 229, 233, 239, 241, 251]

/-- A number as an odd number and how often it is doubled. -/
def oddPart (n : Nat) : Nat × Nat :=
  if n = 0 ∨ n % 2 = 1 then (n, 0) else let (m, k) := oddPart (n / 2); (m, k + 1)
  termination_by n
  decreasing_by omega

/-- Square `x` up to `k` times; whether `n - 1` comes up. -/
def reachesMinusOne (n : Nat) : Nat → Nat → Bool
  | 0,     _ => false
  | k + 1, x => x == n - 1 || reachesMinusOne n k (x * x % n)

/-- Whether the powers of `a` look as they do modulo a prime. -/
def passes (n a : Nat) : Bool :=
  let (m, k) := oddPart (n - 1)
  let x := powMod (a % n) m n
  x == 1 || reachesMinusOne n k x

/-- Whether a number passes every test for a prime. -/
def isProbablePrime (n : Nat) : Bool :=
  if n < 2 then false
  else if smallPrimes.contains n then true
  else !smallPrimes.any (n % · == 0) && (smallPrimes.take 20).all (passes n)

/-! ## Searching -/

/-- A number of bits from words, the first word lowest. -/
def ofWords : List UInt32 → Nat
  | []      => 0
  | w :: ws => w.toNat + 2 ^ 32 * ofWords ws

/-- An odd number of `bits` bits with its two highest bits set. -/
def candidate (bits : Nat) (words : List UInt32) : Nat :=
  let low := ofWords words % 2 ^ (bits - 2)
  3 * 2 ^ (bits - 2) + low / 2 * 2 + 1

/-- The first prime among `tries` odd numbers, none of them longer than `bits` bits. -/
def searchPrime? (bits : Nat) : (tries : Nat) → Nat → Option Nat
  | 0,         _ => none
  | tries + 1, n =>
    if 2 ^ bits ≤ n then none
    else if isProbablePrime n then some n
    else searchPrime? bits tries (n + 2)

/-- The words that a candidate of `bits` bits takes. -/
def wordsFor (bits : Nat) : Nat := (bits + 31) / 32

/-- A prime of `bits` bits from random words, and the words behind those it took. -/
def drawPrime? (bits : Nat) (words : List UInt32) : Option Nat × List UInt32 :=
  let k := wordsFor bits
  (searchPrime? bits (8 * bits) (candidate bits (words.take k)), words.drop k)

/-! ## Keys -/

/-- The public exponent of every key. -/
def publicExponent : Nat := 65537

/-- The fewest bits for which there are enough primes of half the length. -/
abbrev fewestBits : Nat := 12

/-- The numbers of a key from its primes, if they fit. -/
def numbersOf? (bits p q : Nat) : Option (Nat × Nat × List Nat) :=
  if p = q ∨ bitLength (p * q) ≠ bits then none
  else (inverse? publicExponent ((p - 1) * (q - 1))).map fun d => (p * q, d, [p, q])

/-- Draw pairs of primes until the numbers of a key come of one. -/
def drawNumbers? (bits : Nat) : (tries : Nat) → List UInt32 → Option (Nat × Nat × List Nat)
  | 0,         _     => none
  | tries + 1, words =>
    let (p, words) := drawPrime? (bits / 2) words
    let (q, words) := drawPrime? (bits - bits / 2) words
    match (do numbersOf? bits (← p) (← q)) with
    | some found => some found
    | none       => drawNumbers? bits tries words

/-- The attempts at a key. -/
abbrev attempts : Nat := 64

/-- How many random words the making of a key may take. -/
def wordsForKey (bits : Nat) : Nat := attempts * (wordsFor (bits / 2) + wordsFor (bits - bits / 2))

/-- Make a key of a given length from random words. -/
def makeKey (words : List UInt32) (bits : Nat) : Except RsaProblem RsaKey :=
  if bits < fewestBits then .error .tooFewPrimes
  else
    match drawNumbers? bits attempts words with
    | none                 => .error .tooFewPrimes
    | some (n, d, primes) => RsaKey.ofComponents n publicExponent d primes

end OperatorKit.Key
