import OperatorKit.Key.Rsa
import OperatorKit.Disk.Refusal

/-!
# Problems of a key issue

What can prevent a key from being made, written down or stored.
-/

namespace OperatorKit.Key

/-- Why no key was issued. -/
inductive KeyProblem where
  /-- The disk refused to make or to read something. -/
  | disk (path : String) (refusal : Disk.Refusal)
  /-- The numbers make no key. -/
  | rsa (problem : RsaProblem)
  /-- The key has no PKCS#8 form: more than two factors, or no inverse. -/
  | notPkcs8
  /-- The key lacks a value that its JWK needs. -/
  | missingComponent (name : String)
  /-- The key has another number of factors than two. -/
  | primeCount (n : Nat)
  deriving DecidableEq, Repr

/-- The wording of a problem. -/
def KeyProblem.message : KeyProblem → String
  | .disk path refusal    => "I/O error on " ++ path ++ ": " ++ refusal.message
  | .rsa problem          => "RSA key generation failed: " ++ problem.message
  | .notPkcs8             => "PKCS#8 encoding failed: PKCS#8 cryptographic key data malformed"
  | .missingComponent c   => "Generated key is missing the " ++ c ++ " component"
  | .primeCount n         => "Expected a two-prime RSA key, got " ++ Decimal.text n ++ " primes"

end OperatorKit.Key
