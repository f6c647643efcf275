import OperatorKit.Json.Quoted
import OperatorKit.Key.Base64
import OperatorKit.Key.Integer
import OperatorKit.Key.Problem

/-!
# JSON web keys

An RSA key as a JSON object. The public form has the modulus and the public
exponent; the private form has all other numbers too. A number is written in
base64 for URLs over its bytes, without leading zeros.
-/

namespace OperatorKit.Key

/-- The text of a number in a JWK. -/
def encodeNumber (n : Nat) : String := String.ofList (Alphabet.url.encode (toBytes n))

/-- The number that a text in a JWK stands for. -/
def decodeNumber? (s : String) : Option Nat := (Alphabet.url.decode? s.toList).map ofBytes

/-- The type of every key. -/
def keyType : String := "RSA"

/-- What every key is for: signatures. -/
def keyPurpose : String := "sig"

/-- A JSON web key. -/
structure Jwk where
  kty : String
  kid : String
  purpose : String
  alg : String
  n : String
  e : String
  d : Option String
  p : Option String
  q : Option String
  dp : Option String
  dq : Option String
  qi : Option String
  deriving DecidableEq, Repr

namespace Jwk

/-! ## Making -/

/-- The public form of a key. -/
def ofPublic (k : RsaKey) (kid purpose alg : String) : Jwk :=
  { kty := keyType, kid, purpose, alg, n := encodeNumber k.n, e := encodeNumber k.e,
    d := none, p := none, q := none, dp := none, dq := none, qi := none }

/-- The private form of a key. -/
def ofPrivate (k : RsaKey) (kid purpose alg : String) : Except KeyProblem Jwk :=
  match k.primes with
  | [p, q] =>
    match k.crt with
    | none     => .error (.missingComponent "dp")
    | some crt =>
      .ok { ofPublic k kid purpose alg with
        d := some (encodeNumber k.d)
        p := some (encodeNumber p)
        q := some (encodeNumber q)
        dp := some (encodeNumber crt.dp)
        dq := some (encodeNumber crt.dq)
        qi := some (encodeNumber crt.qi) }
  | ps => .error (.primeCount ps.length)

/-- A key is private if it has a private exponent. -/
def isPrivate (j : Jwk) : Bool := j.d.isSome

/-! ## Members -/

/-- The members of a JWK. -/
inductive Member where
  | kty | kid | purpose | alg | n | e | d | p | q | dp | dq | qi
  deriving DecidableEq, Repr

/-- The name of a member. -/
def Member.name : Member → String
  | .kty     => "kty"
  | .kid     => "kid"
  | .purpose => "use"
  | .alg     => "alg"
  | .n       => "n"
  | .e       => "e"
  | .d       => "d"
  | .p       => "p"
  | .q       => "q"
  | .dp      => "dp"
  | .dq      => "dq"
  | .qi      => "qi"

/-- The members that every JWK has. -/
def Member.required : List Member := [.kty, .kid, .purpose, .alg, .n, .e]

/-- The members that only a private JWK has. -/
def Member.optional : List Member := [.d, .p, .q, .dp, .dq, .qi]

/-- All members, in the order in which they are written. -/
def Member.all : List Member := required ++ optional

/-- Whether every JWK has a member. -/
def Member.isRequired (m : Member) : Bool := required.contains m

/-- The member of a name. -/
def Member.ofName? (s : String) : Option Member := all.find? (·.name == s)

/-- The value of a member. -/
def get? (j : Jwk) : Member → Option String
  | .kty     => some j.kty
  | .kid     => some j.kid
  | .purpose => some j.purpose
  | .alg     => some j.alg
  | .n       => some j.n
  | .e       => some j.e
  | .d       => j.d
  | .p       => j.p
  | .q       => j.q
  | .dp      => j.dp
  | .dq      => j.dq
  | .qi      => j.qi

/-- The members that a JWK has, with their values, in the order in which they
are written. -/
def members (j : Jwk) : List (Member × String) :=
  Member.all.filterMap fun m => (j.get? m).map (m, ·)

/-! ## Text -/

/-- Members as text, each but the first with a comma in front. -/
def renderMembers : (first : Bool) → List (Member × String) → List Char
  | _,     []             => []
  | first, (m, v) :: rest =>
    (if first then [] else [',']) ++ Json.quote m.name ++ ':' :: Json.quote v ++
      renderMembers false rest

/-- The compact text of a JWK. -/
def render (j : Jwk) : List Char := '\x7b' :: renderMembers true j.members ++ ['\x7d']

/-- The compact text of a JWK, as a string. -/
def text (j : Jwk) : String := String.ofList j.render

end Jwk
end OperatorKit.Key
