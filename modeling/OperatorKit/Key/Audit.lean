import OperatorKit.Key.Issue
import OperatorKit.Key.Jwk.Reader

/-!
# Looking at issued keys

What can be read back from the files of an issue: the forms of a key, the length
of its numbers, and whether the three files are about the same key.
-/

namespace OperatorKit.Key

/-- What a file holds. -/
inductive FileKind where
  | pem
  | privateJwk
  | publicJwk
  | other
  deriving DecidableEq, Repr

/-- Tell what a text is. -/
def FileKind.ofText (s : String) : FileKind :=
  if (Pem.decode? s.toList).isSome then .pem
  else
    match Jwk.ofText s with
    | .ok j    => if j.isPrivate then .privateJwk else .publicJwk
    | .error _ => .other

/-- The names of a JWK's members, in the order in which a text has them. -/
def memberNames (s : String) : List String :=
  match Json.skipBlanks s.toList with
  | '\x7b' :: cs =>
    match Jwk.readObject cs with
    | .ok (draft, _) => draft.map (·.1.name)
    | .error _       => []
  | _ => []

/-- The key whose private form a text holds. -/
def RsaKey.ofPem? (s : String) : Option RsaKey := do
  let k ← PrivateNumbers.ofBytes? (← Pem.decode? s.toList)
  some ⟨k.n, k.e, k.d, [k.p, k.q], Crt.of? k.d k.p k.q⟩

/-- Whether every line between the delimiters is full, except for the last one. -/
def Pem.isWrapped (s : String) : Bool :=
  let ls := ((Pem.linesOf s.toList).filter (!·.isEmpty)).drop 1 |>.dropLast
  ls.dropLast.all (·.length == Pem.lineLength) &&
    (ls.getLast?.map fun l => decide (l.length ≤ Pem.lineLength)).getD true

/-- What the files of an issue show. -/
structure Audit where
  privateJwk : Jwk
  publicJwk : Jwk
  key : RsaKey
  /-- The names of the members of both JWKs, in order. -/
  names : List String × List String
  /-- Whether each JWK is the one that the key in the PEM file makes. -/
  privateMatches : Bool
  publicMatches : Bool
  /-- The first and the last line of the PEM file, and how it is laid out. -/
  delimiters : String × String
  wrapped : Bool
  endsWithNewline : Bool

/-- Look at the three texts of an issue. -/
def Audit.of? (texts : KeyTexts) : Option Audit := do
  let privateJwk ← (Jwk.ofText texts.privateJwk).toOption
  let publicJwk ← (Jwk.ofText texts.publicJwk).toOption
  let key ← RsaKey.ofPem? texts.privatePem
  let rebuilt := Jwk.ofPrivate key privateJwk.kid privateJwk.purpose privateJwk.alg
  let ls := (Pem.linesOf texts.privatePem.toList).filter (!·.isEmpty)
  return {
    privateJwk, publicJwk, key
    names := (memberNames texts.privateJwk, memberNames texts.publicJwk)
    privateMatches := rebuilt.toOption == some privateJwk
    publicMatches := Jwk.ofPublic key publicJwk.kid publicJwk.purpose publicJwk.alg == publicJwk
    delimiters := (String.ofList (ls.headD []), String.ofList (ls.getLastD []))
    wrapped := Pem.isWrapped texts.privatePem
    endsWithNewline := texts.privatePem.toList.getLast? == some '\n' }

end OperatorKit.Key
