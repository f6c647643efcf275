import OperatorKit.Json.Reader
import OperatorKit.Key.Jwk
import OperatorKit.Text.Quoted

/-!
# Reading JSON web keys

A JWK is read from an object with its members in any order, or from an array
with their values in the order in which they are written. Every known member
occurs at most once; members of other names are passed over. A member that is
not required may be null. The first problem in reading order counts, and that a
member is missing is only known at the end of the object.
-/

namespace OperatorKit.Key.Jwk

open OperatorKit.Json

/-! ## Wrong kinds of values -/

/-- What a message calls a number. -/
def describeNumber : Number → String
  | .integer n => "integer `" ++ String.ofList (integerText n) ++ "`"
  | .float x   => "floating point `" ++ floatLayout.write x ++ "`"

/-- A value that is not what was expected. -/
def wrongKind {α : Type} (found expected : String) : Except Problem α :=
  .error (.unexpected ("invalid type: " ++ found ++ ", expected " ++ expected))

/-- Tell what stands at the front of a text instead of the expected value. Words,
numbers and strings are read first, and may be faulty themselves. -/
def refuseValue {α : Type} (expected : String) (cs : List Char) : Except Problem α :=
  match cs with
  | []           => .error .unfinished
  | 'n' :: cs    => (readWord "ull".toList cs).bind fun _ => wrongKind "null" expected
  | 't' :: cs    => (readWord "rue".toList cs).bind fun _ => wrongKind "boolean `true`" expected
  | 'f' :: cs    => (readWord "alse".toList cs).bind fun _ => wrongKind "boolean `false`" expected
  | '"' :: cs    =>
    (readString cs).bind fun (s, _) => wrongKind ("string " ++ Text.quoted s) expected
  | '[' :: _     => wrongKind "sequence" expected
  | '\x7b' :: _  => wrongKind "map" expected
  | c :: cs      =>
    if c == '-' || c.isDigit then
      (readNumber (c :: cs)).bind fun (n, _) => wrongKind (describeNumber n) expected
    else .error .malformed

/-! ## Values of members -/

/-- Read a string. -/
def readText : Reader String := fun cs =>
  match skipBlanks cs with
  | '"' :: cs => readString cs
  | cs        => refuseValue "a string" cs

/-- Read the value of a member. Only a member that is not required may be null. -/
def readMemberValue (m : Member) : Reader (Option String) := fun cs =>
  match m.isRequired, skipBlanks cs with
  | false, 'n' :: cs => (readWord "ull".toList cs).map fun cs => (none, cs)
  | _,     cs        => (readText cs).map fun (s, cs) => (some s, cs)

/-! ## Drafts -/

/-- The members read so far. -/
abbrev Draft : Type := List (Member × Option String)

/-- Whether a member was read. -/
def Draft.has (d : Draft) (m : Member) : Bool := d.any (·.1 == m)

/-- The value of a member that was read and is not null. -/
def Draft.value? (d : Draft) (m : Member) : Option String :=
  (d.find? (·.1 == m)).bind (·.2)

/-- The value of a member, or the complaint that it is missing. -/
def Draft.need (d : Draft) (m : Member) : Except Problem String :=
  match d.value? m with
  | some s => .ok s
  | none   => .error (.unexpected ("missing field `" ++ m.name ++ "`"))

/-- The JWK of a draft. -/
def Draft.toJwk (d : Draft) : Except Problem Jwk := do
  let kty ← d.need .kty
  let kid ← d.need .kid
  let purpose ← d.need .purpose
  let alg ← d.need .alg
  let n ← d.need .n
  let e ← d.need .e
  return { kty, kid, purpose, alg, n, e, d := d.value? .d, p := d.value? .p, q := d.value? .q,
           dp := d.value? .dp, dq := d.value? .dq, qi := d.value? .qi }

/-! ## Objects -/

/-- Read one member into a draft, or pass over it. -/
def readMember (draft : Draft) : Reader Draft := fun cs =>
  match cs with
  | '"' :: cs =>
    match readString cs with
    | .error e       => .error e
    | .ok (name, cs) =>
      match Member.ofName? name with
      | none =>
        match readColon cs with
        | .error e => .error e
        | .ok cs   => (skipValue (fuelFor cs) cs).map fun cs => (draft, cs)
      | some m =>
        if draft.has m then .error (.unexpected ("duplicate field `" ++ m.name ++ "`"))
        else
          match readColon cs with
          | .error e => .error e
          | .ok cs   => (readMemberValue m cs).map fun (v, cs) => (draft ++ [(m, v)], cs)
  | [] => .error .unfinished
  | _  => .error .malformed

/-- Read the members of an object that has at least one, up to its closing
brace. Each of them uses up one unit of fuel. -/
def readMembers : (fuel : Nat) → Draft → Reader Draft
  | 0,        _,     _  => .error .malformed
  | fuel + 1, draft, cs =>
    match readMember draft cs with
    | .error e        => .error e
    | .ok (draft, cs) =>
      match skipBlanks cs with
      | []           => .error .unfinished
      | '\x7d' :: cs => .ok (draft, cs)
      | ',' :: cs    => readMembers fuel draft (skipBlanks cs)
      | _            => .error .malformed

/-- Read an object behind its opening brace. -/
def readObject : Reader Draft := fun cs =>
  match skipBlanks cs with
  | '\x7d' :: cs => .ok ([], cs)
  | []           => .error .unfinished
  | cs           => readMembers (cs.length + 1) [] cs

/-! ## Arrays -/

/-- The complaint about an array that ends before all required members. -/
def shortArray (length : Nat) : Problem :=
  .unexpected ("invalid length " ++ Decimal.text length ++
    ", expected struct Jwk with " ++ Decimal.text Member.all.length ++ " elements")

/-- Find the next item of an array, if there is one. -/
def nextItem (first : Bool) (cs : List Char) : Except Problem (Option (List Char)) :=
  match skipBlanks cs with
  | []         => .error .unfinished
  | ']' :: _   => .ok none
  | c :: cs    =>
    if first then .ok (some (c :: cs))
    else if c == ',' then
      match skipBlanks cs with
      | []       => .error .unfinished
      | ']' :: _ => .error .malformed
      | cs       => .ok (some cs)
    else .error .malformed

/-- Read the values of members from an array. What is left behind begins with
the closing bracket. -/
def readItems (first : Bool) (draft : Draft) : List Member → Reader Draft
  | [],      cs => .ok (draft, cs)
  | m :: ms, cs =>
    match nextItem first cs with
    | .error e      => .error e
    | .ok none      => if m.isRequired then .error (shortArray draft.length) else .ok (draft, cs)
    | .ok (some cs) =>
      match readMemberValue m cs with
      | .error e    => .error e
      | .ok (v, cs) => readItems false (draft ++ [(m, v)]) ms cs

/-- Read an array behind its opening bracket. -/
def readArray : Reader Draft := fun cs =>
  match readItems true [] Member.all cs with
  | .error e        => .error e
  | .ok (draft, cs) =>
    match skipBlanks cs with
    | ']' :: cs => .ok (draft, cs)
    | []        => .error .unfinished
    | _         => .error .malformed

/-! ## Texts -/

/-- Read a JWK from the front of a text. -/
def readJwk : Reader Jwk := fun cs =>
  match skipBlanks cs with
  | '\x7b' :: cs =>
    match readObject cs with
    | .error e        => .error e
    | .ok (draft, cs) => draft.toJwk.map fun j => (j, cs)
  | '[' :: cs =>
    match readArray cs with
    | .error e        => .error e
    | .ok (draft, cs) => draft.toJwk.map fun j => (j, cs)
  | cs => refuseValue "struct Jwk" cs

/-- Read a whole text as a JWK. -/
def ofText (s : String) : Except Problem Jwk :=
  match readJwk s.toList with
  | .error e      => .error e
  | .ok (j, rest) => (readEnd rest).map fun _ => j

end OperatorKit.Key.Jwk
