import OperatorKit.Fault
import OperatorKit.Http.Message

/-!
# Responses

Reading the head of a response: a line with the status, then lines with fields
up to an empty one. A line ends with a line feed, and a carriage return before
it does not count. The body that follows does not change how an exchange ended,
so it is not read; but the fields that announce it are looked at.

A line without a colon is a field, too, and has a name alone. It does no harm
until its value is asked for.
-/

namespace OperatorKit.Http

/-- A field in the head of a response. -/
structure Field where
  /-- The name in small letters. -/
  name : String
  /-- What stands behind the colon, if there is one. -/
  content : Option (List UInt8)
  deriving DecidableEq, Repr

/-- What the head of a response says. -/
structure Response where
  /-- The protocol with its version. -/
  version : String
  status : Nat
  fields : List Field
  deriving DecidableEq, Repr

namespace Response

/-! ## Reading -/

/-- The longest line of a head, in bytes with the line feed. -/
abbrev lineLimit : Nat := 102400

/-- The most fields of a head. -/
abbrev fieldLimit : Nat := 100

/-- The first line of bytes, without its line feed, and what stands behind it. -/
def cutLine? (bytes : List UInt8) : Option (List UInt8 × List UInt8) :=
  match bytes.dropWhile (· != 10) with
  | []        => none
  | _ :: rest => some (bytes.takeWhile (· != 10), rest)

theorem length_lt_of_cutLine? {bytes line rest : List UInt8}
    (h : cutLine? bytes = some (line, rest)) : rest.length < bytes.length := by
  unfold cutLine? at h
  split at h
  · cases h
  · rename_i c r hr
    cases h
    have := (List.dropWhile_sublist (l := bytes) (· != 10)).length_le
    rw [hr, List.length_cons] at this
    omega

/-- A line without the carriage return at its end. -/
def dropReturn (line : List UInt8) : List UInt8 :=
  if line.getLast? == some 13 then line.dropLast else line

/-- The characters of bytes that are all ASCII. -/
def ascii? (line : List UInt8) : Option (List Char) :=
  if line.all (· < 128) then some (line.map fun b => Char.ofNat b.toNat) else none

/-- The name of the protocol with its version: two digits and one character
between them. -/
def isVersion : List Char → Bool
  | ['H', 'T', 'T', 'P', '/', major, _, minor] => major.isDigit && minor.isDigit
  | _                                          => false

/-- Read the line of the status: a version, a blank, and the status of three
characters. Any words may follow behind another blank. -/
def statusOf? (line : List UInt8) : Option (String × Nat) :=
  match ascii? line with
  | none    => none
  | some cs =>
    let version := cs.takeWhile (· != ' ')
    let status := ((cs.dropWhile (· != ' ')).drop 1).takeWhile (· != ' ')
    if isVersion version && status.length == 3 then
      (Decimal.read (2 ^ 16) status).toOption.map fun n => (String.ofList version, n)
    else none

/-- Characters of a field's name. -/
def isNameChar (c : Char) : Bool := c.isAlphanum || "!#$%&'*+-.^_`|~".toList.contains c

/-- Read a field. Its name is ASCII. -/
def fieldOf? (line : List UInt8) : Option Field :=
  let name := (line.takeWhile (· != 58)).map fun b => Char.ofNat b.toNat
  if name.all isNameChar then
    some ⟨String.ofList (name.map Char.toLower), (line.dropWhile (· != 58)).tail?⟩
  else none

/-- Read fields up to an empty line, behind those in `fields`. A line that is no
field is passed over. -/
def readFields (fields : List Field) (bytes : List UInt8) : Except Loss (List Field) :=
  match _h : cutLine? bytes with
  | none              => .error .cutOff
  | some (line, rest) =>
    if lineLimit ≤ line.length then .error .malformed
    else if (dropReturn line).isEmpty then .ok fields
    else
      match fieldOf? (dropReturn line) with
      | none   => readFields fields rest
      | some f =>
        if fieldLimit ≤ fields.length then .error .malformed else readFields (fields ++ [f]) rest
  termination_by bytes.length
  decreasing_by all_goals exact length_lt_of_cutLine? _h

/-- Read a response. -/
def ofBytes (bytes : List UInt8) : Except Loss Response :=
  match cutLine? bytes with
  | none               => .error .cutOff
  | some (first, rest) =>
    if lineLimit ≤ first.length then .error .malformed
    else
      match statusOf? (dropReturn first) with
      | none                   => .error .malformed
      | some (version, status) => (readFields [] rest).map fun fields => { version, status, fields }

/-! ## Looking at fields -/

/-- Characters of a field's value: the visible ones of ASCII, blanks and tabs. -/
def isValueChar (c : Char) : Bool := c == '\t' || (0x20 ≤ c.toNat && c.toNat ≤ 0x7E)

/-- Read the value of a field, without the blanks around it. -/
def valueOf? (bytes : List UInt8) : Option String :=
  ((Text.ofBytes? bytes).map Text.trim).filter (·.toList.all isValueChar)

/-- The value of the first field with a name, if it can be read. It begins one
behind the end of the name, so there has to be a colon. -/
def value? (r : Response) (name : String) : Except Fault (Option String) :=
  match r.fields.find? (·.name == name) with
  | none   => .ok none
  | some f => match f.content with
    | none       => .error (.startOutOfBounds f.name.length (f.name.length + 1))
    | some bytes => .ok (valueOf? bytes)

/-- The status says that no body follows. -/
def isBodiless (r : Response) : Bool := r.status == 204 || r.status == 304

/-- The body comes in chunks. The first version of the protocol has none. -/
def isChunked (r : Response) : Except Fault Bool :=
  (r.value? "transfer-encoding").map fun v => r.version != "HTTP/1.0" && v.any (! ·.isEmpty)

/-- Look at what the fields say about the connection and the body. Of this only a
fault matters. A body in chunks needs no length. -/
def announcement (r : Response) : Except Fault Unit := do
  let _ ← r.value? "content-encoding"
  let _ ← r.value? "connection"
  unless r.isBodiless do
    unless ← r.isChunked do
      let _ ← r.value? "content-length"

/-- The status says that the resource is somewhere else. -/
def isRedirection (r : Response) : Bool := 300 ≤ r.status && r.status < 399

end Response
end OperatorKit.Http
