import OperatorKit.Json.Value

/-!
# Reading values

Reading a JSON text into a value, and passing over a value that nobody asks
for. A value is nested at most 127 deep; what is passed over may be nested as
deep as it likes. Every step of a reader uses up one unit of a fuel that the
length of the text bounds.
-/

namespace OperatorKit.Json

/-- How deep arrays and objects may be nested in a value. -/
abbrev depthLimit : Nat := 127

/-- Read a colon behind a member's name. -/
def readColon (cs : List Char) : Except Problem (List Char) :=
  match skipBlanks cs with
  | ':' :: cs => .ok cs
  | []        => .error .unfinished
  | _         => .error .malformed

/-- Read a member's name and the colon behind it. -/
def readName : Reader String := fun cs =>
  match skipBlanks cs with
  | '"' :: cs =>
    match readString cs with
    | .error e      => .error e
    | .ok (m, rest) =>
      match readColon rest with
      | .error e => .error e
      | .ok rest => .ok (m, rest)
  | []        => .error .unfinished
  | _         => .error .malformed

mutual

/-- Read a value. Arrays and objects in it are nested at most `depth` deep. -/
def readValue : (fuel depth : Nat) → Reader Value
  | 0,        _,     _  => .error .malformed
  | fuel + 1, depth, cs =>
    match skipBlanks cs with
    | []              => .error .unfinished
    | 'n' :: cs       => (readWord "ull".toList cs).map fun cs => (.null, cs)
    | 't' :: cs       => (readWord "rue".toList cs).map fun cs => (.bool true, cs)
    | 'f' :: cs       => (readWord "alse".toList cs).map fun cs => (.bool false, cs)
    | '"' :: cs       => (readString cs).map fun (s, cs) => (.string s, cs)
    | '[' :: cs       =>
      match depth with
      | 0         => .error .malformed
      | depth + 1 =>
        match skipBlanks cs with
        | ']' :: cs => .ok (.array [], cs)
        | cs        => (readItems fuel depth cs).map fun (vs, cs) => (.array vs, cs)
    | '\x7b' :: cs    =>
      match depth with
      | 0         => .error .malformed
      | depth + 1 =>
        match skipBlanks cs with
        | '\x7d' :: cs => .ok (.object [], cs)
        | cs           => (readMembers fuel depth [] cs).map fun (ms, cs) => (.object ms, cs)
    | c :: cs         =>
      if c == '-' || c.isDigit then (readNumber (c :: cs)).map fun (n, cs) => (.number n, cs)
      else .error .malformed

/-- Read the items of an array that has at least one, up to its closing bracket. -/
def readItems : (fuel depth : Nat) → Reader (List Value)
  | 0,        _,     _  => .error .malformed
  | fuel + 1, depth, cs =>
    match readValue fuel depth cs with
    | .error e     => .error e
    | .ok (v, cs)  =>
      match skipBlanks cs with
      | []        => .error .unfinished
      | ']' :: cs => .ok ([v], cs)
      | ',' :: cs => (readItems fuel depth cs).map fun (vs, cs) => (v :: vs, cs)
      | _         => .error .malformed

/-- Read the members of an object that has at least one, up to its closing
brace, into the members read before. -/
def readMembers : (fuel depth : Nat) → List (String × Value) → Reader (List (String × Value))
  | 0,        _,     _,  _  => .error .malformed
  | fuel + 1, depth, ms, cs =>
    match readName cs with
    | .error e    => .error e
    | .ok (m, cs) =>
      match readValue fuel depth cs with
      | .error e    => .error e
      | .ok (v, cs) =>
        match skipBlanks cs with
        | []           => .error .unfinished
        | '\x7d' :: cs => .ok (insertMember m v ms, cs)
        | ',' :: cs    => readMembers fuel depth (insertMember m v ms) cs
        | _            => .error .malformed

end

mutual

/-- Pass over a value. -/
def skipValue : (fuel : Nat) → List Char → Except Problem (List Char)
  | 0,        _  => .error .malformed
  | fuel + 1, cs =>
    match skipBlanks cs with
    | []           => .error .unfinished
    | 'n' :: cs    => readWord "ull".toList cs
    | 't' :: cs    => readWord "rue".toList cs
    | 'f' :: cs    => readWord "alse".toList cs
    | '"' :: cs    => skipQuoted cs
    | '[' :: cs    =>
      match skipBlanks cs with
      | ']' :: cs => .ok cs
      | []        => .error .unfinished
      | cs        => skipItems fuel cs
    | '\x7b' :: cs =>
      match skipBlanks cs with
      | '\x7d' :: cs => .ok cs
      | []           => .error .unfinished
      | cs           => skipMembers fuel cs
    | c :: cs      => if c == '-' || c.isDigit then skipNumber (c :: cs) else .error .malformed

/-- Pass over the items of an array up to its closing bracket. -/
def skipItems : (fuel : Nat) → List Char → Except Problem (List Char)
  | 0,        _  => .error .malformed
  | fuel + 1, cs =>
    match skipValue fuel cs with
    | .error e => .error e
    | .ok cs   =>
      match skipBlanks cs with
      | []        => .error .unfinished
      | ']' :: cs => .ok cs
      | ',' :: cs => skipItems fuel cs
      | _         => .error .malformed

/-- Pass over the members of an object up to its closing brace. -/
def skipMembers : (fuel : Nat) → List Char → Except Problem (List Char)
  | 0,        _  => .error .malformed
  | fuel + 1, cs =>
    match skipBlanks cs with
    | []        => .error .unfinished
    | '"' :: cs =>
      match skipQuoted cs with
      | .error e => .error e
      | .ok cs   =>
        match readColon cs with
        | .error e => .error e
        | .ok cs   =>
          match skipValue fuel cs with
          | .error e => .error e
          | .ok cs   =>
            match skipBlanks cs with
            | []           => .error .unfinished
            | '\x7d' :: cs => .ok cs
            | ',' :: cs    => skipMembers fuel cs
            | _            => .error .malformed
    | _         => .error .malformed

end

/-- Nothing but blanks may follow a text's value. -/
def readEnd (cs : List Char) : Except Problem Unit :=
  if (skipBlanks cs).isEmpty then .ok () else .error .malformed

/-- The fuel for a text: each step reads a character, or ends behind one that does. -/
def fuelFor (cs : List Char) : Nat := 2 * cs.length + 2

/-- Read a whole text into a value. -/
def Value.ofText (s : String) : Except Problem Value :=
  let cs := s.toList
  match readValue (fuelFor cs) depthLimit cs with
  | .error e      => .error e
  | .ok (v, rest) => (readEnd rest).map fun _ => v

end OperatorKit.Json
