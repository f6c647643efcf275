import OperatorKit.Json.Problem

/-!
# Quoted strings

JSON strings. A writer escapes the quote, the backslash and the control
characters of the ASCII range, and nothing else. A reader knows every escape; a
character beyond the basic plane is written as two escapes, a high surrogate
and a low one, which do not stand alone.
-/

namespace OperatorKit.Json

/-- A hexadecimal digit of a value below sixteen. -/
def hexChar (d : Nat) : Char :=
  if d < 10 then Char.ofNat (d + '0'.toNat) else Char.ofNat (d - 10 + 'a'.toNat)

/-- The value of a hexadecimal digit. -/
def hexValue? (c : Char) : Option Nat :=
  if c.isDigit then some (c.toNat - '0'.toNat)
  else if 'a' ≤ c ∧ c ≤ 'f' then some (c.toNat - 'a'.toNat + 10)
  else if 'A' ≤ c ∧ c ≤ 'F' then some (c.toNat - 'A'.toNat + 10)
  else none

/-! ## Writing -/

/-- A character inside of quotes. -/
def escape (c : Char) : List Char :=
  if c == '"' then ['\\', '"']
  else if c == '\\' then ['\\', '\\']
  else if c == '\x08' then ['\\', 'b']
  else if c == '\x0c' then ['\\', 'f']
  else if c == '\n' then ['\\', 'n']
  else if c == '\r' then ['\\', 'r']
  else if c == '\t' then ['\\', 't']
  else if c.toNat < 0x20 then
    ['\\', 'u', '0', '0', hexChar (c.toNat / 16), hexChar (c.toNat % 16)]
  else [c]

/-- A string in quotes. -/
def quote (s : String) : List Char := '"' :: s.toList.flatMap escape ++ ['"']

/-! ## Reading -/

/-- The character of a one letter escape. -/
def simpleEscape? : Char → Option Char
  | '"'  => some '"'
  | '\\' => some '\\'
  | '/'  => some '/'
  | 'b'  => some '\x08'
  | 'f'  => some '\x0c'
  | 'n'  => some '\n'
  | 'r'  => some '\r'
  | 't'  => some '\t'
  | _    => none

/-- The four digits behind `\u`. A text with less than four bytes left is cut
off, whatever these bytes are. -/
def readHex (cs : List Char) : Except Problem Nat :=
  if (String.ofList (cs.take 4)).utf8ByteSize < 4 then .error .unfinished
  else
    match cs.take 4 |>.mapM hexValue? with
    | some [a, b, c, d] => .ok (((a * 16 + b) * 16 + c) * 16 + d)
    | _                 => .error .malformed

/-- Read what an escape stands for, from the character behind the backslash on,
together with the number of characters that the escape has. A surrogate has to
be the high one of a pair. -/
def readEscape (cs : List Char) : Except Problem (Char × Nat) :=
  match cs with
  | [] => .error .unfinished
  | 'u' :: rest =>
    match readHex rest with
    | .error e => .error e
    | .ok high =>
      if 0xDC00 ≤ high ∧ high ≤ 0xDFFF then .error .malformed
      else if high < 0xD800 ∨ 0xDBFF < high then .ok (Char.ofNat high, 5)
      else
        match rest.drop 4 with
        | []                 => .error .unfinished
        | ['\\']             => .error .unfinished
        | '\\' :: 'u' :: more =>
          match readHex more with
          | .error e => .error e
          | .ok low  =>
            if low < 0xDC00 ∨ 0xDFFF < low then .error .malformed
            else .ok (Char.ofNat (0x10000 + (high - 0xD800) * 0x400 + (low - 0xDC00)), 11)
        | _                  => .error .malformed
  | c :: _ =>
    match simpleEscape? c with
    | some d => .ok (d, 1)
    | none   => .error .malformed

/-- Read the rest of a string behind its opening quote, up to the closing one.
The first argument counts the characters that belong to an escape which was
already read. -/
def readQuoted : Nat → Reader (List Char)
  | _,        []      => .error .unfinished
  | skip + 1, _ :: cs => readQuoted skip cs
  | 0,        c :: cs =>
    if c == '"' then .ok ([], cs)
    else if c == '\\' then
      match readEscape cs with
      | .error e     => .error e
      | .ok (d, len) =>
        match readQuoted len cs with
        | .error e      => .error e
        | .ok (s, rest) => .ok (d :: s, rest)
    else if c.toNat < 0x20 then .error .malformed
    else
      match readQuoted 0 cs with
      | .error e      => .error e
      | .ok (s, rest) => .ok (c :: s, rest)

/-- Read a string behind its opening quote. -/
def readString : Reader String := fun cs =>
  match readQuoted 0 cs with
  | .error e      => .error e
  | .ok (s, rest) => .ok (String.ofList s, rest)

/-- Pass over the rest of a string behind its opening quote. Surrogates may stand
alone here, since no character is made of them. -/
def skipQuoted : List Char → Except Problem (List Char)
  | []               => .error .unfinished
  | '"' :: cs        => .ok cs
  | ['\\']           => .error .unfinished
  | '\\' :: 'u' :: cs =>
    match readHex cs, cs with
    | .error e, _                      => .error e
    | .ok _,    _ :: _ :: _ :: _ :: cs => skipQuoted cs
    | .ok _,    _                      => .error .unfinished
  | '\\' :: c :: cs  => if (simpleEscape? c).isSome then skipQuoted cs else .error .malformed
  | c :: cs          => if c.toNat < 0x20 then .error .malformed else skipQuoted cs

end OperatorKit.Json
