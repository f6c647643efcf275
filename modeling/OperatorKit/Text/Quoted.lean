import OperatorKit.Text.Unprintable

/-!
# Quoted text in diagnostics

Text in double quotes, for messages to the operator. Quotes, backslashes and
the usual control characters have short escapes; every other unprintable
character is written by its code point.
-/

namespace OperatorKit.Text

/-- A code point in lower case hexadecimal digits. -/
def hexDigits (n : Nat) : List Char := Nat.toDigits 16 n

/-- A character inside of a quoted text. -/
def escapeQuoted (c : Char) : List Char :=
  if c == '"' then ['\\', '"']
  else if c == '\\' then ['\\', '\\']
  else if c == '\n' then ['\\', 'n']
  else if c == '\r' then ['\\', 'r']
  else if c == '\t' then ['\\', 't']
  else if c == '\x00' then ['\\', '0']
  else if isUnprintable c then ['\\', 'u', '\x7b'] ++ hexDigits c.toNat ++ ['\x7d']
  else [c]

/-- A text in quotes. -/
def quoted (s : String) : String :=
  String.ofList ('"' :: s.toList.flatMap escapeQuoted ++ ['"'])

end OperatorKit.Text
