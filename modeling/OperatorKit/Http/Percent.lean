import OperatorKit.Text.Bytes

/-!
# Percent encoding

Characters that may not stand somewhere in an address are written byte by byte, each
as a percent sign and two hexadecimal digits. Reading goes the other way and
leaves alone a percent sign without digits.
-/

namespace OperatorKit.Http.Percent

/-- The hexadecimal digit of a value below sixteen. -/
def hexDigit (d : Nat) : Char := Char.ofNat (if d < 10 then d + 0x30 else d - 10 + 0x41)

/-- The value of a hexadecimal digit. -/
def hexValue? (c : Char) : Option Nat :=
  if '0' ≤ c ∧ c ≤ '9' then some (c.toNat - 0x30)
  else if 'a' ≤ c ∧ c ≤ 'f' then some (c.toNat - 0x61 + 10)
  else if 'A' ≤ c ∧ c ≤ 'F' then some (c.toNat - 0x41 + 10)
  else none

theorem hexValue?_hexDigit {d : Nat} (h : d < 16) : hexValue? (hexDigit d) = some d := by
  have all : ∀ d < 16, hexValue? (hexDigit d) = some d := by decide
  exact all d h

/-- A byte as a percent sign and two hexadecimal digits. -/
def encodeByte (b : UInt8) : List Char := ['%', hexDigit (b.toNat / 16), hexDigit (b.toNat % 16)]

/-- Encode the characters that satisfy `p`. -/
def encode (p : Char → Bool) (cs : List Char) : List Char :=
  cs.flatMap fun c => if p c then (String.utf8EncodeChar c).flatMap encodeByte else [c]

/-- The byte of two hexadecimal digits. -/
def byteOf? (hi lo : Char) : Option UInt8 :=
  match hexValue? hi, hexValue? lo with
  | some h, some l => some (UInt8.ofNat (16 * h + l))
  | _,      _      => none

/-- The bytes of a text in which some are encoded. -/
def bytes : List Char → List UInt8
  | '%' :: hi :: lo :: cs =>
    match byteOf? hi lo with
    | some b => b :: bytes cs
    | none   => String.utf8EncodeChar '%' ++ bytes (hi :: lo :: cs)
  | c :: cs               => String.utf8EncodeChar c ++ bytes cs
  | []                    => []

/-- The text whose bytes these are, if it is one. -/
def decode? (cs : List Char) : Option (List Char) :=
  (Text.ofBytes? (bytes cs)).map String.toList

end OperatorKit.Http.Percent
