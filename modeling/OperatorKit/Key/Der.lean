import OperatorKit.Key.Integer

/-!
# Distinguished encoding

Values as bytes with a tag and a length in front, as far as a private key needs
them: integers that are not negative, and bodies of any kind. A length below
128 is one byte; a longer one tells first how many bytes it has. An integer
whose highest bit is set has a zero byte in front, which keeps it positive.
-/

namespace OperatorKit.Key.Der

/-- The tags of the values that occur in a private key. -/
inductive Tag where
  | integer
  | octetString
  | null
  | objectIdentifier
  | sequence
  deriving DecidableEq, Repr

/-- The byte of a tag. -/
def Tag.byte : Tag → UInt8
  | .integer          => 0x02
  | .octetString      => 0x04
  | .null             => 0x05
  | .objectIdentifier => 0x06
  | .sequence         => 0x30

/-! ## Writing -/

/-- The bytes of a length. A length of 127 bytes and more is behind the byte 255
and a length of its own, so that every length has an encoding. -/
def encodeLength (n : Nat) : List UInt8 :=
  if _h : n < 128 then [UInt8.ofNat n]
  else if (toBytes n).length < 127 then UInt8.ofNat (128 + (toBytes n).length) :: toBytes n
  else 255 :: encodeLength (toBytes n).length ++ toBytes n
  termination_by n
  decreasing_by exact length_toBytes_lt (by omega)

/-- A value of its tag and its body. -/
def encode (tag : Tag) (body : List UInt8) : List UInt8 :=
  tag.byte :: encodeLength body.length ++ body

/-- The body of an integer. -/
def integerBody (n : Nat) : List UInt8 :=
  match toBytes n with
  | []      => []
  | b :: bs => if b ≥ 128 then 0 :: b :: bs else b :: bs

/-- An integer. -/
def encodeInteger (n : Nat) : List UInt8 := encode .integer (integerBody n)

/-! ## Reading -/

/-- Read a length of `k` bytes and give the bytes behind it. -/
def takeLength? (k : Nat) (bs : List UInt8) : Option (Nat × List UInt8) :=
  if bs.length < k then none
  else if toBytes (ofBytes (bs.take k)) = bs.take k then some (ofBytes (bs.take k), bs.drop k)
  else none

/-- Read a length and give the bytes behind it. -/
def decodeLength? : List UInt8 → Option (Nat × List UInt8)
  | []      => none
  | b :: bs =>
    if b < 128 then some (b.toNat, bs)
    else if b < 255 then
      match takeLength? (b.toNat - 128) bs with
      | some (n, rest) => if n < 128 then none else some (n, rest)
      | none           => none
    else
      match decodeLength? bs with
      | some (k, rest) => if k < 127 then none else takeLength? k rest
      | none           => none

/-- Read a value of a tag: its body and the bytes behind it. -/
def decode? (tag : Tag) : List UInt8 → Option (List UInt8 × List UInt8)
  | []      => none
  | b :: bs =>
    if b ≠ tag.byte then none
    else
      match decodeLength? bs with
      | none           => none
      | some (n, rest) => if rest.length < n then none else some (rest.take n, rest.drop n)

/-- Read an integer, which is written in the only way that there is. -/
def decodeInteger? (bs : List UInt8) : Option (Nat × List UInt8) :=
  match decode? .integer bs with
  | none              => none
  | some (body, rest) =>
    if integerBody (ofBytes body) = body then some (ofBytes body, rest) else none

/-- Read a number of integers, one behind the other, up to the end. -/
def decodeIntegers? : Nat → List UInt8 → Option (List Nat)
  | 0,     bs => if bs.isEmpty then some [] else none
  | k + 1, bs =>
    match decodeInteger? bs with
    | none           => none
    | some (n, rest) => (decodeIntegers? k rest).map (n :: ·)

end OperatorKit.Key.Der
