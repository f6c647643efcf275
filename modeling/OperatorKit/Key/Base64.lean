/-!
# Base64

Bytes as text, three of them in four letters. There are two alphabets: the
standard one, which fills up the last group with padding, and one for URLs,
which does not. A reader accepts what the writer makes and nothing else: it
refuses stray padding, and a last letter with bits that belong to no byte.
-/

namespace OperatorKit.Key

/-- The letters of the last two values, and whether the last group is padded. -/
structure Alphabet where
  letter62 : Char
  letter63 : Char
  padded : Bool

namespace Alphabet

/-- The standard alphabet. -/
def standard : Alphabet := ⟨'+', '/', true⟩

/-- The alphabet for URLs and file names. -/
def url : Alphabet := ⟨'-', '_', false⟩

/-- The letter of six bits. -/
def letter (a : Alphabet) (v : Nat) : Char :=
  if v < 26 then Char.ofNat ('A'.toNat + v)
  else if v < 52 then Char.ofNat ('a'.toNat + (v - 26))
  else if v < 62 then Char.ofNat ('0'.toNat + (v - 52))
  else if v = 62 then a.letter62
  else a.letter63

/-- The six bits of a letter. -/
def value? (a : Alphabet) (c : Char) : Option Nat :=
  if 'A' ≤ c ∧ c ≤ 'Z' then some (c.toNat - 'A'.toNat)
  else if 'a' ≤ c ∧ c ≤ 'z' then some (c.toNat - 'a'.toNat + 26)
  else if '0' ≤ c ∧ c ≤ '9' then some (c.toNat - '0'.toNat + 52)
  else if c = a.letter62 then some 62
  else if c = a.letter63 then some 63
  else none

/-- The padding behind a last group that lacks `n` letters. -/
def padding (a : Alphabet) (n : Nat) : List Char := if a.padded then List.replicate n '=' else []

/-- Write bytes as text. -/
def encode (a : Alphabet) : List UInt8 → List Char
  | x :: y :: z :: rest =>
    let v := x.toNat * 65536 + y.toNat * 256 + z.toNat
    a.letter (v / 262144) :: a.letter (v / 4096 % 64) :: a.letter (v / 64 % 64) ::
      a.letter (v % 64) :: encode a rest
  | [x, y] =>
    let v := x.toNat * 65536 + y.toNat * 256
    a.letter (v / 262144) :: a.letter (v / 4096 % 64) :: a.letter (v / 64 % 64) :: a.padding 1
  | [x] =>
    let v := x.toNat * 65536
    a.letter (v / 262144) :: a.letter (v / 4096 % 64) :: a.padding 2
  | [] => []

/-- Read the last group, of which two or three letters are there. -/
def decodeLast? (a : Alphabet) (cs : List Char) : Option (List UInt8) :=
  match cs with
  | [] => some []
  | [c, d] => do
    let v := (← a.value? c) * 64 + (← a.value? d)
    if v % 16 = 0 then some [UInt8.ofNat (v / 16)] else none
  | [c, d, e] => do
    let v := ((← a.value? c) * 64 + (← a.value? d)) * 64 + (← a.value? e)
    if v % 4 = 0 then some [UInt8.ofNat (v / 1024), UInt8.ofNat (v / 4 % 256)] else none
  | _ => none

/-- Read text as bytes. -/
def decode? (a : Alphabet) : List Char → Option (List UInt8)
  | c :: d :: e :: f :: rest =>
    if a.padded ∧ f = '=' then
      if rest.isEmpty then if e = '=' then a.decodeLast? [c, d] else a.decodeLast? [c, d, e]
      else none
    else do
      let v := (((← a.value? c) * 64 + (← a.value? d)) * 64 + (← a.value? e)) * 64 + (← a.value? f)
      let bytes ← decode? a rest
      some (UInt8.ofNat (v / 65536) :: UInt8.ofNat (v / 256 % 256) :: UInt8.ofNat (v % 256) ::
        bytes)
  | cs => if a.padded ∧ !cs.isEmpty then none else a.decodeLast? cs

end Alphabet
end OperatorKit.Key
