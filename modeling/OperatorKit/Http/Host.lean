import OperatorKit.Decimal.Natural
import OperatorKit.Http.Percent
import OperatorKit.Text.Folding
import OperatorKit.Text.Split
import OperatorKit.Text.Unprintable

/-!
# Hosts

The host of an address: a name, or an address of numbers, of which there is a short
and a long kind. A name whose last part is a number is an address of the short kind,
and no host at all if it is none of those. Such an address has up to four numbers
in any of three bases; the last number fills the room that the others leave. An
address of the long kind stands in brackets.
-/

namespace OperatorKit.Http

/-- A host on the net. -/
inductive Host where
  /-- A name in small letters. -/
  | name (text : String)
  /-- An address of 32 bits. -/
  | short (bits : Nat)
  /-- An address of eight pieces of 16 bits, as it was written between the brackets. -/
  | long (pieces : String)
  deriving DecidableEq, Repr

namespace Host

/-- The host as it stands in an address. -/
def text : Host → String
  | .name s     => s
  | .short bits =>
    ".".intercalate ([bits / 2 ^ 24, bits / 2 ^ 16, bits / 2 ^ 8, bits].map fun n =>
      Decimal.text (n % 2 ^ 8))
  | .long s     => "[" ++ s ++ "]"

/-! ## Short addresses -/

/-- Read digits of a base behind the value `acc`. -/
def readBase? (base acc : Nat) : List Char → Option Nat
  | []      => some acc
  | c :: cs =>
    match Percent.hexValue? c with
    | none   => none
    | some d => if d < base then readBase? base (acc * base + d) cs else none

/-- Read one number of an address. A zero in front announces the base eight, and
a zero with an `x` the base sixteen. -/
def number? : List Char → Option Nat
  | []               => none
  | '0' :: 'x' :: cs => readBase? 16 0 cs
  | '0' :: c :: cs   => readBase? 8 0 (c :: cs)
  | cs               => readBase? 10 0 cs

/-- The parts of a name between its dots. There may be one more dot at the end. -/
def parts (cs : List Char) : List (List Char) :=
  match (Text.splitBy (· == '.') cs).reverse with
  | [] :: ps => ps.reverse
  | ps       => ps.reverse

/-- The last part of a name looks like a number. -/
def endsInNumber (ps : List (List Char)) : Bool :=
  match ps.getLast? with
  | none   => false
  | some p => (!p.isEmpty && p.all Char.isDigit) || (number? p).isSome

/-- The bits of an address with these numbers. All but the last one are bytes. -/
def bits? (ns : List Nat) : Option Nat :=
  match ns.reverse with
  | []           => none
  | last :: high =>
    let room := 2 ^ (8 * (4 - high.length))
    if high.length < 4 ∧ high.all (· < 2 ^ 8) ∧ last < room then
      some (high.reverse.foldl (fun acc n => acc * 2 ^ 8 + n) 0 * room + last)
    else none

/-- Read an address of the short kind. -/
def short? (ps : List (List Char)) : Option Host := (ps.mapM number?).bind fun ns =>
  (bits? ns).map .short

/-! ## Long addresses -/

/-- A byte in decimal, without any zeros in front. -/
def isByte (cs : List Char) : Bool :=
  !cs.isEmpty && cs.all Char.isDigit && (cs.length == 1 || cs.head? != some '0') &&
  Decimal.value cs < 2 ^ 8

/-- One to four hexadecimal digits. -/
def isPiece (cs : List Char) : Bool :=
  !cs.isEmpty && cs.length ≤ 4 && cs.all fun c => (Percent.hexValue? c).isSome

/-- How many pieces there are. In place of the last two there may be four bytes
between dots. -/
def countPieces? : List (List Char) → Option Nat
  | []      => some 0
  | [p]     =>
    if isPiece p then some 1
    else
      let bs := Text.splitBy (· == '.') p
      if bs.length == 4 && bs.all isByte then some 2 else none
  | p :: ps => if isPiece p then (countPieces? ps).map (· + 1) else none

/-- The pieces between colons. -/
def pieces : List Char → List (List Char)
  | [] => []
  | cs => Text.splitBy (· == ':') cs

/-- Cut a text at the first double colon. -/
def cutGap? : List Char → Option (List Char × List Char)
  | ':' :: ':' :: cs => some ([], cs)
  | c :: cs          => (cutGap? cs).map fun (before, behind) => (c :: before, behind)
  | []               => none

/-- An address of the long kind has eight pieces, or a double colon that stands
for one or more of them. -/
def isLong (cs : List Char) : Bool :=
  match cutGap? cs with
  | none                  => !cs.isEmpty && countPieces? (pieces cs) == some 8
  | some (before, behind) =>
    match (pieces before).all isPiece, countPieces? (pieces behind) with
    | true, some n => (pieces before).length + n ≤ 7
    | _,    _      => false

/-- Read an address in brackets. -/
def long? (cs : List Char) : Option Host :=
  let inner := (cs.drop 1).dropLast
  if cs.head? == some '[' && cs.getLast? == some ']' && isLong inner then
    some (.long (String.ofList (inner.map Char.toLower)))
  else none

/-! ## Reading -/

/-- Characters that no host has. -/
def isForeign (c : Char) : Bool :=
  c.toNat ≤ 0x20 || c.toNat == 0x7F || "#/:<>?@[\\]^|".toList.contains c

/-- Characters that no name has. -/
def isForeignToName (c : Char) : Bool :=
  isForeign c || c == '%' || (0x80 ≤ c.toNat && Text.isUnprintable c)

/-- Read a host of the web. A name is percent-decoded and folded. -/
def ofText? (cs : List Char) : Option Host :=
  if cs.head? == some '[' then long? cs
  else
    match Percent.decode? cs with
    | none    => none
    | some cs =>
      let name := cs.flatMap Text.folded
      if name.isEmpty || name.any isForeignToName then none
      else if endsInNumber (parts name) then short? (parts name)
      else some (.name (String.ofList name))

/-- A host of a scheme of its own, in which nothing is decoded. -/
def isOpaque (cs : List Char) : Bool :=
  if cs.head? == some '[' then (long? cs).isSome else !cs.any isForeign

end Host
end OperatorKit.Http
