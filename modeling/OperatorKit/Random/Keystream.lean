/-!
# Random words from a seed

A seed of 64 bits is spread over a key of eight words by a linear congruential
generator with a permuted output. The key then drives a stream cipher with six
double rounds and a 64 bit block counter, whose blocks, one behind the other,
are the random words.
-/

namespace OperatorKit.Random

/-- Rotate a word to the left. -/
def rotateLeft (x : UInt32) (k : UInt32) : UInt32 := (x <<< k) ||| (x >>> (32 - k))

/-! ## The key -/

/-- The next state of the seed generator. -/
def seedStep (state : UInt64) : UInt64 :=
  state * 6364136223846793005 + 11634580027462260723

/-- The word that a state of the seed generator gives: some of its middle bits,
rotated by its highest ones. -/
def seedWord (state : UInt64) : UInt32 :=
  let x := (((state >>> 18) ^^^ state) >>> 27).toUInt32
  let k := (state >>> 59).toUInt32
  (x >>> k) ||| (x <<< ((32 - k) &&& 31))

/-- The first `n` words of the seed generator. -/
def seedWords : Nat → UInt64 → List UInt32
  | 0,     _     => []
  | n + 1, state => seedWord (seedStep state) :: seedWords n (seedStep state)

/-! ## One block -/

/-- Four words that are worked on at the same time. -/
structure Row where
  a : UInt32
  b : UInt32
  c : UInt32
  d : UInt32
  deriving DecidableEq, Repr

namespace Row

/-- Combine two rows place by place. -/
def zip (f : UInt32 → UInt32 → UInt32) (r s : Row) : Row :=
  ⟨f r.a s.a, f r.b s.b, f r.c s.c, f r.d s.d⟩

/-- Rotate every word of a row to the left. -/
def rotate (k : UInt32) (r : Row) : Row :=
  ⟨rotateLeft r.a k, rotateLeft r.b k, rotateLeft r.c k, rotateLeft r.d k⟩

/-- Move every word one place to the left; the first one becomes the last. -/
def shift (r : Row) : Row := ⟨r.b, r.c, r.d, r.a⟩

/-- The words of a row. -/
def toList (r : Row) : List UInt32 := [r.a, r.b, r.c, r.d]

end Row

/-- The cipher's state of sixteen words: four rows of four. -/
structure Block where
  first : Row
  second : Row
  third : Row
  fourth : Row
  deriving DecidableEq, Repr

namespace Block

/-- The quarter rounds of the four columns. -/
def columnRound (s : Block) : Block :=
  let a := s.first.zip (· + ·) s.second
  let d := (s.fourth.zip (· ^^^ ·) a).rotate 16
  let c := s.third.zip (· + ·) d
  let b := (s.second.zip (· ^^^ ·) c).rotate 12
  let a := a.zip (· + ·) b
  let d := (d.zip (· ^^^ ·) a).rotate 8
  let c := c.zip (· + ·) d
  let b := (b.zip (· ^^^ ·) c).rotate 7
  ⟨a, b, c, d⟩

/-- A round of the columns and one of the diagonals. -/
def doubleRound (s : Block) : Block :=
  let s := s.columnRound
  let s := columnRound ⟨s.first, s.second.shift, s.third.shift.shift, s.fourth.shift.shift.shift⟩
  ⟨s.first, s.second.shift.shift.shift, s.third.shift.shift, s.fourth.shift⟩

/-- A number of double rounds. -/
def rounds : Nat → Block → Block
  | 0,     s => s
  | n + 1, s => rounds n s.doubleRound

/-- Combine two blocks place by place. -/
def zip (f : UInt32 → UInt32 → UInt32) (s t : Block) : Block :=
  ⟨s.first.zip f t.first, s.second.zip f t.second, s.third.zip f t.third, s.fourth.zip f t.fourth⟩

/-- The words of a block. -/
def toList (s : Block) : List UInt32 :=
  s.first.toList ++ s.second.toList ++ s.third.toList ++ s.fourth.toList

end Block

/-! ## The stream -/

/-- A key of eight words. -/
structure Key where
  low : Row
  high : Row
  deriving DecidableEq, Repr

/-- The key of a seed. -/
def Key.ofSeed (seed : UInt64) : Key :=
  match seedWords 8 seed with
  | [a, b, c, d, e, f, g, h] => ⟨⟨a, b, c, d⟩, ⟨e, f, g, h⟩⟩
  | _                        => ⟨⟨0, 0, 0, 0⟩, ⟨0, 0, 0, 0⟩⟩

/-- The `n`-th block of a key's stream. -/
def Key.block (k : Key) (n : UInt64) : Block :=
  let start : Block :=
    ⟨⟨0x61707865, 0x3320646e, 0x79622d32, 0x6b206574⟩, k.low, k.high,
     ⟨n.toUInt32, (n >>> 32).toUInt32, 0, 0⟩⟩
  (start.rounds 6).zip (· + ·) start

/-- The words of `count` blocks, beginning with the `n`-th. -/
def Key.words (k : Key) : (count : Nat) → (n : UInt64) → List UInt32
  | 0,         _ => []
  | count + 1, n => (k.block n).toList ++ k.words count (n + 1)

/-- The first words of a seed's stream, at least `count` of them. -/
def wordsOfSeed (seed : UInt64) (count : Nat) : List UInt32 :=
  (Key.ofSeed seed).words (count / 16 + 1) 0

end OperatorKit.Random
