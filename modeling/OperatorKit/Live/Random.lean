/-!
# Random words from the machine
-/

namespace OperatorKit.Live

/-- The word of four bytes, the lowest one first. -/
def wordAt (bytes : ByteArray) (i : Nat) : UInt32 :=
  let byte (k : Nat) : UInt32 := (bytes.data.getD (4 * i + k) 0).toUInt32
  byte 0 ||| (byte 1 <<< 8) ||| (byte 2 <<< 16) ||| (byte 3 <<< 24)

/-- A number of words that nobody can foresee. -/
def randomWords (count : Nat) : IO (List UInt32) := do
  let bytes ← IO.getRandomBytes (USize.ofNat (4 * count))
  return (List.range count).map (wordAt bytes)

end OperatorKit.Live
