/-!
# Natural numbers as bytes

A natural number is written in as few bytes as it has, the highest first. Zero
is one byte.
-/

namespace OperatorKit.Key

/-- The bytes of a number, the highest first and without leading zeros. -/
def toBytes (n : Nat) : List UInt8 :=
  if n < 256 then [UInt8.ofNat n] else toBytes (n / 256) ++ [UInt8.ofNat (n % 256)]
  termination_by n
  decreasing_by omega

theorem length_toBytes_lt {n : Nat} (h : 2 ≤ n) : (toBytes n).length < n := by
  induction n using Nat.strongRecOn with
  | _ n ih =>
    unfold toBytes
    split
    · simp only [List.length_singleton]
      omega
    · rename_i hn
      by_cases hd : 2 ≤ n / 256
      · have := ih (n / 256) (by omega) hd
        simp only [List.length_append, List.length_singleton]
        omega
      · have h1 : n / 256 < 256 := by omega
        unfold toBytes
        simp only [h1, if_true, List.length_append, List.length_singleton]
        omega

/-- The number that bytes denote behind the number `acc`. -/
def ofBytesFrom (acc : Nat) : List UInt8 → Nat
  | []      => acc
  | b :: bs => ofBytesFrom (acc * 256 + b.toNat) bs

/-- The number that bytes denote. -/
def ofBytes (bs : List UInt8) : Nat := ofBytesFrom 0 bs

/-- How many binary digits a number has. -/
def bitLength (n : Nat) : Nat := if n = 0 then 0 else n.log2 + 1

end OperatorKit.Key
