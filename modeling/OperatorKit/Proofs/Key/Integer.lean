import OperatorKit.Key.Integer

/-!
# Natural numbers and their bytes

The bytes of a number denote that number again, and no other bytes without leading zeros do.
-/

namespace OperatorKit.Key

theorem ofBytesFrom_append (acc : Nat) (bs bs' : List UInt8) :
    ofBytesFrom acc (bs ++ bs') = ofBytesFrom (ofBytesFrom acc bs) bs' := by
  induction bs generalizing acc with
  | nil => rfl
  | cons b bs ih => exact ih (acc * 256 + b.toNat)

@[simp] theorem ofBytes_singleton (b : UInt8) : ofBytes [b] = b.toNat := by
  simp [ofBytes, ofBytesFrom]

theorem ofBytes_append_singleton (bs : List UInt8) (b : UInt8) :
    ofBytes (bs ++ [b]) = ofBytes bs * 256 + b.toNat := ofBytesFrom_append 0 bs [b]

/-- A zero byte in front changes nothing. -/
@[simp] theorem ofBytes_zero_cons (bs : List UInt8) : ofBytes (0 :: bs) = ofBytes bs := rfl

@[simp] theorem ofBytes_toBytes (n : Nat) : ofBytes (toBytes n) = n := by
  fun_induction toBytes n with
  | case1 n h =>
    rw [ofBytes_singleton]
    exact UInt8.toNat_ofNat_of_lt' h
  | case2 n _ ih =>
    have hlast : (UInt8.ofNat (n % 256)).toNat = n % 256 :=
      UInt8.toNat_ofNat_of_lt' (Nat.mod_lt n (by decide))
    rw [ofBytes_append_singleton, ih, hlast]
    exact Nat.div_add_mod' n 256

theorem toBytes_ne_nil (n : Nat) : toBytes n ≠ [] := by
  unfold toBytes
  split
  · exact List.cons_ne_nil _ _
  · exact List.append_ne_nil_of_right_ne_nil _ (List.cons_ne_nil _ _)

/-! ## Bytes without leading zeros -/

/-- One zero byte, or bytes of which the first is not zero. -/
inductive Minimal : List UInt8 → Prop where
  | zero : Minimal [0]
  | positive {b : UInt8} (h : b ≠ 0) (bs : List UInt8) : Minimal (b :: bs)

theorem toBytes_append_byte {m : Nat} (hm : 0 < m) (b : UInt8) :
    toBytes (m * 256 + b.toNat) = toBytes m ++ [b] := by
  have hb := b.toNat_lt
  have hlarge : ¬ m * 256 + b.toNat < 256 := by omega
  rw [toBytes, if_neg hlarge, show (m * 256 + b.toNat) / 256 = m by omega,
    show (m * 256 + b.toNat) % 256 = b.toNat by omega, UInt8.ofNat_toNat]

/-- Bytes behind a positive number are the last bytes of the number that they make with it. -/
theorem toBytes_ofBytesFrom {acc : Nat} (hacc : 0 < acc) (bs : List UInt8) :
    toBytes (ofBytesFrom acc bs) = toBytes acc ++ bs := by
  induction bs generalizing acc with
  | nil => exact (List.append_nil _).symm
  | cons b bs ih =>
    rw [ofBytesFrom, ih (by omega), toBytes_append_byte hacc, List.append_assoc,
      List.singleton_append]

theorem toBytes_toNat (b : UInt8) : toBytes b.toNat = [b] := by
  rw [toBytes, if_pos b.toNat_lt, UInt8.ofNat_toNat]

theorem Minimal.toBytes_ofBytes {bs : List UInt8} (h : Minimal bs) : toBytes (ofBytes bs) = bs := by
  cases h with
  | zero => exact toBytes_toNat 0
  | @positive b hb bs =>
    have hpos : 0 < 0 * 256 + b.toNat := by
      have : b.toNat ≠ 0 := fun h => hb (UInt8.toNat_inj.mp h)
      omega
    rw [ofBytes, ofBytesFrom, toBytes_ofBytesFrom hpos, Nat.zero_mul, Nat.zero_add, toBytes_toNat,
      List.singleton_append]

theorem minimal_toBytes (n : Nat) : Minimal (toBytes n) := by
  fun_induction toBytes n with
  | case1 n h =>
    by_cases hn : n = 0
    · subst hn
      exact .zero
    · refine .positive (fun hzero => hn ?_) []
      rw [← UInt8.toNat_ofNat_of_lt' h, hzero]
      rfl
  | case2 n h ih =>
    have hvalue := ofBytes_toBytes (n / 256)
    -- The bytes in front are not a lone zero, so that they do not begin with a zero.
    generalize toBytes (n / 256) = bs at ih hvalue ⊢
    cases ih with
    | zero =>
      rw [ofBytes_singleton, UInt8.toNat_zero] at hvalue
      omega
    | positive hb bs => exact .positive hb _

end OperatorKit.Key
