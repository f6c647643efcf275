import OperatorKit.Key.Der
import OperatorKit.Proofs.Key.Integer

/-!
# Reading back a distinguished encoding

Every layer is read back in front of whatever follows it: a length in its short
and its long form, a value of any tag, an integer with or without a zero byte in
front, and a row of integers.
-/

namespace OperatorKit.Key.Der

/-! ## Lengths -/

theorem takeLength?_toBytes (n : Nat) (rest : List UInt8) :
    takeLength? (toBytes n).length (toBytes n ++ rest) = some (n, rest) := by
  have hlong : ¬ (toBytes n ++ rest).length < (toBytes n).length := by
    rw [List.length_append]
    omega
  rw [takeLength?, if_neg hlong, List.take_left, List.drop_left, ofBytes_toBytes, if_pos rfl]

theorem decodeLength?_encodeLength (n : Nat) (rest : List UInt8) :
    decodeLength? (encodeLength n ++ rest) = some (n, rest) := by
  fun_induction encodeLength n generalizing rest with
  | case1 n h =>
    have hn : (UInt8.ofNat n).toNat = n := UInt8.toNat_ofNat_of_lt' (Nat.lt_trans h (by decide))
    have hshort : UInt8.ofNat n < 128 := by
      rw [UInt8.lt_iff_toNat_lt, hn]
      exact h
    rw [List.singleton_append, decodeLength?, if_pos hshort, hn]
  | case2 n h hbytes =>
    have hpos := List.length_pos_iff.mpr (toBytes_ne_nil n)
    have hcount : (UInt8.ofNat (128 + (toBytes n).length)).toNat = 128 + (toBytes n).length :=
      UInt8.toNat_ofNat_of_lt' (by simp only [UInt8.size]; omega)
    have hlong : ¬ UInt8.ofNat (128 + (toBytes n).length) < 128 := by
      rw [UInt8.lt_iff_toNat_lt, hcount]
      exact Nat.not_lt.mpr (Nat.le_add_right 128 _)
    have hcounted : UInt8.ofNat (128 + (toBytes n).length) < 255 := by
      rw [UInt8.lt_iff_toNat_lt, hcount]
      exact Nat.add_lt_add_left hbytes 128
    rw [List.cons_append, decodeLength?, if_neg hlong, if_pos hcounted, hcount,
      Nat.add_sub_cancel_left, takeLength?_toBytes]
    exact if_neg h
  | case3 n h hbytes ih =>
    rw [List.cons_append, List.cons_append, List.append_assoc, decodeLength?, if_neg (by decide),
      if_neg (by decide), ih]
    simp only [if_neg hbytes, takeLength?_toBytes]

/-! ## Values -/

theorem decode?_encode (tag : Tag) (body rest : List UInt8) :
    decode? tag (encode tag body ++ rest) = some (body, rest) := by
  have hlong : ¬ (body ++ rest).length < body.length := by
    rw [List.length_append]
    omega
  rw [encode, List.cons_append, List.cons_append, List.append_assoc, decode?,
    if_neg (not_not_intro rfl), decodeLength?_encodeLength]
  simp only [if_neg hlong, List.take_left, List.drop_left]

theorem ofBytes_integerBody (n : Nat) : ofBytes (integerBody n) = n := by
  have hn := ofBytes_toBytes n
  unfold integerBody
  split
  case h_1 h => rwa [h] at hn
  case h_2 h =>
    rw [h] at hn
    split
    · rwa [ofBytes_zero_cons]
    · exact hn

theorem decodeInteger?_encodeInteger (n : Nat) (rest : List UInt8) :
    decodeInteger? (encodeInteger n ++ rest) = some (n, rest) := by
  rw [decodeInteger?, encodeInteger, decode?_encode]
  simp only [ofBytes_integerBody, if_true]

theorem decodeIntegers?_flatMap (ns : List Nat) :
    decodeIntegers? ns.length (ns.flatMap encodeInteger) = some ns := by
  induction ns with
  | nil => rfl
  | cons n ns ih =>
    rw [List.flatMap_cons, List.length_cons, decodeIntegers?, decodeInteger?_encodeInteger]
    simp only [ih, Option.map_some]

end OperatorKit.Key.Der
