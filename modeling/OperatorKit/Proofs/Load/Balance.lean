import Mathlib.Algebra.BigOperators.Ring.Finset
import Mathlib.Algebra.Order.BigOperators.Group.Finset
import Mathlib.Algebra.Order.Ring.Int
import Mathlib.Tactic.Linarith
import Mathlib.Tactic.Positivity
import OperatorKit.Proofs.Load.Rotation

/-!
# How even a rotation is

Wherever a rotation is cut off, it has picked an index about as often as the weight of the
index has a part in the total weight. What it may be off by does not grow with the picks, and
for several rotations it adds up.
-/

namespace OperatorKit.Load.Rotation

/-- How often an index is among the first `n` picks of a rotation. -/
def picksOf (ws : List UInt32) (i n : Nat) : Nat :=
  n.count fun k => locate? ws (k % totalWeight ws) = some i

variable {ws : List UInt32} {i : Nat} {w : UInt32}

@[simp] theorem picksOf_zero (ws : List UInt32) (i : Nat) : picksOf ws i 0 = 0 := Nat.count_zero _

theorem picksOf_succ (ws : List UInt32) (i n : Nat) :
    picksOf ws i (n + 1) =
      picksOf ws i n + if locate? ws (n % totalWeight ws) = some i then 1 else 0 :=
  Nat.count_succ _ n

/-- The picks of an index in whole cycles are as its weight says, and those in the cycle that
is cut off are as much of the weight as the cycle has come past. -/
theorem picksOf_mul_add (hpos : 0 < totalWeight ws) (hw : ws[i]? = some w) (n : Nat) :
    picksOf ws i n * totalWeight ws + w.toNat * (n % totalWeight ws) =
      w.toNat * n + totalWeight ws * min (n % totalWeight ws - partStart ws i) w.toNat := by
  have hpart := partStart_succ hw
  have hend := partStart_le_totalWeight ws (i + 1)
  induction n with
  | zero => simp
  | succ n ih =>
    have hlt := Nat.mod_lt n hpos
    have hnext : (n + 1) % totalWeight ws = (n % totalWeight ws + 1) % totalWeight ws :=
      (Nat.mod_add_mod n (totalWeight ws) 1).symm
    -- The cycle comes past one more point of the part exactly if the pick is of the index.
    have hpast : min (n % totalWeight ws + 1 - partStart ws i) w.toNat =
        min (n % totalWeight ws - partStart ws i) w.toNat +
          if locate? ws (n % totalWeight ws) = some i then 1 else 0 := by
      simp only [locate?_eq_some_iff]
      split <;> omega
    rw [picksOf_succ, hnext]
    by_cases hlast : n % totalWeight ws + 1 = totalWeight ws
    · have hall : min (totalWeight ws - partStart ws i) w.toNat = w.toNat := by omega
      rw [hlast, hall] at hpast
      rw [hlast, Nat.mod_self]
      have hcycle : w.toNat * (n % totalWeight ws) + w.toNat = w.toNat * totalWeight ws := by
        rw [← Nat.mul_succ, Nat.succ_eq_add_one, hlast]
      have hweight := congrArg (totalWeight ws * ·) hpast
      simp only [Nat.mul_add, Nat.add_mul, Nat.mul_comm] at ih hcycle hweight ⊢
      simp only [Nat.zero_sub, Nat.zero_min]
      omega
    · have hstep : (n % totalWeight ws + 1) % totalWeight ws = n % totalWeight ws + 1 :=
        Nat.mod_eq_of_lt (by omega)
      rw [hstep, hpast]
      simp only [Nat.mul_add, Nat.add_mul, Nat.mul_one]
      rw [Nat.mul_comm (ite _ 1 0) (totalWeight ws)]
      omega

/-- The picks of an index are off its part by its weight times the weight of the others at
most, wherever the rotation is cut off. -/
theorem abs_picksOf_le (hpos : 0 < totalWeight ws) (hw : ws[i]? = some w) (n : Nat) :
    |(picksOf ws i n : ℤ) * totalWeight ws - w.toNat * n| ≤
      w.toNat * (totalWeight ws - w.toNat : ℤ) := by
  have hpicks := picksOf_mul_add hpos hw n
  have hpart := partStart_succ hw
  have hend := partStart_le_totalWeight ws (i + 1)
  have hlt := Nat.mod_lt n hpos
  -- How much of the weight the cycle has come past, against how far it has come.
  generalize hpast : min (n % totalWeight ws - partStart ws i) w.toNat = past at hpicks
  have hpastWeight : past ≤ w.toNat := by omega
  have hpastCycle : past ≤ n % totalWeight ws := by omega
  have hrest : n % totalWeight ws + w.toNat ≤ totalWeight ws + past := by omega
  have hweight : w.toNat ≤ totalWeight ws := by omega
  generalize n % totalWeight ws = come at hpicks hpastCycle hrest
  generalize w.toNat = weight at *
  generalize totalWeight ws = total at *
  zify at hpicks hpastWeight hpastCycle hrest hweight
  have hoff : (picksOf ws i n : ℤ) * total - weight * n = total * past - weight * come := by
    linarith
  rw [hoff, abs_le]
  constructor
  · have hleast : (weight : ℤ) * (come + weight) ≤ weight * (total + past) :=
      mul_le_mul_of_nonneg_left hrest (by positivity)
    have hmore : (weight : ℤ) * past ≤ total * past :=
      mul_le_mul_of_nonneg_right hweight (by positivity)
    linarith
  · have hmost : (past : ℤ) * (total - weight) ≤ weight * (total - weight) :=
      mul_le_mul_of_nonneg_right hpastWeight (by linarith)
    have hless : (weight : ℤ) * past ≤ weight * come :=
      mul_le_mul_of_nonneg_left hpastCycle (by positivity)
    linarith

/-- For several rotations, each cut off anywhere, the picks are off by as much for each. -/
theorem abs_sum_picksOf_le (hpos : 0 < totalWeight ws) (hw : ws[i]? = some w) (users : Nat)
    (counts : Nat → Nat) :
    |((∑ id ∈ Finset.range users, picksOf ws i (counts id) : Nat) : ℤ) * totalWeight ws -
        w.toNat * (∑ id ∈ Finset.range users, counts id : Nat)| ≤
      users * (w.toNat * (totalWeight ws - w.toNat : ℤ)) := by
  calc |((∑ id ∈ Finset.range users, picksOf ws i (counts id) : Nat) : ℤ) * totalWeight ws -
        w.toNat * (∑ id ∈ Finset.range users, counts id : Nat)|
    _ = |∑ id ∈ Finset.range users,
          ((picksOf ws i (counts id) : ℤ) * totalWeight ws - w.toNat * counts id)| := by
      rw [Finset.sum_sub_distrib, ← Finset.sum_mul, ← Finset.mul_sum, Nat.cast_sum, Nat.cast_sum]
    _ ≤ ∑ id ∈ Finset.range users,
          |(picksOf ws i (counts id) : ℤ) * totalWeight ws - w.toNat * counts id| :=
      Finset.abs_sum_le_sum_abs _ _
    _ ≤ ∑ _id ∈ Finset.range users, w.toNat * (totalWeight ws - w.toNat : ℤ) :=
      Finset.sum_le_sum fun id _ => abs_picksOf_le hpos hw (counts id)
    _ = users * (w.toNat * (totalWeight ws - w.toNat : ℤ)) := by
      rw [Finset.sum_const, Finset.card_range, nsmul_eq_mul]

/-- A rotation never picks an index without weight. -/
theorem picksOf_eq_zero (hw : ws[i]? = some 0) (n : Nat) : picksOf ws i n = 0 := by
  refine Nat.count_iff_forall_not.mpr fun k _ hk => ?_
  obtain ⟨w, hw', hne⟩ := weight_of_locate? hk
  rw [hw, Option.some.injEq] at hw'
  exact hne hw'.symm

end OperatorKit.Load.Rotation
