import Mathlib.Data.Int.ModEq
import Mathlib.Data.Nat.ModEq
import OperatorKit.Key.Modular

/-!
# Inverses

Euclid's algorithm gives the greatest common divisor of two numbers, and a factor of the
first that is congruent to it modulo the second. So a number has an inverse exactly if
it is invertible.
-/

namespace OperatorKit.Key

variable {a m x : Nat}

/-! ## Euclid's algorithm -/

theorem euclid_fst (r r' : Nat) (s s' : Int) : (euclid r r' s s').1 = Nat.gcd r r' := by
  fun_induction euclid r r' s s' with
  | case1 => rw [Nat.gcd_zero_right]
  | case2 r r' s s' _ ih =>
    rw [ih, Nat.gcd_comm r r', Nat.gcd_rec r' r, Nat.gcd_comm]

/-- If both numbers are known as multiples of `a` modulo `m`, so is their greatest common
divisor. -/
theorem euclid_modEq {r r' : Nat} {s s' : Int} (h : s * a ≡ r [ZMOD m])
    (h' : s' * a ≡ r' [ZMOD m]) :
    (euclid r r' s s').2 * a ≡ (euclid r r' s s').1 [ZMOD m] := by
  -- Each step takes a multiple of the second number from the first, on both sides alike.
  fun_induction euclid r r' s s' with
  | case1 => exact h
  | case2 r r' s s' _ ih =>
    apply ih h'
    have hmod : (r : Int) - (r / r' : Nat) * r' = (r % r' : Nat) := by
      have := Nat.div_add_mod' r r'
      omega
    rw [← hmod, Int.sub_mul, Int.mul_assoc]
    exact h.sub (h'.mul_left _)

/-! ## Inverses -/

theorem inverse?_eq_some (hm : 0 < m) (h : inverse? a m = some x) :
    x < m ∧ a * x ≡ 1 [MOD m] := by
  simp only [inverse?] at h
  split at h
  case isFalse => cases h
  case isTrue hgcd =>
    cases h
    have hpos : (0 : Int) < m := by exact_mod_cast hm
    have hx : (((euclid a m 1 0).2 % m).toNat : Int) = (euclid a m 1 0).2 % m :=
      Int.toNat_of_nonneg (Int.emod_nonneg _ hpos.ne')
    have hgcd' : (euclid a m 1 0).2 * a ≡ (euclid a m 1 0).1 [ZMOD m] := by
      apply euclid_modEq
      · rw [Int.one_mul]
      · rw [Int.zero_mul]
        exact (Int.modEq_zero_iff_dvd.mpr dvd_rfl).symm
    constructor
    · have := Int.emod_lt_of_pos (euclid a m 1 0).2 hpos
      omega
    · rw [← Int.natCast_modEq_iff, Nat.cast_mul, hx, Int.mul_comm]
      rw [hgcd] at hgcd'
      exact ((Int.mod_modEq _ _).mul_right _).trans hgcd'

/-- There is no inverse of a number exactly if it is not invertible. -/
theorem inverse?_eq_none_iff (hm : 0 < m) :
    inverse? a m = none ↔ ¬ ∃ x, a * x ≡ 1 [MOD m] := by
  constructor
  · rintro h ⟨x, hx⟩
    have hgcd : (euclid a m 1 0).1 = 1 := by
      rw [euclid_fst]
      exact Nat.coprime_of_mul_modEq_one x hx
    simp only [inverse?, if_pos hgcd] at h
    cases h
  · intro h
    cases hinverse : inverse? a m with
    | none => rfl
    | some x => exact absurd ⟨x, (inverse?_eq_some hm hinverse).2⟩ h

end OperatorKit.Key
