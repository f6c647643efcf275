import Mathlib.Data.Nat.Count
import Mathlib.Order.Interval.Finset.Nat
import OperatorKit.Load.Picker

/-!
# The parts of a total weight

Weights laid one behind the other divide their sum into parts, one for each
index. `locate?` finds the part that a point lies in, and every point below the
total weight lies in exactly one of them.
-/

namespace OperatorKit.Load

/-- Where the part of an index begins: the sum of the weights before it. -/
def partStart (ws : List UInt32) (i : Nat) : Nat := totalWeight (ws.take i)

@[simp] theorem partStart_zero (ws : List UInt32) : partStart ws 0 = 0 := by
  simp [partStart, totalWeight]

@[simp] theorem partStart_length (ws : List UInt32) : partStart ws ws.length = totalWeight ws := by
  simp [partStart]

@[simp] theorem partStart_cons_succ (w : UInt32) (ws : List UInt32) (i : Nat) :
    partStart (w :: ws) (i + 1) = w.toNat + partStart ws i := rfl

/-- A part is as long as the weight of its index. -/
theorem partStart_succ {ws : List UInt32} {i : Nat} {w : UInt32} (h : ws[i]? = some w) :
    partStart ws (i + 1) = partStart ws i + w.toNat := by
  induction ws generalizing i with
  | nil => simp at h
  | cons v ws ih =>
    cases i with
    | zero =>
      simp only [List.getElem?_cons_zero, Option.some.injEq] at h
      simp [h]
    | succ i =>
      rw [List.getElem?_cons_succ] at h
      simp only [partStart_cons_succ, ih h]
      omega

theorem partStart_mono (ws : List UInt32) {i j : Nat} (h : i ≤ j) :
    partStart ws i ≤ partStart ws j := by
  induction ws generalizing i j with
  | nil => simp [partStart]
  | cons w ws ih =>
    cases i with
    | zero => simp
    | succ i =>
      cases j with
      | zero => omega
      | succ j =>
        have := ih (Nat.le_of_succ_le_succ h)
        simp only [partStart_cons_succ]
        omega

theorem partStart_le_totalWeight (ws : List UInt32) (i : Nat) :
    partStart ws i ≤ totalWeight ws := by
  rcases Nat.le_total i ws.length with h | h
  · exact (partStart_mono ws h).trans_eq (partStart_length ws)
  · simp [partStart, List.take_of_length_le h]

/-- A list of weights sums up to nothing exactly if each of them is zero. -/
theorem totalWeight_eq_zero_iff {ws : List UInt32} : totalWeight ws = 0 ↔ ∀ w ∈ ws, w = 0 := by
  induction ws with
  | nil => simp [totalWeight]
  | cons w ws ih =>
    have hw : w.toNat = 0 ↔ w = 0 := UInt32.toNat_inj (b := 0)
    simp [totalWeight, ih, hw]

theorem allZero_iff {ws : List UInt32} : allZero ws = true ↔ totalWeight ws = 0 := by
  simp [allZero, totalWeight_eq_zero_iff]

/-- Weights of 32 bits each sum up to less than `2 ^ 32` for each of them. -/
theorem totalWeight_le (ws : List UInt32) : totalWeight ws ≤ ws.length * (2 ^ 32 - 1) := by
  induction ws with
  | nil => simp [totalWeight]
  | cons w ws ih =>
    have := w.toNat_lt
    simp only [totalWeight, List.length_cons]
    omega

/-! ## Finding a part -/

/-- A point is located at the index whose part it lies in. -/
theorem locate?_eq_some_iff {ws : List UInt32} {point i : Nat} :
    locate? ws point = some i ↔ partStart ws i ≤ point ∧ point < partStart ws (i + 1) := by
  induction ws generalizing point i with
  | nil => simp [locate?, partStart, totalWeight]
  | cons w ws ih =>
    -- The walk stops at the head if the point is short of its weight.
    simp only [locate?]
    split
    case isTrue h =>
      cases i with
      | zero => simpa using h
      | succ i =>
        simp only [partStart_cons_succ, Option.some.injEq]
        omega
    case isFalse h =>
      cases i with
      | zero =>
        simp only [Option.map_eq_some_iff, partStart_cons_succ, partStart_zero]
        omega
      | succ i =>
        simp only [Option.map_eq_some_iff, Nat.add_right_cancel_iff, exists_eq_right, ih,
          partStart_cons_succ]
        omega

/-- Every point below the total weight lies in a part. -/
theorem locate?_isSome {ws : List UInt32} {point : Nat} (h : point < totalWeight ws) :
    ∃ i, locate? ws point = some i := by
  induction ws generalizing point with
  | nil => simp [totalWeight] at h
  | cons w ws ih =>
    simp only [locate?]
    split
    case isTrue => exact ⟨0, rfl⟩
    case isFalse hw =>
      simp only [totalWeight] at h
      obtain ⟨i, hi⟩ := ih (show point - w.toNat < totalWeight ws by omega)
      exact ⟨i + 1, by simp [hi]⟩

/-- A point is located at an index of the list, and its weight is not zero. -/
theorem weight_of_locate? {ws : List UInt32} {point i : Nat} (h : locate? ws point = some i) :
    ∃ w, ws[i]? = some w ∧ w ≠ 0 := by
  obtain ⟨hlo, hhi⟩ := locate?_eq_some_iff.mp h
  cases hw : ws[i]? with
  | none =>
    -- Behind the list every part is empty.
    have hlen : ws.length ≤ i := List.getElem?_eq_none_iff.mp hw
    have : totalWeight ws ≤ partStart ws i := by
      rw [← partStart_length]
      exact partStart_mono ws hlen
    have := partStart_le_totalWeight ws (i + 1)
    omega
  | some w =>
    refine ⟨w, rfl, ?_⟩
    -- So is the part of an index without weight.
    rintro rfl
    rw [partStart_succ hw] at hhi
    simp only [UInt32.toNat_zero] at hhi
    omega

/-- As many points are located at an index as its weight says. -/
theorem count_locate? {ws : List UInt32} {i : Nat} {w : UInt32} (h : ws[i]? = some w) :
    (totalWeight ws).count (fun point => locate? ws point = some i) = w.toNat := by
  have hend := partStart_le_totalWeight ws (i + 1)
  have hpart : (Finset.range (totalWeight ws)).filter (fun point => locate? ws point = some i) =
      Finset.Ico (partStart ws i) (partStart ws (i + 1)) := by
    ext point
    simp only [Finset.mem_filter, Finset.mem_range, locate?_eq_some_iff, Finset.mem_Ico]
    omega
  rw [Nat.count_eq_card_filter_range, hpart, Nat.card_Ico, partStart_succ h]
  omega

end OperatorKit.Load
