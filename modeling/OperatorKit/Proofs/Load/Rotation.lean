import Mathlib.Data.Nat.Periodic
import OperatorKit.Proofs.Load.Parts

/-!
# Rotations follow the parts of the total weight

A rotation stands at a point of the total weight, and each pick moves it on by
one. So the pick after `k` others is the index whose part holds the point
`k`, counted round the end of the weights.
-/

namespace OperatorKit.Load.Rotation

/-- A rotation stands in the list or right behind it, and a run under way is no
longer than the weight of its index. -/
structure Standing (ws : List UInt32) (r : Rotation) : Prop where
  position_le : r.position ≤ ws.length
  runsLeft_le : 0 < r.runsLeft → ∃ w, ws[r.position]? = some w ∧ r.runsLeft ≤ w.toNat

theorem standing_fresh (ws : List UInt32) : fresh.Standing ws :=
  ⟨Nat.zero_le _, fun h => absurd h (Nat.lt_irrefl 0)⟩

/-- The point of the total weight that a rotation stands at. -/
def point (ws : List UInt32) (r : Rotation) : Nat :=
  if r.runsLeft = 0 then partStart ws r.position else partStart ws (r.position + 1) - r.runsLeft

@[simp] theorem point_fresh (ws : List UInt32) : fresh.point ws = 0 := by simp [point, fresh]

/-! ## Looking for the next run -/

/-- What the search finds has a weight, and only indices without any lie between
it and the position where the search began. -/
theorem seek?_eq_some {ws : List UInt32} {passes position i runs : Nat}
    (h : seek? ws passes position = some (i, runs)) (hpos : position ≤ ws.length) :
    ∃ w, ws[i]? = some w ∧ w ≠ 0 ∧ runs = w.toNat ∧
      partStart ws i = partStart ws position % totalWeight ws := by
  induction passes generalizing position with
  | zero => simp [seek?] at h
  | succ passes ih =>
    -- The end of the list and its start are the same place of the cycle.
    have hstart : partStart ws (position % ws.length) % totalWeight ws =
        partStart ws position % totalWeight ws := by
      rcases Nat.lt_or_eq_of_le hpos with hlt | rfl
      · rw [Nat.mod_eq_of_lt hlt]
      · simp
    simp only [seek?] at h
    split at h
    case h_1 => cases h
    case h_2 w hw =>
      have hnext := partStart_succ hw
      split at h
      case isTrue hzero =>
        -- An index without weight leaves the start of the next part where it is.
        have hlt : position % ws.length < ws.length := (List.getElem?_eq_some_iff.mp hw).1
        obtain ⟨v, hv, hv0, hruns, hv'⟩ := ih h hlt
        refine ⟨v, hv, hv0, hruns, ?_⟩
        rw [hv', hnext, hzero, UInt32.toNat_zero, Nat.add_zero, hstart]
      case isFalse hzero =>
        simp only [Option.some.injEq, Prod.mk.injEq] at h
        obtain ⟨rfl, rfl⟩ := h
        have hpos : w.toNat ≠ 0 := fun h0 => hzero (UInt32.toNat_inj.mp h0)
        have hend := partStart_le_totalWeight ws (position % ws.length + 1)
        refine ⟨w, hw, hzero, rfl, ?_⟩
        exact (Nat.mod_eq_of_lt (by omega)).symm.trans hstart

theorem mod_succ_add (position d length : Nat) :
    (position % length + 1 + d) % length = (position + (d + 1)) % length := by
  rw [Nat.add_assoc, Nat.add_comm 1 d, Nat.mod_add_mod]

/-- A search in vain has met with indices without weight only. -/
theorem weight_of_seek?_eq_none {ws : List UInt32} {passes position : Nat}
    (hws : 0 < ws.length) (h : seek? ws passes position = none) :
    ∀ d < passes, ws[(position + d) % ws.length]? = some 0 := by
  induction passes generalizing position with
  | zero => intro d hd; omega
  | succ passes ih =>
    simp only [seek?] at h
    split at h
    case h_1 hw =>
      have := Nat.mod_lt position hws
      rw [List.getElem?_eq_none_iff] at hw
      omega
    case h_2 w hw =>
      split at h
      case isFalse => cases h
      case isTrue hzero =>
        intro d hd
        cases d with
        | zero => simpa [hzero] using hw
        | succ d => rw [← mod_succ_add, ih h d (Nat.lt_of_succ_lt_succ hd)]

/-- One pass over all indices finds a weight, if there is any. -/
theorem seek?_isSome {ws : List UInt32} (hpos : 0 < totalWeight ws) (position : Nat) :
    ∃ i runs, seek? ws ws.length position = some (i, runs) := by
  cases hseek : seek? ws ws.length position with
  | some found => exact ⟨found.1, found.2, rfl⟩
  | none =>
    have hlen : 0 < ws.length := by
      cases ws with
      | nil => simp [totalWeight] at hpos
      | cons w ws => simp
    have hzero : ∀ w ∈ ws, w = 0 := by
      intro w hw
      obtain ⟨i, hi, rfl⟩ := List.mem_iff_getElem.mp hw
      -- The search comes past `i` after as many steps as it takes round the end.
      have hback := Nat.mod_lt position hlen
      have hmeet := weight_of_seek?_eq_none hlen hseek
        ((i + (ws.length - position % ws.length)) % ws.length) (Nat.mod_lt _ hlen)
      have hround : (position + (i + (ws.length - position % ws.length)) % ws.length) % ws.length
          = i := by
        rw [Nat.add_mod_mod, ← Nat.mod_add_mod,
          show position % ws.length + (i + (ws.length - position % ws.length)) = i + ws.length by
            omega, Nat.add_mod_right, Nat.mod_eq_of_lt hi]
      rw [hround, List.getElem?_eq_getElem hi] at hmeet
      exact Option.some.inj hmeet
    rw [totalWeight_eq_zero_iff.mpr hzero] at hpos
    exact absurd hpos (Nat.lt_irrefl 0)

/-! ## One pick -/

variable {ws : List UInt32} {r : Rotation}

/-- Settling begins a run where there is none, at the point where the rotation stands. -/
theorem settle_spec (hpos : 0 < totalWeight ws) (hr : r.Standing ws) :
    (r.settle ws).Standing ws ∧ 0 < (r.settle ws).runsLeft ∧
      (r.settle ws).point ws = r.point ws % totalWeight ws := by
  by_cases hruns : r.runsLeft = 0
  · obtain ⟨i, runs, hseek⟩ := seek?_isSome hpos r.position
    obtain ⟨w, hw, hw0, rfl, hstart⟩ := seek?_eq_some hseek hr.position_le
    have hrun : w.toNat ≠ 0 := fun h0 => hw0 (UInt32.toNat_inj.mp h0)
    have hi : i < ws.length := (List.getElem?_eq_some_iff.mp hw).1
    have hsettle : r.settle ws = ⟨i, w.toNat⟩ := by simp [settle, hruns, hseek]
    rw [hsettle]
    refine ⟨⟨Nat.le_of_lt hi, fun _ => ⟨w, hw, Nat.le_refl _⟩⟩, Nat.pos_of_ne_zero hrun, ?_⟩
    simp only [point, hrun, hruns, if_false, if_true, partStart_succ hw, ← hstart]
    omega
  · have hsettle : r.settle ws = r := by simp [settle, hruns]
    rw [hsettle]
    -- A run under way stands below the total weight already.
    refine ⟨hr, Nat.pos_of_ne_zero hruns, (Nat.mod_eq_of_lt ?_).symm⟩
    have := partStart_le_totalWeight ws (r.position + 1)
    simp only [point, hruns, if_false]
    omega

/-- A rotation with a run under way stands in the part of its index. -/
theorem locate?_point (hr : r.Standing ws) (hruns : 0 < r.runsLeft) :
    locate? ws (r.point ws) = some r.position := by
  obtain ⟨w, hw, hle⟩ := hr.runsLeft_le hruns
  have hpart := partStart_succ hw
  rw [locate?_eq_some_iff]
  simp only [point, Nat.ne_of_gt hruns, if_false]
  omega

/-- Spending a pick moves a rotation on by one point. -/
theorem spend_spec (hr : r.Standing ws) (hruns : 0 < r.runsLeft) :
    r.spend.Standing ws ∧ r.spend.point ws = r.point ws + 1 := by
  obtain ⟨w, hw, hle⟩ := hr.runsLeft_le hruns
  have hpart := partStart_succ hw
  have hlt : r.position < ws.length := (List.getElem?_eq_some_iff.mp hw).1
  by_cases hlast : r.runsLeft ≤ 1
  · have hspend : r.spend = ⟨r.position + 1, 0⟩ := by simp [spend, hlast]
    rw [hspend]
    refine ⟨⟨hlt, fun h => absurd h (Nat.lt_irrefl 0)⟩, ?_⟩
    simp only [point, Nat.ne_of_gt hruns, if_false, if_true]
    omega
  · have hspend : r.spend = ⟨r.position, r.runsLeft - 1⟩ := by simp [spend, hlast]
    have hleft : r.runsLeft - 1 ≠ 0 := by omega
    rw [hspend]
    refine ⟨⟨hr.position_le, fun _ => ⟨w, hw, ?_⟩⟩, ?_⟩
    · simp only
      omega
    · simp only [point, hleft, Nat.ne_of_gt hruns, if_false]
      omega

/-- With some weight there is always a next index: the one at the rotation's point. -/
theorem next_spec (hpos : 0 < totalWeight ws) (hr : r.Standing ws) :
    ∃ i r', r.next ws = .ok (i, r') ∧ locate? ws (r.point ws % totalWeight ws) = some i ∧
      r'.Standing ws ∧ r'.point ws = r.point ws % totalWeight ws + 1 := by
  obtain ⟨hsettled, hruns, hpoint⟩ := settle_spec hpos hr
  obtain ⟨hspent, hmoved⟩ := spend_spec hsettled hruns
  have hsome : allZero ws = false := by
    rw [Bool.eq_false_iff, ne_eq, allZero_iff]
    omega
  refine ⟨(r.settle ws).position, (r.settle ws).spend, by simp [next, hsome], ?_, hspent, ?_⟩
  · rw [← hpoint]
    exact locate?_point hsettled hruns
  · rw [hmoved, hpoint]

/-- Without any weight each index has its turn. -/
theorem next_of_totalWeight_eq_zero (hws : ws ≠ []) (hzero : totalWeight ws = 0) :
    r.next ws = .ok (r.position % ws.length, ⟨r.position % ws.length + 1, r.runsLeft⟩) := by
  have hlen : ws.length ≠ 0 := fun h => hws (List.length_eq_zero_iff.mp h)
  simp [next, allZero_iff.mpr hzero, hlen]

/-! ## Many picks -/

/-- The picks of a rotation are the indices at the points that follow its own. -/
theorem nextMany_spec (hpos : 0 < totalWeight ws) (hr : r.Standing ws) (n : Nat)
    (words : List UInt32) :
    ∃ picks r', Picker.nextMany ws n (.rotating r) words = (.ok picks, .rotating r', words) ∧
      picks.map some =
        (List.range n).map (fun k => locate? ws ((r.point ws + k) % totalWeight ws)) := by
  induction n generalizing r with
  | zero => exact ⟨[], r, rfl, rfl⟩
  | succ n ih =>
    -- The rotation behind the first pick stands one point further on.
    obtain ⟨i, r', hnext, hi, hr', hpoint⟩ := next_spec hpos hr
    obtain ⟨picks, r'', hmany, hpicks⟩ := ih hr'
    refine ⟨i :: picks, r'', by simp [Picker.nextMany, Picker.next, hnext, hmany], ?_⟩
    simp only [List.range_succ_eq_map, List.map_cons, List.map_map, hpicks, hpoint, Nat.add_zero,
      hi]
    congr 1
    refine List.map_congr_left fun k _ => ?_
    rw [Function.comp_apply, Nat.add_assoc, Nat.mod_add_mod, Nat.add_comm 1 k]

/-- Without any weight the picks go round the indices. -/
theorem nextMany_of_totalWeight_eq_zero (hws : ws ≠ []) (hzero : totalWeight ws = 0) (n : Nat)
    (words : List UInt32) :
    ∃ r', Picker.nextMany ws n (.rotating r) words =
      (.ok ((List.range n).map fun k => (r.position + k) % ws.length), .rotating r', words) := by
  induction n generalizing r with
  | zero => exact ⟨r, rfl⟩
  | succ n ih =>
    obtain ⟨r', hmany⟩ := ih (r := ⟨r.position % ws.length + 1, r.runsLeft⟩)
    refine ⟨r', ?_⟩
    simp only [Picker.nextMany, Picker.next, next_of_totalWeight_eq_zero hws hzero, hmany,
      List.range_succ_eq_map, List.map_cons, List.map_map, Nat.add_zero]
    congr 3
    refine List.map_congr_left fun k _ => ?_
    rw [Function.comp_apply, Nat.add_assoc, Nat.mod_add_mod, Nat.add_comm 1 k]

/-- The picks of a rotation within any window as long as the total weight hold an
index as often as its weight says. -/
theorem count_window {picks : List Nat} {n start i : Nat} {w : UInt32}
    (hpicks : picks.map some = (List.range n).map fun k => locate? ws (k % totalWeight ws))
    (hwindow : start + totalWeight ws ≤ n) (hw : ws[i]? = some w) :
    ((picks.drop start).take (totalWeight ws)).count i = w.toNat := by
  have hslice : ((List.range n).drop start).take (totalWeight ws) =
      List.range' start (totalWeight ws) := by
    rw [List.range_eq_range', List.drop_range', List.take_range'_of_length_ge (by omega)]
    simp
  have hperiodic : Function.Periodic (fun k => locate? ws (k % totalWeight ws) = some i)
      (totalWeight ws) := by
    intro k
    simp only [Nat.add_mod_right]
  calc ((picks.drop start).take (totalWeight ws)).count i
    _ = (((picks.map some).drop start).take (totalWeight ws)).count (some i) := by
      rw [← List.map_drop, ← List.map_take,
        List.count_map_of_injective _ _ (Option.some_injective _)]
    _ = ((List.range' start (totalWeight ws)).filter
          fun k => locate? ws (k % totalWeight ws) = some i).length := by
      rw [hpicks, ← List.map_drop, ← List.map_take, hslice, List.count_eq_countP, List.countP_map,
        List.countP_eq_length_filter]
      congr 1
      exact List.filter_congr fun k _ => Bool.beq_eq_decide_eq _ _
    _ = ((Finset.Ico start (start + totalWeight ws)).filter
          fun k => locate? ws (k % totalWeight ws) = some i).card := by
      rw [Nat.Ico_eq_range', Nat.add_sub_cancel_left]
      rfl
    _ = (totalWeight ws).count fun k => locate? ws (k % totalWeight ws) = some i :=
      Nat.filter_Ico_card_eq_of_periodic _ _ _ hperiodic
    _ = (totalWeight ws).count fun k => locate? ws k = some i := by
      rw [Nat.count_eq_card_filter_range, Nat.count_eq_card_filter_range]
      congr 1
      refine Finset.filter_congr fun k hk => ?_
      rw [Nat.mod_eq_of_lt (Finset.mem_range.mp hk)]
    _ = w.toNat := count_locate? hw

/-- A rotation that has not picked anything goes through the parts of the total
weight point by point, and through all indices if there is no weight. -/
theorem picks_follow_parts {ws : List UInt32} (hws : ws ≠ []) (n : Nat) (words : List UInt32) :
    ∃ picks picker, Picker.nextMany ws n (.ofKind .roundRobin) words = (.ok picks, picker, words) ∧
      picks.length = n ∧
      (0 < totalWeight ws →
        (∀ k < n, ∀ i, picks[k]? = some i ↔
          partStart ws i ≤ k % totalWeight ws ∧ k % totalWeight ws < partStart ws (i + 1)) ∧
        (∀ start, start + totalWeight ws ≤ n → ∀ i w, ws[i]? = some w →
          ((picks.drop start).take (totalWeight ws)).count i = w.toNat) ∧
        ∀ i ∈ picks, ∃ w, ws[i]? = some w ∧ w ≠ 0) ∧
      (totalWeight ws = 0 → ∀ k < n, picks[k]? = some (k % ws.length)) := by
  rcases Nat.eq_zero_or_pos (totalWeight ws) with hzero | hpos
  · obtain ⟨r, hmany⟩ := nextMany_of_totalWeight_eq_zero (r := fresh) hws hzero n words
    refine ⟨_, _, hmany, by simp, fun hpos => by omega, fun _ k hk => ?_⟩
    simp [fresh, hk]
  · obtain ⟨picks, r, hmany, hpicks⟩ := nextMany_spec hpos (standing_fresh ws) n words
    simp only [point_fresh, Nat.zero_add] at hpicks
    have hlength : picks.length = n := by simpa using congrArg List.length hpicks
    have hget : ∀ k < n, picks[k]? = locate? ws (k % totalWeight ws) := by
      intro k hk
      obtain ⟨i, hi⟩ := locate?_isSome (Nat.mod_lt k hpos)
      have := congrArg (·[k]?) hpicks
      simpa [hk, hi] using this
    refine ⟨picks, _, hmany, hlength, fun _ => ⟨?_, ?_, ?_⟩, fun hzero => by omega⟩
    · intro k hk i
      rw [hget k hk, locate?_eq_some_iff]
    · intro start hwindow i w hw
      exact count_window hpicks hwindow hw
    · intro i hi
      obtain ⟨k, hki⟩ := List.mem_iff_getElem?.mp hi
      have hk := (List.getElem?_eq_some_iff.mp hki).1
      rw [hget k (hlength ▸ hk)] at hki
      exact weight_of_locate? hki

theorem picks_of_two_weights : ∃ picks picker,
    Picker.nextMany [2, 0, 1] 6 (.ofKind .roundRobin) [] = (.ok picks, picker, []) ∧
      picks.length = 6 ∧ picks[3]? = some 0 ∧ picks[5]? = some 2 ∧
      ((picks.drop 2).take 3).count 0 = 2 := by
  obtain ⟨picks, picker, hmany, hlength, hpos, -⟩ :=
    picks_follow_parts (by decide : ([2, 0, 1] : List UInt32) ≠ []) 6 []
  obtain ⟨hparts, hwindow, -⟩ := hpos (by decide)
  exact ⟨picks, picker, hmany, hlength, (hparts 3 (by decide) 0).mpr (by decide),
    (hparts 5 (by decide) 2).mpr (by decide), hwindow 2 (by decide) 0 2 rfl⟩

end OperatorKit.Load.Rotation
