import OperatorKit.Proofs.Load.Parts
import OperatorKit.Proofs.Random.Draw

/-!
# Random picks are proportional to the weights

A random pick draws a point below the total weight and takes the index whose part
holds it. Every point has the same share of the raw numbers, so the share of an
index is its weight times that of a point.
-/

namespace OperatorKit.Load

open OperatorKit.Random

/-- The sum of fewer than `2 ^ 32` weights fits in 64 bits. -/
theorem totalWeight_lt {ws : List UInt32} (h : ws.length < 2 ^ 32) : totalWeight ws < 2 ^ 64 := by
  have := totalWeight_le ws
  omega

/-- With some weight, a random pick locates the point that was drawn. -/
theorem pickRandom_eq_bind {ws : List UInt32} (hpos : 0 < totalWeight ws) :
    pickRandom ws = (below (totalWeight ws)).bind fun point =>
      .pure ((locate? ws point).getD (ws.length - 1)) := by
  funext words
  simp only [pickRandom, Nat.ne_of_gt hpos, if_false, Draw.bind]
  cases below (totalWeight ws) words with
  | error e => rfl
  | ok result => rfl

/-- A random pick is reliable, and what it picks has a weight. -/
theorem reliable_pickRandom {ws : List UInt32} (hpos : 0 < totalWeight ws) :
    (pickRandom ws).Reliable fun i => ∃ w, ws[i]? = some w ∧ w ≠ 0 := by
  rw [pickRandom_eq_bind hpos]
  refine (reliable_below hpos).bind fun point hpoint => Draw.reliable_pure ?_
  obtain ⟨i, hi⟩ := locate?_isSome hpoint
  rw [hi]
  exact weight_of_locate? hi

/-- One raw number decides a random pick, unless it is passed over. -/
theorem pickRandom_rawWords {ws : List UInt32} (hpos : 0 < totalWeight ws) {v : Nat}
    (hv : v < 2 ^ 64) (words : List UInt32) :
    pickRandom ws (rawWords v ++ words) =
      match (acceptBelow (totalWeight ws) v).bind (locate? ws) with
      | some i => .ok (i, words)
      | none   => pickRandom ws words := by
  rw [pickRandom_eq_bind hpos, below_eq_firstWide hpos]
  simp only [Draw.bind, firstWide_rawWords hv]
  cases hpoint : acceptBelow (totalWeight ws) v with
  | none => rfl
  | some point =>
    obtain ⟨i, hi⟩ := locate?_isSome (acceptBelow_lt hpos hv hpoint)
    simp [hi, Draw.pure]

theorem pickRandom_nil {ws : List UInt32} (hpos : 0 < totalWeight ws) :
    pickRandom ws [] = .error .starved := by
  rw [pickRandom_eq_bind hpos, below_eq_firstWide hpos]
  rfl

/-- An index is picked by exactly the raw numbers that stand for a point in its part. -/
theorem pickRandom_eq_ok_iff {ws : List UInt32} (hpos : 0 < totalWeight ws) {v i : Nat}
    (hv : v < 2 ^ 64) :
    pickRandom ws (rawWords v) = .ok (i, []) ↔
      (acceptBelow (totalWeight ws) v).bind (locate? ws) = some i := by
  rw [← List.append_nil (rawWords v), pickRandom_rawWords hpos hv]
  cases (acceptBelow (totalWeight ws) v).bind (locate? ws) with
  | none => simp [pickRandom_nil hpos]
  | some j => simp

/-- The share of an index is its weight times the share of a point. -/
theorem card_pickRandom {ws : List UInt32} (hlen : ws.length < 2 ^ 32) {i : Nat} {w : UInt32}
    (hpos : 0 < totalWeight ws) (hw : ws[i]? = some w) :
    ((Finset.range (2 ^ 64)).filter fun v => pickRandom ws (rawWords v) = .ok (i, [])).card =
      w.toNat * 2 ^ leadingZeros (totalWeight ws) := by
  have hend := partStart_le_totalWeight ws (i + 1)
  have hpicks : ((Finset.range (2 ^ 64)).filter fun v =>
      pickRandom ws (rawWords v) = .ok (i, [])) =
      (Finset.Ico (partStart ws i) (partStart ws (i + 1))).biUnion fun point =>
        (Finset.range (2 ^ 64)).filter fun v => acceptBelow (totalWeight ws) v = some point := by
    ext v
    simp only [Finset.mem_filter, Finset.mem_biUnion, Finset.mem_Ico]
    constructor
    · rintro ⟨hv, hpick⟩
      rw [pickRandom_eq_ok_iff hpos (Finset.mem_range.mp hv), Option.bind_eq_some_iff] at hpick
      obtain ⟨point, hpoint, hi⟩ := hpick
      exact ⟨point, locate?_eq_some_iff.mp hi, hv, hpoint⟩
    · rintro ⟨point, hi, hv, hpoint⟩
      rw [pickRandom_eq_ok_iff hpos (Finset.mem_range.mp hv), Option.bind_eq_some_iff]
      exact ⟨hv, point, hpoint, locate?_eq_some_iff.mpr hi⟩
  have hdisjoint : ∀ point ∈ Finset.Ico (partStart ws i) (partStart ws (i + 1)),
      ∀ point' ∈ Finset.Ico (partStart ws i) (partStart ws (i + 1)), point ≠ point' →
      Disjoint ((Finset.range (2 ^ 64)).filter fun v => acceptBelow (totalWeight ws) v = some point)
        ((Finset.range (2 ^ 64)).filter fun v =>
          acceptBelow (totalWeight ws) v = some point') := by
    intro point _ point' _ hne
    refine Finset.disjoint_filter.mpr fun v _ hpoint hpoint' => hne ?_
    exact Option.some.inj (hpoint.symm.trans hpoint')
  calc _
    _ = _ := congrArg Finset.card hpicks
    _ = (Finset.Ico (partStart ws i) (partStart ws (i + 1))).card *
          2 ^ leadingZeros (totalWeight ws) := by
      rw [Finset.card_biUnion hdisjoint]
      refine Finset.sum_const_nat fun point hpoint => ?_
      rw [Finset.mem_Ico] at hpoint
      exact card_acceptBelow (totalWeight_lt hlen) (by omega)
    _ = w.toNat * 2 ^ leadingZeros (totalWeight ws) := by
      rw [Nat.card_Ico, partStart_succ hw, Nat.add_sub_cancel_left]

/-- A random pick gives every index raw numbers in proportion to its weight. One
raw number decides it or is passed over, whatever words follow; the point that is
drawn lies in the part of an index, and an index without weight is never picked. -/
theorem pickRandom_proportional {ws : List UInt32} (hlen : ws.length < 2 ^ 32)
    (hpos : 0 < totalWeight ws) :
    totalWeight ws < 2 ^ 64 ∧
    (∀ i w, ws[i]? = some w →
      ((Finset.range (2 ^ 64)).filter fun v => pickRandom ws (rawWords v) = .ok (i, [])).card =
        w.toNat * 2 ^ leadingZeros (totalWeight ws)) ∧
    (∀ v < 2 ^ 64, ∀ words,
      (∃ i, pickRandom ws (rawWords v) = .ok (i, []) ∧
        pickRandom ws (rawWords v ++ words) = .ok (i, words)) ∨
      pickRandom ws (rawWords v) = .error .starved ∧
        pickRandom ws (rawWords v ++ words) = pickRandom ws words) ∧
    (∀ words point rest, below (totalWeight ws) words = .ok (point, rest) →
      ∃ i, locate? ws point = some i) ∧
    (pickRandom ws).Reliable fun i => ∃ w, ws[i]? = some w ∧ w ≠ 0 := by
  refine ⟨totalWeight_lt hlen, fun i w hw => card_pickRandom hlen hpos hw, ?_, ?_,
    reliable_pickRandom hpos⟩
  · intro v hv words
    have halone := pickRandom_rawWords hpos hv []
    rw [List.append_nil] at halone
    rw [pickRandom_rawWords hpos hv, halone]
    cases (acceptBelow (totalWeight ws) v).bind (locate? ws) with
    | none => exact .inr ⟨pickRandom_nil hpos, rfl⟩
    | some i => exact .inl ⟨i, rfl, rfl⟩
  · intro words point rest h
    exact locate?_isSome ((reliable_below hpos).sound h)

theorem pickRandom_proportional_of_three_quarters :
    ((Finset.range (2 ^ 64)).filter
      fun v => pickRandom [1, 0, 3] (rawWords v) = .ok (2, [])).card = 3 * 2 ^ 61 := by
  obtain ⟨-, hshare, -⟩ :=
    pickRandom_proportional (by decide : ([1, 0, 3] : List UInt32).length < 2 ^ 32) (by decide)
  have hzeros : leadingZeros (totalWeight [1, 0, 3]) = 61 := by decide
  rw [hshare 2 3 rfl, hzeros]
  rfl

end OperatorKit.Load
