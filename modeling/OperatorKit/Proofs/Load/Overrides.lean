import OperatorKit.Proofs.Load.Weights

/-!
# One override after the other

Whatever weights the operator tries in turn, the tasks stay the same tasks with some weight among
them. The last weights that were accepted count, and those that were refused might as well not have
been tried.
-/

namespace OperatorKit.Load

variable {tasks ts : List Task} {vectors : List (List UInt32)} {ws : List UInt32}

/-- Weights that override those of `n` tasks: one for each, and not all zero. -/
def overrides (n : Nat) (ws : List UInt32) : Bool := ws.length = n && ws.any (· != 0)

theorem overrides_iff {n : Nat} :
    overrides n ws = true ↔ ws.length = n ∧ totalWeight ws ≠ 0 := by
  rw [overrides, Bool.and_eq_true, decide_eq_true_eq, Ne, totalWeight_eq_zero_iff]
  simp

theorem exists_weight_iff :
    (∃ t ∈ tasks, t.weight ≠ 0) ↔ totalWeight (tasks.map (·.weight)) ≠ 0 := by
  rw [Ne, totalWeight_eq_zero_iff]
  simp

/-! ## One override -/

/-- Weights are accepted if there are none or if they override those of the tasks. -/
theorem exists_applyWeights_eq_ok_iff :
    (∃ ts, applyWeights tasks ws = .ok ts) ↔ ws = [] ∨ overrides tasks.length ws = true := by
  rw [overrides_iff]
  constructor
  · rintro ⟨ts, h⟩
    obtain ⟨hnil, -⟩ | ⟨-, hlength, hweight, -⟩ := applyWeights_eq_ok_iff.mp h
    · exact .inl hnil
    · exact .inr ⟨hlength, hweight⟩
  · rintro (hnil | ⟨hlength, hweight⟩)
    · exact ⟨tasks, applyWeights_eq_ok_iff.mpr (.inl ⟨hnil, rfl⟩)⟩
    · have hne : ws ≠ [] := by
        rintro rfl
        exact hweight rfl
      exact ⟨_, applyWeights_eq_ok_iff.mpr (.inr ⟨hne, hlength, hweight, rfl⟩)⟩

/-- The tasks behind one override, accepted or refused. -/
theorem applyWeights_spec (tasks : List Task) (ws : List UInt32) :
    ((applyWeights tasks ws).toOption.getD tasks).map Task.kind = tasks.map Task.kind ∧
    ((applyWeights tasks ws).toOption.getD tasks).map (·.weight) =
      if overrides tasks.length ws = true then ws else tasks.map (·.weight) := by
  cases h : applyWeights tasks ws with
  | ok ts =>
    obtain ⟨rfl, rfl⟩ | ⟨-, hlength, hweight, rfl⟩ := applyWeights_eq_ok_iff.mp h
    · have hnone : overrides ts.length [] = false := by simp [overrides]
      simp [Except.toOption, hnone]
    · rw [if_pos (overrides_iff.mpr ⟨hlength, hweight⟩)]
      exact ⟨map_kind_assignWeights tasks ws, map_weight_assignWeights hlength⟩
  | error e =>
    have hrefused : ¬ overrides tasks.length ws = true := fun hoverrides => by
      obtain ⟨ts, hts⟩ := exists_applyWeights_eq_ok_iff.mpr (.inr hoverrides)
      rw [h] at hts
      cases hts
    rw [if_neg hrefused]
    exact ⟨rfl, rfl⟩

/-! ## Rows of overrides -/

theorem overrideWeights_append_singleton (tasks : List Task) (vectors : List (List UInt32))
    (ws : List UInt32) :
    overrideWeights tasks (vectors ++ [ws]) =
      (applyWeights (overrideWeights tasks vectors) ws).toOption.getD
        (overrideWeights tasks vectors) := by
  rw [overrideWeights, overrideWeights, List.foldl_append]
  rfl

theorem map_kind_overrideWeights (tasks : List Task) (vectors : List (List UInt32)) :
    (overrideWeights tasks vectors).map Task.kind = tasks.map Task.kind := by
  induction vectors using List.reverseRecOn with
  | nil => rfl
  | append_singleton vectors ws ih =>
    rw [overrideWeights_append_singleton, (applyWeights_spec _ ws).1, ih]

theorem length_overrideWeights (tasks : List Task) (vectors : List (List UInt32)) :
    (overrideWeights tasks vectors).length = tasks.length := by
  simpa using congrArg List.length (map_kind_overrideWeights tasks vectors)

theorem map_weight_overrideWeights (tasks : List Task) (vectors : List (List UInt32)) :
    (overrideWeights tasks vectors).map (·.weight) =
      (vectors.filter (overrides tasks.length)).getLast?.getD (tasks.map (·.weight)) := by
  -- A vector counts for what comes before it, so the row is taken apart at its end.
  induction vectors using List.reverseRecOn with
  | nil => rfl
  | append_singleton vectors ws ih =>
    rw [overrideWeights_append_singleton, (applyWeights_spec _ ws).2, length_overrideWeights, ih,
      List.filter_append]
    split
    case isTrue h => rw [List.filter_cons_of_pos h, List.filter_nil, List.getLast?_concat]; rfl
    case isFalse h => rw [List.filter_cons_of_neg h, List.filter_nil, List.append_nil]

theorem totalWeight_overrideWeights (hpos : totalWeight (tasks.map (·.weight)) ≠ 0)
    (vectors : List (List UInt32)) :
    totalWeight ((overrideWeights tasks vectors).map (·.weight)) ≠ 0 := by
  rw [map_weight_overrideWeights]
  cases hlast : (vectors.filter (overrides tasks.length)).getLast? with
  | none => exact hpos
  | some ws => exact (overrides_iff.mp (List.mem_filter.mp (List.mem_of_getLast? hlast)).2).2

/-- However often the weights of tasks are overridden, the tasks stay what they are, in order, and
some task has a weight, if one had in the beginning. Their weights are those of the last vector that
was accepted and not empty, or those of the beginning. A vector is refused exactly if it is not
empty and has another length than the tasks, or has their length and nothing but zeros; the first is
reported even if all weights are zero, and a refused vector changes nothing. -/
theorem overrides_keep_tasks_usable {tasks : List Task} (hpos : ∃ t ∈ tasks, t.weight ≠ 0)
    (vectors : List (List UInt32)) :
    (overrideWeights tasks vectors).map Task.kind = tasks.map Task.kind ∧
    (∃ t ∈ overrideWeights tasks vectors, t.weight ≠ 0) ∧
    (overrideWeights tasks vectors).map (·.weight) =
      (vectors.filter (overrides tasks.length)).getLast?.getD (tasks.map (·.weight)) ∧
    ∀ ws,
      ((∃ ts, applyWeights (overrideWeights tasks vectors) ws = .ok ts) ↔
        ws = [] ∨ overrides tasks.length ws = true) ∧
      (∀ ts, applyWeights (overrideWeights tasks vectors) ws = .ok ts →
        overrideWeights tasks (vectors ++ [ws]) = ts) ∧
      (∀ e, applyWeights (overrideWeights tasks vectors) ws = .error e →
        overrideWeights tasks (vectors ++ [ws]) = overrideWeights tasks vectors) ∧
      ∀ e, applyWeights (overrideWeights tasks vectors) ws = .error e ↔
        ws ≠ [] ∧ ws.length ≠ tasks.length ∧ e = .countMismatch ws.length tasks.length ∨
        ws ≠ [] ∧ ws.length = tasks.length ∧ (∀ w ∈ ws, w = 0) ∧ e = .allZero := by
  refine ⟨map_kind_overrideWeights tasks vectors, ?_, map_weight_overrideWeights tasks vectors,
    fun ws => ⟨?_, fun ts hts => ?_, fun e he => ?_, fun e => ?_⟩⟩
  · exact exists_weight_iff.mpr (totalWeight_overrideWeights (exists_weight_iff.mp hpos) vectors)
  · rw [exists_applyWeights_eq_ok_iff, length_overrideWeights]
  · rw [overrideWeights_append_singleton, hts]
    rfl
  · rw [overrideWeights_append_singleton, he]
    rfl
  · rw [applyWeights_eq_error_iff, length_overrideWeights, totalWeight_eq_zero_iff]

theorem overrides_keep_tasks_usable_of_refused :
    overrideWeights (Scenario.get "A").tasks [[3, 0, 1], [], [1, 2], [0, 0, 0]] =
      [⟨"get_time", 3, .time "A"⟩, ⟨"get_random_bytes", 0, .randomBytes "A"⟩,
        ⟨"use_cache", 1, .cache "A"⟩] ∧
    applyWeights (overrideWeights (Scenario.get "A").tasks [[3, 0, 1], []]) [0, 0] =
      .error (.countMismatch 2 3) := by
  refine ⟨by decide, ?_⟩
  have hpos : ∃ t ∈ (Scenario.get "A").tasks, t.weight ≠ 0 := by decide
  obtain ⟨-, -, -, hnext⟩ := overrides_keep_tasks_usable hpos [[3, 0, 1], []]
  obtain ⟨-, -, -, hrefused⟩ := hnext [0, 0]
  exact (hrefused _).mpr (.inl ⟨by decide, by decide, rfl⟩)

end OperatorKit.Load
