import OperatorKit.Load.Run
import OperatorKit.Proofs.Load.Parts

/-!
# The tasks that a run begins with

Accepted weights change the weights of the tasks and nothing else, and they leave
some task to pick.
-/

namespace OperatorKit.Load

/-- What there is to a task apart from its weight. -/
def Task.kind (t : Task) : String × Work := (t.name, t.work)

/-- Whatever is not about weights stays what it is. -/
theorem map_assignWeights {α : Type} {f : Task → α} (hf : ∀ t w, f { t with weight := w } = f t)
    (tasks : List Task) (ws : List UInt32) : (assignWeights tasks ws).map f = tasks.map f := by
  induction tasks generalizing ws with
  | nil => rfl
  | cons t ts ih =>
    cases ws with
    | nil => rfl
    | cons w ws => simp [assignWeights, ih, hf]

theorem map_name_assignWeights (tasks : List Task) (ws : List UInt32) :
    (assignWeights tasks ws).map (·.name) = tasks.map (·.name) :=
  map_assignWeights (fun _ _ => rfl) tasks ws

theorem map_kind_assignWeights (tasks : List Task) (ws : List UInt32) :
    (assignWeights tasks ws).map Task.kind = tasks.map Task.kind :=
  map_assignWeights (fun _ _ => rfl) tasks ws

theorem map_weight_assignWeights {tasks : List Task} {ws : List UInt32}
    (h : ws.length = tasks.length) : (assignWeights tasks ws).map (·.weight) = ws := by
  induction tasks generalizing ws with
  | nil =>
    rw [List.length_nil, List.length_eq_zero_iff] at h
    rw [h]
    rfl
  | cons t ts ih =>
    cases ws with
    | nil => cases h
    | cons w ws =>
      have hlength : ws.length = ts.length := by simpa using h
      simp [assignWeights, ih hlength]

/-- The checks of weights, with their sum in place of a look at each of them. -/
theorem applyWeights_eq (tasks : List Task) (ws : List UInt32) :
    applyWeights tasks ws =
      if ws = [] then .ok tasks
      else if ws.length ≠ tasks.length then .error (.countMismatch ws.length tasks.length)
      else if totalWeight ws = 0 then .error .allZero
      else .ok (assignWeights tasks ws) := by
  have hzero : ws.all (· == 0) = true ↔ totalWeight ws = 0 := allZero_iff
  simp only [applyWeights, List.isEmpty_iff, hzero]

/-- Weights are accepted if there are none, or one for each task and not all zero. -/
theorem applyWeights_eq_ok_iff {tasks tasks' : List Task} {ws : List UInt32} :
    applyWeights tasks ws = .ok tasks' ↔
      ws = [] ∧ tasks' = tasks ∨
      ws ≠ [] ∧ ws.length = tasks.length ∧ totalWeight ws ≠ 0 ∧
        tasks' = assignWeights tasks ws := by
  rw [applyWeights_eq]
  split
  case isTrue hnil => simp [hnil, eq_comm]
  case isFalse hnil =>
    split
    case isTrue hlength => simp [hnil, hlength]
    case isFalse hlength =>
      split
      case isTrue hzero => simp [hnil, hzero]
      case isFalse hpos => simp [hnil, not_not.mp hlength, hpos, eq_comm]

/-- Weights are refused if there are some, but not one for each task or all of them zero. -/
theorem applyWeights_eq_error_iff {tasks : List Task} {ws : List UInt32} {e : WeightProblem} :
    applyWeights tasks ws = .error e ↔
      ws ≠ [] ∧ ws.length ≠ tasks.length ∧ e = .countMismatch ws.length tasks.length ∨
      ws ≠ [] ∧ ws.length = tasks.length ∧ totalWeight ws = 0 ∧ e = .allZero := by
  rw [applyWeights_eq]
  split
  case isTrue hnil => simp [hnil]
  case isFalse hnil =>
    split
    case isTrue hlength => simp [hnil, hlength, eq_comm]
    case isFalse hlength =>
      split
      case isTrue hzero => simp [hnil, not_not.mp hlength, hzero, eq_comm]
      case isFalse hpos => simp [hnil, not_not.mp hlength, hpos]

theorem Scenario.nodup_names (scenario : Scenario) : (scenario.tasks.map (·.name)).Nodup := by
  cases scenario <;> simp [tasks]

theorem Scenario.length_tasks (scenario : Scenario) : scenario.tasks.length = 3 := by
  cases scenario <;> rfl

theorem Scenario.totalWeight_tasks (scenario : Scenario) :
    totalWeight (scenario.tasks.map (·.weight)) = 3 := by
  cases scenario <;> rfl

namespace Run

variable {plan : Plan} {scenario : Scenario} {r : Run}

/-- A run begins without users, requests and rows, with the names of its scenario's
tasks and weights that let some task be picked. -/
theorem start_spec (h : start plan scenario = .ok r) :
    r.plan = plan ∧ r.scenario = scenario ∧ r.stage = .spawning ∧ r.users = [] ∧ r.sent = [] ∧
      r.tally = .empty ∧ r.tasks.map (·.name) = scenario.tasks.map (·.name) ∧
      0 < totalWeight (r.tasks.map (·.weight)) ∧
      (plan.weights ≠ [] → r.tasks.map (·.weight) = plan.weights) := by
  simp only [start] at h
  split at h
  case h_1 => cases h
  case h_2 tasks hweights =>
    cases h
    refine ⟨rfl, rfl, rfl, rfl, rfl, rfl, ?_⟩
    rcases applyWeights_eq_ok_iff.mp hweights with ⟨hnil, rfl⟩ | ⟨-, hlength, hpos, rfl⟩
    · exact ⟨rfl, by simp [scenario.totalWeight_tasks], fun hne => absurd hnil hne⟩
    · rw [map_name_assignWeights, map_weight_assignWeights hlength]
      exact ⟨rfl, Nat.pos_of_ne_zero hpos, fun _ => rfl⟩

end Run
end OperatorKit.Load
