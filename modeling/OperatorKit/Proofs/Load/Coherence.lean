import Mathlib.Data.List.Induction
import OperatorKit.Proofs.Load.Average
import OperatorKit.Proofs.Load.Recovery

/-!
# What the figures of a row say about each other

A row is updated figure by figure, and a fault may stop that in between. So some figures can be
behind others, by as many recordings as met a fault there, but never ahead of them: what holds
between any two figures of a row holds whatever was recorded through the handles of its tally.
-/

namespace OperatorKit.Load

/-- A status from 200 to 399. -/
def isGood (code : Nat) : Bool := decide (200 ≤ code) && decide (code < 400)

/-! ## Histories -/

namespace History

/-- How many outcomes were counted as requests and came no further. -/
def interrupted (h : History) : Nat := h.countP (·.2 = .counts)

variable (h : History)

theorem interrupted_append (e : Recording) (extent : Extent) :
    interrupted (h ++ [(e, extent)]) = interrupted h + if extent = .counts then 1 else 0 := by
  rw [interrupted, List.countP_append, List.countP_singleton, interrupted]
  simp only [decide_eq_true_eq]

theorem failures_append (e : Recording) (extent : Extent) :
    failures (h ++ [(e, extent)]) =
      failures h + if extent.isCounted && !e.outcome.status.any isGood then 1 else 0 := by
  rw [failures, List.countP_append, List.countP_singleton, failures]
  rfl

theorem requests_eq : h.requests = h.wholes.length + h.interrupted := by
  induction h using List.reverseRecOn with
  | nil => rfl
  | append_singleton h x ih =>
    obtain ⟨e, extent⟩ := x
    rw [requests_append, interrupted_append, ih]
    cases extent with
    | whole =>
      rw [wholes_append_whole, List.length_append]
      exact Nat.add_right_comm _ _ _
    | counts | nothing =>
      rw [wholes_append_of_ne h e Extent.noConfusion]
      rfl

/-- The failures are those among the outcomes that came all the way, and some of the others. -/
theorem failures_bounds :
    h.wholes.countP (fun o => !o.status.any isGood) ≤ h.failures ∧
      h.failures ≤ h.wholes.countP (fun o => !o.status.any isGood) + h.interrupted := by
  induction h using List.reverseRecOn with
  | nil => exact ⟨Nat.le_refl 0, Nat.le_refl 0⟩
  | append_singleton h x ih =>
    obtain ⟨e, extent⟩ := x
    obtain ⟨hlower, hupper⟩ := ih
    rw [failures_append, interrupted_append]
    cases extent with
    | whole =>
      rw [wholes_append_whole, List.countP_append, List.countP_singleton]
      simp only [Extent.isCounted, Bool.true_and, reduceCtorEq, if_false]
      omega
    | counts =>
      rw [wholes_append_of_ne h e Extent.noConfusion, if_pos rfl]
      split <;> omega
    | nothing =>
      rw [wholes_append_of_ne h e Extent.noConfusion]
      exact ⟨hlower, hupper⟩

/-- A request is a failure, or its outcome came all the way with a good status, or it is one of
those that were interrupted. -/
theorem failures_add_bounds :
    h.failures + h.wholes.countP (fun o => o.status.any isGood) ≤ h.requests ∧
      h.requests ≤ h.failures + h.wholes.countP (fun o => o.status.any isGood) + h.interrupted := by
  obtain ⟨hlower, hupper⟩ := h.failures_bounds
  have hsplit : h.wholes.length = h.wholes.countP (fun o => o.status.any isGood) +
      h.wholes.countP (fun o => !o.status.any isGood) := by
    rw [List.length_eq_countP_add_countP fun o => o.status.any isGood]
    simp
  rw [h.requests_eq, hsplit]
  omega

end History

/-! ## Rows -/

namespace Row

/-- How often the statuses of a kind came back. -/
def responses (row : Row) (p : Nat → Bool) : Nat :=
  ((row.codes.filter fun entry => p entry.1).map fun entry => entry.2).sum

/-- What the figures of a row say about each other, if so many of its requests were interrupted. -/
structure Coheres (row : Row) (interrupted : Nat) : Prop where
  requests_pos : 1 ≤ row.requests
  interrupted_lt : interrupted < row.requests
  failures_le : row.failures ≤ row.requests
  responses_le : row.responses (fun _ => true) ≤ row.requests
  good_le : row.failures + row.responses isGood ≤ row.requests
  good_eq : interrupted = 0 → row.failures + row.responses isGood = row.requests
  bad_le : row.responses (fun code => !isGood code) ≤ row.failures
  shortest_le : row.shortest ≤ row.longest
  le_total : (row.requests - interrupted) * row.shortest.nanos ≤ row.total.nanos
  total_le : row.total.nanos ≤ (row.requests - interrupted) * row.longest.nanos
  average : interrupted = 0 → row.requests < divisorLimit →
    ∃ a, row.average = .ok a ∧ row.shortest ≤ a ∧ a ≤ row.longest

variable {row : Row} {first : Request} {os : List Outcome} {h : History}

namespace Summarizes

theorem responses_eq (hrow : row.Summarizes first os) (p : Nat → Bool) :
    row.responses p = os.countP fun o => o.status.any p :=
  hrow.ascending.sum_filter_eq_countP hrow.codes p

theorem responses_le (hrow : row.Summarizes first os) (p : Nat → Bool) :
    row.responses p ≤ row.requests := by
  rw [hrow.responses_eq, hrow.requests]
  exact List.countP_le_length

/-- Not every outcome that is no success has a status. -/
theorem bad_responses_le (hrow : row.Summarizes first os) :
    row.responses (fun code => !isGood code) ≤ os.countP fun o => !o.status.any isGood := by
  rw [hrow.responses_eq]
  refine List.countP_mono_left fun o _ ho => ?_
  cases hstatus : o.status with
  | none => simp [hstatus] at ho
  | some code => simpa [hstatus] using ho

theorem shortest_le_longest (hrow : row.Summarizes first os) : row.shortest ≤ row.longest :=
  hrow.longest.2 _ hrow.shortest.1

theorem average_bounds (hrow : row.Summarizes first os) (hlt : row.requests < divisorLimit) :
    ∃ a, row.average = .ok a ∧ row.shortest ≤ a ∧ a ≤ row.longest := by
  obtain ⟨a, haverage, hmean⟩ := average_eq_mean hrow.requests_pos hlt
  obtain ⟨hshortest, hlongest⟩ := hrow.mean_bounds
  exact ⟨a, haverage, Nat.le_trans hshortest (Nat.le_of_eq hmean.symm),
    Nat.le_trans (Nat.le_of_eq hmean) hlongest⟩

end Summarizes

/-- What covers a history has figures that agree with each other. -/
theorem Covers.coheres (hrow : row.Covers first h) : row.Coheres h.interrupted := by
  -- The requests and failures are those of the history, all else is as in a summary.
  obtain ⟨base, hbase, rfl⟩ := hrow
  have hrequests : h.requests = base.requests + h.interrupted := by
    rw [h.requests_eq, hbase.requests]
  have hpos := hbase.requests_pos
  have hall := hbase.responses_le fun _ => true
  have hgood : base.responses isGood = h.wholes.countP fun o => o.status.any isGood :=
    hbase.responses_eq isGood
  obtain ⟨hlower, hupper⟩ := h.failures_add_bounds
  rw [← hgood] at hlower hupper
  have hwhole : h.requests - h.interrupted = base.requests := by omega
  exact {
    requests_pos := show 1 ≤ h.requests by omega
    interrupted_lt := show h.interrupted < h.requests by omega
    failures_le := show h.failures ≤ h.requests by omega
    responses_le := show base.responses (fun _ => true) ≤ h.requests by omega
    good_le := hlower
    good_eq := fun hnone => show h.failures + base.responses isGood = h.requests by omega
    bad_le := Nat.le_trans hbase.bad_responses_le h.failures_bounds.1
    shortest_le := hbase.shortest_le_longest
    le_total := by
      show (h.requests - h.interrupted) * base.shortest.nanos ≤ base.total.nanos
      rw [hwhole]
      exact hbase.requests_mul_shortest_le
    total_le := by
      show base.total.nanos ≤ (h.requests - h.interrupted) * base.longest.nanos
      rw [hwhole]
      exact hbase.total_le_requests_mul_longest
    average := by
      intro hnone hlt
      have hsame : h.requests = base.requests := by omega
      obtain ⟨a, haverage, hbounds⟩ := hbase.average_bounds (hsame ▸ hlt)
      refine ⟨a, ?_, hbounds⟩
      rw [← haverage]
      simp only [Row.average, hsame] }

end Row

/-! ## Shared tallies -/

namespace Registry

variable {r : Registry}

/-- What operations record in the tally at a place, `r` being the registry before them. -/
def recordingsAt (place : Nat) (r : Registry) : List Operation → List Recording
  | []        => []
  | op :: ops =>
    (op.recording? fun handle => r.place handle == place).toList ++
      recordingsAt place (r.perform op) ops

/-- An operation adds to a tally what it records there. -/
theorem Recorded.getD_perform (hr : r.Recorded) (op : Operation) (place : Nat) :
    (r.perform op).tallies.getD place .empty = (r.tallies.getD place .empty).recordAll
      (op.recording? fun handle => r.place handle == place).toList := by
  cases op with
  | record handle e =>
    have hlt := hr.place_lt handle
    simp only [Registry.perform, Registry.record, Operation.recording?, beq_iff_eq,
      List.getD_eq_getElem?_getD, List.getElem?_set]
    split
    case isTrue hplace =>
      subst hplace
      rw [Registry.report, List.getD_eq_getElem?_getD]
      rfl
    case isFalse => rfl
  | share | report => rfl
  | create =>
    simp only [Registry.perform, Registry.create, Operation.recording?, List.getD_eq_getElem?_getD]
    by_cases hlt : place < r.tallies.length
    · rw [List.getElem?_append_left hlt]
      rfl
    · -- There is no tally there yet, or a new one.
      have hge := Nat.le_of_not_lt hlt
      rw [List.getElem?_eq_none hge, List.getElem?_append_right hge]
      cases place - r.tallies.length <;> rfl

theorem Recorded.getD_performAll (hr : r.Recorded) (ops : List Operation) (place : Nat) :
    (ops.foldl Registry.perform r).tallies.getD place .empty =
      (r.tallies.getD place .empty).recordAll (recordingsAt place r ops) := by
  induction ops generalizing r with
  | nil => rfl
  | cons op ops ih =>
    rw [List.foldl_cons, ih (hr.perform op), hr.getD_perform op, recordingsAt,
      Tally.recordAll_append]

/-- What was recorded in the tally of a handle, through whichever handle. -/
def recordingsBehind (ops : List Operation) (handle : Nat) : List Recording :=
  recordingsAt ((after ops).place handle) initial ops

theorem report_eq_recordAll (ops : List Operation) (handle : Nat) :
    (after ops).report handle = Tally.empty.recordAll (recordingsBehind ops handle) := by
  have hinitial : ∀ place, initial.tallies.getD place .empty = Tally.empty := by
    intro place
    cases place <;> rfl
  rw [report, after, recorded_initial.getD_performAll, hinitial]
  rfl

/-- Whatever was done with shared tallies before, and whether or not recordings met a fault, the
figures of each row agree with each other. Behind the requests and failures are only the recordings
of its task that were stopped as the sum of the times had no room. -/
theorem rows_cohere (ops : List Operation) (handle : Nat) {task : String} {row : Row}
    (hrow : ((after ops).report handle).row? task = some row) :
    row.Coheres
      ((Tally.empty.history (recordingsBehind ops handle)).ofTask task).interrupted := by
  rw [report_eq_recordAll] at hrow
  have hcovers : (Tally.empty.recordAll (recordingsBehind ops handle)).Covers
      (Tally.empty.history (recordingsBehind ops handle)) := Tally.covers_empty.recordAll _
  obtain ⟨-, hnone⟩ | ⟨first, rest, row', hparts, hrow', hrowCovers⟩ := hcovers.row task
  · rw [hnone] at hrow
    cases hrow
  · cases hrow'.symm.trans hrow
    rw [hparts]
    exact hrowCovers.coheres

/-- Two handles of one tally, each with a success that takes as long as a span can be. -/
def longUse : List Operation := [.record 0 longSuccess, .share 0, .record 1 longSuccess]

theorem rows_cohere_behind_fault : ∃ row, ((after longUse).report 0).row? "get_time" = some row ∧
    row.requests = 2 ∧ row.responses isGood = 1 ∧ row.Coheres 1 := by
  obtain ⟨row, hrow, hrequests, hgood⟩ : ∃ row,
      ((after longUse).report 0).row? "get_time" = some row ∧ row.requests = 2 ∧
        row.responses isGood = 1 := ⟨_, rfl, rfl, rfl⟩
  have hone : ((Tally.empty.history (recordingsBehind longUse 0)).ofTask "get_time").interrupted =
      1 := rfl
  exact ⟨row, hrow, hrequests, hgood, hone ▸ rows_cohere longUse 0 hrow⟩

end Registry
end OperatorKit.Load
