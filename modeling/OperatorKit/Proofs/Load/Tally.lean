import Mathlib.Data.String.Basic
import OperatorKit.Load.Tally
import OperatorKit.Proofs.Sorted

/-!
# What recording does to a tally

In a tally that was built up by recording, no count of a row exceeds its requests.
So there are three ways to record an outcome: it goes to all of the row of its
task, or the requests do not fit in their word and nothing changes, or the sum of
the times is no span and it is counted as a request and nothing else.
-/

namespace OperatorKit

theorem Span.add_eq_error {s t : Span} {e : Fault} (h : s.add t = .error e) :
    e = .spanOverflow := by
  simp only [Span.add] at h
  split at h
  case h_1 => cases h
  case h_2 =>
    cases h
    rfl

namespace Load

/-! ## Rows -/

namespace Row

/-- No count of a row exceeds its requests, and those fit in their word. -/
structure Counted (row : Row) : Prop where
  requests_lt : row.requests < countLimit
  failures_le : row.failures ≤ row.requests
  code_le (code : Nat) : (Sorted.find? code row.codes).getD 0 ≤ row.requests

theorem counted_fresh (q : Request) : (fresh q).Counted :=
  ⟨Nat.two_pow_pos 64, Nat.le_refl 0, by simp [fresh]⟩

/-- A row with one more request. -/
def withRequest (row : Row) (o : Outcome) : Row :=
  { row with
    requests := row.requests + 1
    failures := if o.succeeded then row.failures else row.failures + 1 }

/-- A row with one more outcome, the times of all adding up to `total`. -/
def withOutcome (row : Row) (o : Outcome) (total : Span) : Row :=
  { row.withRequest o with
    total
    shortest := row.shortest.min o.elapsed
    longest := row.longest.max o.elapsed
    codes := match o.status with
      | none      => row.codes
      | some code => Sorted.insert code ((Sorted.find? code row.codes).getD 0 + 1) row.codes }

variable {row : Row}

theorem addCounts_one {n : Nat} (h : n + 1 < countLimit) : addCounts n 1 = .ok (n + 1) := by
  simp [addCounts, h]

theorem Counted.withOutcome (h : row.Counted) (o : Outcome) (total : Span)
    (hfits : row.requests + 1 < countLimit) : (row.withOutcome o total).Counted where
  requests_lt := hfits
  failures_le := by
    have := h.failures_le
    simp only [Row.withOutcome, withRequest]
    split <;> omega
  code_le code := by
    have := h.code_le code
    simp only [Row.withOutcome, withRequest]
    split
    case h_1 => omega
    case h_2 code' _ =>
      rw [Sorted.find?_insert]
      split
      case isTrue heq =>
        subst heq
        simpa using this
      case isFalse => omega

/-- Recording stops at the requests, or at the sum of the times, or goes through. -/
theorem Counted.record_eq (h : row.Counted) (o : Outcome) :
    row.record o =
      if row.requests + 1 < countLimit then
        match row.total.add o.elapsed with
        | .error e  => (row.withRequest o, some e)
        | .ok total => (row.withOutcome o total, none)
      else (row, some .countOverflow) := by
  -- What has room for the requests has room for the failures and for each status.
  by_cases hfits : row.requests + 1 < countLimit
  · have htime : row.record o = (row.withRequest o).recordTime o := by
      have hfailures : row.failures + 1 < countLimit := by
        have := h.failures_le
        omega
      simp only [record, addCounts_one hfits, recordFailure, addCounts_one hfailures, withRequest]
      split <;> rfl
    rw [if_pos hfits, htime]
    simp only [recordTime, withRequest]
    cases row.total.add o.elapsed with
    | error e => rfl
    | ok total =>
      cases hstatus : o.status with
      | none => simp [recordCode, Row.withOutcome, withRequest, hstatus]
      | some code =>
        have hcode : (Sorted.find? code row.codes).getD 0 + 1 < countLimit := by
          have := h.code_le code
          omega
        simp [recordCode, addCounts_one hcode, Row.withOutcome, withRequest, hstatus]
  · simp [record, addCounts, hfits]

theorem Counted.withRequest (h : row.Counted) (o : Outcome)
    (hroom : row.requests + 1 < countLimit) : (row.withRequest o).Counted where
  requests_lt := hroom
  failures_le := by
    have hle := h.failures_le
    simp only [Row.withRequest]
    split <;> omega
  code_le code := Nat.le_succ_of_le (h.code_le code)

end Row

/-! ## Faults -/

/-- How far an outcome is recorded. -/
inductive Extent where
  /-- In all of its row. -/
  | whole
  /-- In the requests and failures only. -/
  | counts
  | nothing
  deriving DecidableEq, Repr

namespace Extent

/-- How far recording comes before a fault. -/
def ofFault : Option Fault → Extent
  | none               => whole
  | some .spanOverflow => counts
  | some _             => nothing

/-- The outcome is counted as a request. -/
def isCounted : Extent → Bool
  | whole | counts => true
  | nothing        => false

end Extent

/-! ## Tallies -/

namespace Tally

/-- The rows of a tally are in order, and each of them is counted. -/
structure Counted (t : Tally) : Prop where
  ascending : Sorted.Ascending t.rows
  row {task : String} {row : Row} : t.row? task = some row → row.Counted

/-- The requests that are counted for a task. -/
def requestsOf (t : Tally) (task : String) : Nat := ((t.row? task).map (·.requests)).getD 0

/-- The failures that are counted for a task. -/
def failuresOf (t : Tally) (task : String) : Nat := ((t.row? task).map (·.failures)).getD 0

/-- The requests that are counted in all rows. -/
def requestTotal (t : Tally) : Nat := (t.rows.map (·.2.requests)).sum

/-- The failures that are counted in all rows. -/
def failureTotal (t : Tally) : Nat := (t.rows.map (·.2.failures)).sum

theorem counted_empty : Tally.empty.Counted := ⟨List.Pairwise.nil, fun h => by cases h⟩

variable {t : Tally}

/-- The row of a task, or the one that it gets with its first outcome. -/
theorem Counted.getD_row (h : t.Counted) (task : String) (q : Request) :
    ((t.row? task).getD (.fresh q)).Counted := by
  cases hrow : t.row? task with
  | none => exact Row.counted_fresh q
  | some row => exact h.row hrow

theorem row?_insert (t : Tally) (task name : String) (row : Row) :
    (⟨Sorted.insert task row t.rows⟩ : Tally).row? name =
      if name = task then some row else t.row? name :=
  Sorted.find?_insert task name row t.rows

theorem Counted.insert (h : t.Counted) {task : String} {row : Row} (hrow : row.Counted) :
    (⟨Sorted.insert task row t.rows⟩ : Tally).Counted where
  ascending := h.ascending.insert task row
  row {name row'} hname := by
    rw [row?_insert] at hname
    split at hname
    case isTrue =>
      cases hname
      exact hrow
    case isFalse => exact h.row hname

/-! ## One recording -/

/-- A tally with another row for a task. -/
def put (t : Tally) (task : String) (row : Row) : Tally := ⟨Sorted.insert task row t.rows⟩

theorem row?_put (t : Tally) (task name : String) (row : Row) :
    (t.put task row).row? name = if name = task then some row else t.row? name :=
  row?_insert t task name row

theorem requestsOf_put (t : Tally) (task name : String) (row : Row) :
    (t.put task row).requestsOf name = if name = task then row.requests else t.requestsOf name := by
  rw [requestsOf, row?_put]
  split <;> rfl

theorem failuresOf_put (t : Tally) (task name : String) (row : Row) :
    (t.put task row).failuresOf name = if name = task then row.failures else t.failuresOf name := by
  rw [failuresOf, row?_put]
  split <;> rfl

/-- What recording an outcome of a task comes to, with the fault that stopped it. -/
inductive Records (t : Tally) (task : String) (q : Request) (o : Outcome) :
    Tally → Option Fault → Prop where
  | whole {row : Row} {total : Span} (hrow : (t.row? task).getD (.fresh q) = row)
      (hroom : row.requests + 1 < countLimit) (htotal : row.total.add o.elapsed = .ok total) :
      Records t task q o (t.put task (row.withOutcome o total)) none
  | counts {row : Row} (hrow : t.row? task = some row) (hroom : row.requests + 1 < countLimit)
      (htotal : row.total.add o.elapsed = .error .spanOverflow) :
      Records t task q o (t.put task (row.withRequest o)) (some .spanOverflow)
  | nothing {row : Row} (hrow : t.row? task = some row) (hfull : countLimit ≤ row.requests + 1) :
      Records t task q o t (some .countOverflow)

/-- A task without a row has room for its first outcome. -/
theorem room_of_first (q : Request) (o : Outcome) :
    (Row.fresh q).requests + 1 < countLimit ∧
      ∃ total, (Row.fresh q).total.add o.elapsed = .ok total := by
  refine ⟨Nat.one_lt_two_pow (by decide), ?_⟩
  have hlt : (Row.fresh q).total.nanos + o.elapsed.nanos < Span.limit :=
    (Nat.zero_add _).symm ▸ o.elapsed.nanos_lt
  exact ⟨⟨_, hlt⟩, by simp only [Span.add, Span.ofNanos?, dif_pos hlt]⟩

/-- Whatever is recorded in a tally that recording led to, it comes to one of three things. -/
theorem Counted.records (h : t.Counted) (task : String) (q : Request) (o : Outcome) :
    t.Records task q o (t.record task q o).1 (t.record task q o).2 := by
  cases hrow : t.row? task with
  | none =>
    obtain ⟨hroom, total, htotal⟩ := room_of_first q o
    have hrecord := (Row.counted_fresh q).record_eq o
    rw [if_pos hroom, htotal] at hrecord
    simp only [record, hrow, Option.getD_none, hrecord]
    exact .whole (by rw [hrow, Option.getD_none]) hroom htotal
  | some row =>
    have hrecord := (h.row hrow).record_eq o
    simp only [record, hrow, Option.getD_some]
    split at hrecord
    case isTrue hroom =>
      split at hrecord
      case h_1 fault htotal =>
        cases Span.add_eq_error htotal
        rw [hrecord]
        exact .counts hrow hroom htotal
      case h_2 total htotal =>
        rw [hrecord]
        exact .whole (by rw [hrow, Option.getD_some]) hroom htotal
    case isFalse hfull =>
      rw [hrecord, h.ascending.insert_of_find? hrow]
      exact .nothing hrow (Nat.le_of_not_lt hfull)

namespace Records

variable {t' : Tally} {task : String} {q : Request} {o : Outcome} {fault : Option Fault}

theorem counted (hrecords : t.Records task q o t' fault) (h : t.Counted) : t'.Counted := by
  cases hrecords with
  | whole hrow hroom htotal =>
    subst hrow
    exact h.insert ((h.getD_row task q).withOutcome o _ hroom)
  | counts hrow hroom htotal => exact h.insert ((h.row hrow).withRequest o hroom)
  | nothing hrow hfull => exact h

/-- An outcome that is counted is one more request of its task, and of no other. -/
theorem requestsOf_eq (hrecords : t.Records task q o t' fault) (name : String) :
    t'.requestsOf name = t.requestsOf name +
      if name = task ∧ (Extent.ofFault fault).isCounted = true then 1 else 0 := by
  cases hrecords with
  | whole hrow hroom htotal =>
    subst hrow
    rw [requestsOf_put]
    by_cases hname : name = task
    · subst hname
      rw [requestsOf]
      cases t.row? name <;> simp [Row.withOutcome, Row.withRequest, Row.fresh, Extent.ofFault,
        Extent.isCounted]
    · simp [hname]
  | counts hrow hroom htotal =>
    rw [requestsOf_put]
    by_cases hname : name = task
    · subst hname
      simp [requestsOf, hrow, Row.withRequest, Extent.ofFault, Extent.isCounted]
    · simp [hname]
  | nothing hrow hfull => simp [Extent.ofFault, Extent.isCounted]

/-- An outcome that is counted is one more failure of its task if it is no success. -/
theorem failuresOf_eq (hrecords : t.Records task q o t' fault) (name : String) :
    t'.failuresOf name = t.failuresOf name +
      if name = task ∧ (Extent.ofFault fault).isCounted = true ∧ o.succeeded = false then 1
      else 0 := by
  cases hrecords with
  | whole hrow hroom htotal =>
    subst hrow
    rw [failuresOf_put]
    by_cases hname : name = task
    · subst hname
      rw [failuresOf]
      cases hsucc : o.succeeded <;> cases t.row? name <;>
        simp [Row.withOutcome, Row.withRequest, Row.fresh, Extent.ofFault, Extent.isCounted, hsucc]
    · simp [hname]
  | counts hrow hroom htotal =>
    rw [failuresOf_put]
    by_cases hname : name = task
    · subst hname
      cases hsucc : o.succeeded <;>
        simp [failuresOf, hrow, Row.withRequest, Extent.ofFault, Extent.isCounted, hsucc]
    · simp [hname]
  | nothing hrow hfull => simp [Extent.ofFault, Extent.isCounted]

/-- A sum over all rows changes by what the row of the task changes. -/
theorem sum_eq (hrecords : t.Records task q o t' fault) (h : t.Counted) (f : Row → Nat) :
    (t'.rows.map fun e => f e.2).sum + ((t.row? task).map f).getD 0 =
      (t.rows.map fun e => f e.2).sum + ((t'.row? task).map f).getD 0 := by
  cases hrecords with
  | whole | counts =>
    rw [row?_put, if_pos rfl]
    exact h.ascending.sum_insert f task _
  | nothing => rfl

/-- An outcome that is counted is one more request in all. -/
theorem requestTotal_eq (hrecords : t.Records task q o t' fault) (h : t.Counted) :
    t'.requestTotal = t.requestTotal + if (Extent.ofFault fault).isCounted then 1 else 0 := by
  have hrow := hrecords.requestsOf_eq task
  have hsum := hrecords.sum_eq h (·.requests)
  simp only [requestsOf, true_and] at hrow
  simp only [requestTotal]
  omega

/-- An outcome that is counted is one more failure in all if it is no success. -/
theorem failureTotal_eq (hrecords : t.Records task q o t' fault) (h : t.Counted) :
    t'.failureTotal = t.failureTotal +
      if (Extent.ofFault fault).isCounted = true ∧ o.succeeded = false then 1 else 0 := by
  have hrow := hrecords.failuresOf_eq task
  have hsum := hrecords.sum_eq h (·.failures)
  simp only [failuresOf, true_and] at hrow
  simp only [failureTotal]
  omega

/-- A new row is that of a task whose outcome is counted. -/
theorem row?_isSome (hrecords : t.Records task q o t' fault) {name : String}
    (hsome : (t'.row? name).isSome) :
    (t.row? name).isSome ∨ name = task ∧ (Extent.ofFault fault).isCounted = true := by
  cases hrecords with
  | whole hrow hroom htotal | counts hrow hroom htotal =>
    rw [row?_put] at hsome
    split at hsome
    case isTrue hname => exact .inr ⟨hname, rfl⟩
    case isFalse => exact .inl hsome
  | nothing hrow hfull => exact .inl hsome

/-- Every row counts a request, if this was so before. -/
theorem requestsOf_pos (hrecords : t.Records task q o t' fault)
    (h : ∀ name, (t.row? name).isSome → 0 < t.requestsOf name) (name : String)
    (hsome : (t'.row? name).isSome) : 0 < t'.requestsOf name := by
  rw [hrecords.requestsOf_eq]
  obtain hsome | hname := hrecords.row?_isSome hsome
  · exact Nat.add_pos_left (h name hsome) _
  · rw [if_pos hname]
    exact Nat.succ_pos _

end Records

end Tally
end Load
end OperatorKit
