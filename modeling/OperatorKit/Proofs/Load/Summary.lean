import Mathlib.Algebra.BigOperators.Group.List.Basic
import OperatorKit.Proofs.Load.Tally

/-!
# Tallies as summaries

A row summarizes the outcomes that were recorded in it: it has their number, the
sum, the least and the greatest of their times, and the number of those with each
status. A tally summarizes what was recorded for all tasks, each task in a row of
its own. Such a tally is known from what was recorded, in whatever order it was.
-/

namespace OperatorKit

/-! ## Least and greatest spans -/

namespace Span

variable {s t u : Span} {ss : List Span}

/-- A span is one of some spans, and none of them is shorter. -/
def IsLeastOf (s : Span) (ss : List Span) : Prop := s ∈ ss ∧ ∀ t ∈ ss, s ≤ t

/-- A span is one of some spans, and none of them is longer. -/
def IsGreatestOf (s : Span) (ss : List Span) : Prop := s ∈ ss ∧ ∀ t ∈ ss, t ≤ s

theorem isLeastOf_min_longest (t : Span) : (longest.min t).IsLeastOf [t] := by
  have hmin : longest.min t = t := by
    unfold Span.min
    split
    case isTrue hle =>
      have := t.nanos_lt
      refine Span.ext ?_
      simp only [le_def, longest] at hle ⊢
      omega
    case isFalse => rfl
  rw [hmin]
  exact ⟨List.mem_singleton_self t, fun u hu => by simp [List.mem_singleton.mp hu]⟩

theorem isGreatestOf_max_zero (t : Span) : (zero.max t).IsGreatestOf [t] := by
  have hmax : zero.max t = t := if_pos (Nat.zero_le t.nanos)
  rw [hmax]
  exact ⟨List.mem_singleton_self t, fun u hu => by simp [List.mem_singleton.mp hu]⟩

theorem IsLeastOf.append (h : s.IsLeastOf ss) (t : Span) : (s.min t).IsLeastOf (ss ++ [t]) := by
  obtain ⟨hmem, hle⟩ := h
  simp only [IsLeastOf, List.forall_mem_append, List.forall_mem_singleton, Span.min]
  split
  case isTrue hst => exact ⟨List.mem_append_left _ hmem, hle, hst⟩
  case isFalse hst =>
    simp only [le_def] at hst hle ⊢
    refine ⟨List.mem_append_right _ (List.mem_singleton_self t), fun u hu => ?_, Nat.le_refl _⟩
    have := hle u hu
    omega

theorem IsGreatestOf.append (h : s.IsGreatestOf ss) (t : Span) :
    (s.max t).IsGreatestOf (ss ++ [t]) := by
  obtain ⟨hmem, hle⟩ := h
  simp only [IsGreatestOf, List.forall_mem_append, List.forall_mem_singleton, Span.max]
  split
  case isTrue hst =>
    simp only [le_def] at hst hle ⊢
    refine ⟨List.mem_append_right _ (List.mem_singleton_self t), fun u hu => ?_, Nat.le_refl _⟩
    exact Nat.le_trans (hle u hu) hst
  case isFalse hst =>
    refine ⟨List.mem_append_left _ hmem, hle, ?_⟩
    simpa using Nat.le_of_not_le hst

theorem IsLeastOf.eq_of_perm {ss' : List Span} (h : s.IsLeastOf ss) (h' : t.IsLeastOf ss')
    (hperm : ss.Perm ss') : s = t :=
  Span.ext (Nat.le_antisymm (h.2 t (hperm.mem_iff.mpr h'.1)) (h'.2 s (hperm.mem_iff.mp h.1)))

theorem IsGreatestOf.eq_of_perm {ss' : List Span} (h : s.IsGreatestOf ss)
    (h' : t.IsGreatestOf ss') (hperm : ss.Perm ss') : s = t :=
  Span.ext (Nat.le_antisymm (h'.2 s (hperm.mem_iff.mp h.1)) (h.2 t (hperm.mem_iff.mpr h'.1)))

theorem nanos_of_add (h : s.add t = .ok u) : u.nanos = s.nanos + t.nanos := by
  unfold Span.add at h
  split at h
  case h_1 hsum =>
    cases h
    exact (ofNanos?_eq_some.mp hsum).symm
  case h_2 => cases h

end Span

namespace Load

/-- What is handed over to a tally. -/
structure Recording where
  task : String
  request : Request
  outcome : Outcome

/-- The recordings of a task. -/
def Recording.ofTask (task : String) (es : List Recording) : List Recording :=
  es.filter (·.task == task)

theorem Recording.ofTask_append_singleton (task : String) (es : List Recording) (e : Recording) :
    ofTask task (es ++ [e]) = ofTask task es ++ if e.task = task then [e] else [] := by
  rw [ofTask, List.filter_append, List.filter_singleton]
  by_cases htask : e.task = task
  · rw [if_pos htask, beq_iff_eq.mpr htask]
    rfl
  · rw [if_neg htask, beq_eq_false_iff_ne.mpr htask]
    rfl

theorem Outcome.succeeded_eq_any (o : Outcome) :
    o.succeeded = o.status.any fun code => decide (200 ≤ code) && decide (code < 400) := by
  cases hstatus : o.status <;> simp [succeeded, isSuccess, hstatus]

/-! ## Rows -/

namespace Row

/-- A row holds what is to be said about outcomes, of which the first was that of a request. -/
structure Summarizes (row : Row) (first : Request) (os : List Outcome) : Prop where
  method : row.method = first.method
  path : row.path = first.path
  requests : row.requests = os.length
  failures : row.failures = os.countP fun o =>
    !o.status.any fun code => decide (200 ≤ code) && decide (code < 400)
  total : row.total.nanos = (os.map (·.elapsed.nanos)).sum
  shortest : row.shortest.IsLeastOf (os.map (·.elapsed))
  longest : row.longest.IsGreatestOf (os.map (·.elapsed))
  ascending : Sorted.Ascending row.codes
  codes (code n : Nat) :
    Sorted.find? code row.codes = some n ↔ 0 < n ∧ os.countP (·.status == some code) = n

variable {row row' : Row} {first first' : Request} {os os' : List Outcome} {o : Outcome}
  {total : Span}

/-- The codes of a row behind one more outcome. -/
theorem find?_codes_withOutcome
    (h : ∀ code n, Sorted.find? code row.codes = some n ↔
      0 < n ∧ os.countP (·.status == some code) = n)
    (o : Outcome) (total : Span) (code n : Nat) :
    Sorted.find? code (row.withOutcome o total).codes = some n ↔
      0 < n ∧ (os ++ [o]).countP (·.status == some code) = n := by
  rw [List.countP_append, List.countP_singleton]
  cases hstatus : o.status with
  | none => simp [withOutcome, withRequest, hstatus, h]
  | some new =>
    have hcount : (Sorted.find? new row.codes).getD 0 = os.countP (·.status == some new) := by
      cases hfind : Sorted.find? new row.codes with
      | none =>
        -- A status that came back would have an entry.
        refine (Nat.eq_zero_of_not_pos fun hpos => ?_).symm
        rw [(h new _).mpr ⟨hpos, rfl⟩] at hfind
        cases hfind
      | some m => exact ((h new m).mp hfind).2.symm
    simp only [withOutcome, withRequest, hstatus, Sorted.find?_insert]
    by_cases hcode : code = new
    · subst hcode
      simp only [if_true, hcount, Option.some.injEq, beq_self_eq_true]
      omega
    · rw [if_neg hcode, if_neg (by simpa using Ne.symm hcode), Nat.add_zero]
      exact h code n

theorem ascending_codes_withOutcome (h : Sorted.Ascending row.codes) (o : Outcome) (total : Span) :
    Sorted.Ascending (row.withOutcome o total).codes := by
  cases hstatus : o.status with
  | none => simpa [withOutcome, withRequest, hstatus] using h
  | some code => simpa [withOutcome, withRequest, hstatus] using h.insert code _

theorem failures_withOutcome (row : Row) (o : Outcome) (total : Span) :
    (row.withOutcome o total).failures = row.failures + [o].countP fun o =>
      !o.status.any fun code => decide (200 ≤ code) && decide (code < 400) := by
  simp only [withOutcome, withRequest, List.countP_singleton, o.succeeded_eq_any]
  cases o.status.any fun code => decide (200 ≤ code) && decide (code < 400) <;> rfl

theorem summarizes_first (htotal : total.nanos = o.elapsed.nanos) :
    ((fresh first).withOutcome o total).Summarizes first [o] where
  method := rfl
  path := rfl
  requests := rfl
  failures := (failures_withOutcome (fresh first) o total).trans (Nat.zero_add _)
  total := by simpa [withOutcome] using htotal
  shortest := Span.isLeastOf_min_longest o.elapsed
  longest := Span.isGreatestOf_max_zero o.elapsed
  ascending := by
    have hnone : Sorted.Ascending (fresh first).codes := List.Pairwise.nil
    exact ascending_codes_withOutcome hnone o total
  codes := by
    have hnone : ∀ code n, Sorted.find? code (fresh first).codes = some n ↔
        0 < n ∧ ([] : List Outcome).countP (·.status == some code) = n := by
      intro code n
      simp only [fresh, Sorted.find?_nil, List.countP_nil, reduceCtorEq, false_iff]
      omega
    exact find?_codes_withOutcome hnone o total

theorem Summarizes.withOutcome (h : row.Summarizes first os)
    (htotal : total.nanos = row.total.nanos + o.elapsed.nanos) :
    (row.withOutcome o total).Summarizes first (os ++ [o]) where
  method := h.method
  path := h.path
  requests := by simp [Row.withOutcome, withRequest, h.requests]
  failures := by rw [failures_withOutcome, List.countP_append, h.failures]
  total := by simp [Row.withOutcome, htotal, h.total]
  shortest := by simpa [Row.withOutcome] using h.shortest.append o.elapsed
  longest := by simpa [Row.withOutcome] using h.longest.append o.elapsed
  ascending := ascending_codes_withOutcome h.ascending o total
  codes := find?_codes_withOutcome h.codes o total

theorem Summarizes.failures_le (h : row.Summarizes first os) : row.failures ≤ row.requests := by
  rw [h.failures, h.requests]
  exact List.countP_le_length

theorem Summarizes.counted (h : row.Summarizes first os) (hfits : row.requests < countLimit) :
    row.Counted where
  requests_lt := hfits
  failures_le := h.failures_le
  code_le code := by
    cases hfind : Sorted.find? code row.codes with
    | none => exact Nat.zero_le _
    | some n =>
      rw [h.requests, Option.getD_some, ← ((h.codes code n).mp hfind).2]
      exact List.countP_le_length

/-- An outcome that is recorded without a fault is added to a row. -/
theorem record_eq_withOutcome (hcounted : row.requests < countLimit → row.Counted)
    (hrecord : row.record o = (row', none)) :
    ∃ total, row.total.add o.elapsed = .ok total ∧ row' = row.withOutcome o total := by
  by_cases hfits : row.requests + 1 < countLimit
  · rw [(hcounted (Nat.lt_of_succ_lt hfits)).record_eq, if_pos hfits] at hrecord
    split at hrecord
    case h_1 => cases hrecord
    case h_2 total htotal =>
      cases hrecord
      exact ⟨total, htotal, rfl⟩
  · simp [record, addCounts, hfits] at hrecord

/-- Rows that summarize the same outcomes in any order are equal, if their requests are
alike. -/
theorem Summarizes.eq_of_perm (h : row.Summarizes first os) (h' : row'.Summarizes first' os')
    (hperm : os.Perm os') (hmethod : first.method = first'.method)
    (hpath : first.path = first'.path) : row = row' := by
  have hcodes : row.codes = row'.codes := by
    refine h.ascending.ext h'.ascending fun code => Option.ext fun n => ?_
    rw [h.codes, h'.codes, hperm.countP_eq]
  have htotal : row.total = row'.total := by
    refine Span.ext ?_
    rw [h.total, h'.total, (hperm.map _).sum_eq]
  have hshortest := h.shortest.eq_of_perm h'.shortest (hperm.map _)
  have hlongest := h.longest.eq_of_perm h'.longest (hperm.map _)
  have hrequests : row.requests = row'.requests := by
    rw [h.requests, h'.requests, hperm.length_eq]
  have hfailures : row.failures = row'.failures := by
    rw [h.failures, h'.failures, hperm.countP_eq]
  have hmethod : row.method = row'.method := by rw [h.method, h'.method, hmethod]
  have hpath : row.path = row'.path := by rw [h.path, h'.path, hpath]
  cases row
  cases row'
  simp_all

end Row

/-! ## Tallies -/

namespace Tally

/-- A tally has a row for each task of which something was recorded, and for no other, and
the row summarizes what was recorded of the task. -/
structure Summarizes (t : Tally) (es : List Recording) : Prop where
  ascending : Sorted.Ascending t.rows
  row (task : String) :
    (Recording.ofTask task es = [] ∧ t.row? task = none) ∨
    ∃ first rest row, Recording.ofTask task es = first :: rest ∧ t.row? task = some row ∧
      row.Summarizes first.request ((first :: rest).map (·.outcome))

variable {t t' : Tally} {es es' : List Recording}

theorem summarizes_empty : Tally.empty.Summarizes [] :=
  ⟨List.Pairwise.nil, fun _ => .inl ⟨rfl, rfl⟩⟩

theorem record_eq_insert {task : String} {q : Request} {o : Outcome}
    (h : t.record task q o = (t', none)) :
    ∃ row, ((t.row? task).getD (.fresh q)).record o = (row, none) ∧
      t' = ⟨Sorted.insert task row t.rows⟩ := by
  unfold record at h
  rcases hrecord : ((t.row? task).getD (.fresh q)).record o with ⟨row, fault⟩
  rw [hrecord] at h
  cases h
  exact ⟨row, rfl, rfl⟩

/-- What is recorded without a fault is added to what a tally summarizes. -/
theorem Summarizes.record (h : t.Summarizes es) (e : Recording)
    (hrecord : t.record e.task e.request e.outcome = (t', none)) : t'.Summarizes (es ++ [e]) := by
  obtain ⟨row', hrow', rfl⟩ := record_eq_insert hrecord
  refine ⟨h.ascending.insert e.task row', fun task => ?_⟩
  rw [row?_insert, Recording.ofTask_append_singleton]
  by_cases htask : task = e.task
  · rw [if_pos htask, if_pos htask.symm, htask]
    obtain ⟨hnone, hrow⟩ | ⟨first, rest, row, hsome, hrow, hsummary⟩ := h.row e.task
    · -- The first recording of a task makes its row.
      rw [hrow, Option.getD_none] at hrow'
      obtain ⟨total, htotal, rfl⟩ :=
        Row.record_eq_withOutcome (fun _ => Row.counted_fresh e.request) hrow'
      refine .inr ⟨e, [], _, ?_, rfl, Row.summarizes_first ?_⟩
      · rw [hnone, List.nil_append]
      · exact (Span.nanos_of_add htotal).trans (Nat.zero_add _)
    · rw [hrow, Option.getD_some] at hrow'
      obtain ⟨total, htotal, rfl⟩ := Row.record_eq_withOutcome hsummary.counted hrow'
      refine .inr ⟨first, rest ++ [e], _, ?_, rfl, ?_⟩
      · rw [hsome, List.cons_append]
      · have := hsummary.withOutcome (Span.nanos_of_add htotal)
        simpa using this
  · rw [if_neg htask, if_neg (Ne.symm htask), List.append_nil]
    exact h.row task

/-- Tallies that summarize the same recordings in any order are equal, if a task's requests
are all alike. -/
theorem Summarizes.eq_of_perm (h : t.Summarizes es) (h' : t'.Summarizes es')
    (hperm : es.Perm es')
    (halike : ∀ e ∈ es, ∀ e' ∈ es, e.task = e'.task →
      e.request.method = e'.request.method ∧ e.request.path = e'.request.path) : t = t' := by
  suffices hrows : t.rows = t'.rows by
    cases t
    cases t'
    exact congrArg Tally.mk hrows
  refine h.ascending.ext h'.ascending fun task => ?_
  have htask : (Recording.ofTask task es).Perm (Recording.ofTask task es') := hperm.filter _
  obtain ⟨hnone, hrow⟩ | ⟨first, rest, row, hsome, hrow, hsummary⟩ := h.row task
  · obtain ⟨-, hrow'⟩ | ⟨first', rest', -, hsome', -⟩ := h'.row task
    · exact hrow.trans hrow'.symm
    · rw [hnone, hsome'] at htask
      exact absurd htask.nil_eq (List.cons_ne_nil _ _).symm
  · obtain ⟨hnone', -⟩ | ⟨first', rest', row', hsome', hrow', hsummary'⟩ := h'.row task
    · rw [hnone', hsome] at htask
      exact absurd htask.eq_nil (List.cons_ne_nil _ _)
    · -- Both first recordings are of the task, so their requests are alike.
      have hfirst : first ∈ Recording.ofTask task es := hsome ▸ List.mem_cons_self
      have hfirst' : first' ∈ Recording.ofTask task es :=
        htask.mem_iff.mpr (hsome' ▸ List.mem_cons_self)
      obtain ⟨hmem, hname⟩ := List.mem_filter.mp hfirst
      obtain ⟨hmem', hname'⟩ := List.mem_filter.mp hfirst'
      obtain ⟨hmethod, hpath⟩ := halike first hmem first' hmem'
        ((beq_iff_eq.mp hname).trans (beq_iff_eq.mp hname').symm)
      rw [hsome, hsome'] at htask
      have heq := hsummary.eq_of_perm hsummary' (htask.map _) hmethod hpath
      exact hrow.trans (heq ▸ hrow'.symm)

end Tally
end Load
end OperatorKit
