import Mathlib.Algebra.Group.Action.Defs
import Mathlib.Algebra.Order.BigOperators.Group.List
import OperatorKit.Load.Report
import OperatorKit.Proofs.Load.Sharing

/-!
# Averages

The count that divides the sum of the times has 32 bits. Of fewer requests than that
word holds, the average is the mean of their times, rounded down. A multiple of
`2 ^ 32` requests has no average, and a report with such a row in it has no text. In
between, the average is longer than the mean, if the requests took any time.
-/

namespace OperatorKit.Load

/-- The first count that a sum of times cannot be divided by. -/
abbrev divisorLimit : Nat := 2 ^ 32

/-- What is divided by the rest of a divisor beyond a limit comes out greater. -/
theorem div_lt_div_mod {limit k n : Nat} (hlimit : 0 < limit) (hk : limit ≤ k) (hn : k ≤ n)
    (hrest : 0 < k % limit) : n / k < n / (k % limit) := by
  have hquotient : 0 < n / k := Nat.div_pos hn (Nat.lt_of_lt_of_le hlimit hk)
  have hparts : k % limit + limit ≤ k := by
    have hsplit := Nat.mod_add_div k limit
    have hwhole := Nat.le_mul_of_pos_right limit (Nat.div_pos hk hlimit)
    omega
  apply (Nat.le_div_iff_mul_le hrest).mpr
  calc (n / k + 1) * (k % limit)
      = n / k * (k % limit) + k % limit := Nat.succ_mul _ _
    _ ≤ n / k * (k % limit) + n / k * limit :=
        Nat.add_le_add_left (Nat.le_trans (Nat.le_of_lt (Nat.mod_lt k hlimit))
          (Nat.le_mul_of_pos_left limit hquotient)) _
    _ = n / k * (k % limit + limit) := (Nat.mul_add _ _ _).symm
    _ ≤ n / k * k := Nat.mul_le_mul_left _ hparts
    _ ≤ n := Nat.div_mul_le_self n k

/-! ## Rows -/

namespace Row

/-- The mean of the times that are added up in a row, in nanoseconds and rounded down. -/
def mean (row : Row) : Nat := row.total.nanos / row.requests

variable {row : Row} {first : Request} {os : List Outcome} {a : Span} {fault : Fault}

theorem average_of_pos (hpos : 0 < row.requests) :
    row.average = row.total.divide (row.requests % divisorLimit) :=
  if_neg (Nat.ne_of_gt hpos)

/-- The average of a row with requests is missing at the multiples of a word. -/
theorem average_eq_error_iff (hpos : 0 < row.requests) :
    row.average = .error fault ↔ divisorLimit ∣ row.requests ∧ fault = .spanOverZero := by
  rw [average_of_pos hpos, Nat.dvd_iff_mod_eq_zero]
  unfold Span.divide
  split
  case isTrue hzero =>
    rw [Except.error.injEq, eq_comm]
    exact (and_iff_right hzero).symm
  case isFalse hzero =>
    apply iff_of_false
    · intro h
      cases h
    · intro h
      exact hzero h.1

theorem nanos_of_average (hpos : 0 < row.requests) (h : row.average = .ok a) :
    0 < row.requests % divisorLimit ∧
      a.nanos = row.total.nanos / (row.requests % divisorLimit) := by
  rw [average_of_pos hpos] at h
  unfold Span.divide at h
  split at h
  case isTrue => cases h
  case isFalse hzero =>
    cases h
    exact ⟨Nat.pos_of_ne_zero hzero, rfl⟩

/-- Below the word the average is the mean. -/
theorem average_eq_mean (hpos : 0 < row.requests) (hlt : row.requests < divisorLimit) :
    ∃ a, row.average = .ok a ∧ a.nanos = row.mean := by
  cases haverage : row.average with
  | error fault =>
    obtain ⟨hdvd, -⟩ := (average_eq_error_iff hpos).mp haverage
    exact absurd (Nat.le_of_dvd hpos hdvd) (Nat.not_le_of_lt hlt)
  | ok a =>
    obtain ⟨-, hnanos⟩ := nanos_of_average hpos haverage
    rw [Nat.mod_eq_of_lt hlt] at hnanos
    exact ⟨a, rfl, hnanos⟩

/-- From the word on, an average is longer than the mean, if that is a nanosecond at least. -/
theorem mean_lt_average (hword : divisorLimit ≤ row.requests)
    (htotal : row.requests ≤ row.total.nanos) (h : row.average = .ok a) : row.mean < a.nanos := by
  have hlimit : 0 < divisorLimit := Nat.two_pow_pos 32
  obtain ⟨hrest, hnanos⟩ := nanos_of_average (Nat.lt_of_lt_of_le hlimit hword) h
  rw [hnanos]
  exact div_lt_div_mod hlimit hword htotal hrest

namespace Summarizes

theorem requests_pos (h : row.Summarizes first os) : 0 < row.requests := by
  rw [h.requests]
  obtain ⟨o, hmem, -⟩ := List.mem_map.mp h.shortest.1
  exact List.length_pos_of_mem hmem

/-- No time that is added up in a row is below the shortest. -/
theorem requests_mul_shortest_le (h : row.Summarizes first os) :
    row.requests * row.shortest.nanos ≤ row.total.nanos := by
  have hleast : ∀ n ∈ os.map (·.elapsed.nanos), row.shortest.nanos ≤ n := by
    intro n hn
    obtain ⟨o, hmem, rfl⟩ := List.mem_map.mp hn
    exact h.shortest.2 _ (List.mem_map_of_mem hmem)
  have hsum := List.card_nsmul_le_sum _ _ hleast
  rwa [List.length_map, smul_eq_mul, ← h.requests, ← h.total] at hsum

/-- No time that is added up in a row is above the longest. -/
theorem total_le_requests_mul_longest (h : row.Summarizes first os) :
    row.total.nanos ≤ row.requests * row.longest.nanos := by
  have hgreatest : ∀ n ∈ os.map (·.elapsed.nanos), n ≤ row.longest.nanos := by
    intro n hn
    obtain ⟨o, hmem, rfl⟩ := List.mem_map.mp hn
    exact h.longest.2 _ (List.mem_map_of_mem hmem)
  have hsum := List.sum_le_card_nsmul _ _ hgreatest
  rwa [List.length_map, smul_eq_mul, ← h.requests, ← h.total] at hsum

/-- The mean lies between the shortest time and the longest. -/
theorem mean_bounds (h : row.Summarizes first os) :
    row.shortest.nanos ≤ row.mean ∧ row.mean ≤ row.longest.nanos := by
  constructor
  · apply (Nat.le_div_iff_mul_le h.requests_pos).mpr
    rw [Nat.mul_comm]
    exact h.requests_mul_shortest_le
  · exact Nat.div_le_of_le_mul h.total_le_requests_mul_longest

end Summarizes

end Row

/-! ## Reports -/

/-- Counts add up as long as their sum fits in the word. -/
theorem sumCounts_eq (start : Nat) (ns : List Nat) (hstart : start < countLimit) :
    sumCounts start ns =
      if start + ns.sum < countLimit then .ok (start + ns.sum) else .error .countOverflow := by
  induction ns generalizing start with
  | nil => exact (if_pos hstart).symm
  | cons n ns ih =>
    rw [List.sum_cons, ← Nat.add_assoc]
    by_cases hfits : start + n < countLimit
    · simp only [sumCounts, addCounts, if_pos hfits]
      exact ih _ hfits
    · simp only [sumCounts, addCounts, if_neg hfits]
      exact (if_neg fun hsum => hfits (Nat.lt_of_add_right_lt hsum)).symm

namespace Report

variable {fault : Fault}

/-- The lines of a row have no value if its average has none. -/
theorem rowLines_eq_error_iff (task : String) (row : Row) :
    rowLines task row = .error fault ↔ row.average = .error fault := by
  unfold rowLines
  cases row.average with
  | error e => simp only [Except.error.injEq]
  | ok a => exact iff_of_false nofun nofun

/-- The table is missing if there is a row without an average. -/
theorem tableLines_eq_error_iff (rows : List (String × Row))
    (hpos : ∀ entry ∈ rows, 0 < entry.2.requests) :
    tableLines rows = .error fault ↔
      (∃ entry ∈ rows, divisorLimit ∣ entry.2.requests) ∧ fault = .spanOverZero := by
  induction rows with
  | nil => exact iff_of_false nofun fun h => by simp at h
  | cons entry rows ih =>
    obtain ⟨task, row⟩ := entry
    obtain ⟨hrow, hrest⟩ := List.forall_mem_cons.mp hpos
    have haverage (fault : Fault) : rowLines task row = .error fault ↔
        divisorLimit ∣ row.requests ∧ fault = .spanOverZero :=
      (rowLines_eq_error_iff task row).trans (Row.average_eq_error_iff hrow)
    simp only [List.exists_mem_cons_iff, tableLines]
    cases hlines : rowLines task row with
    | error e =>
      -- The first row without an average is the end of it.
      obtain ⟨hdvd, rfl⟩ := (haverage e).mp hlines
      rw [Except.error.injEq, eq_comm]
      exact (and_iff_right (.inl hdvd)).symm
    | ok lines =>
      have hdvd : ¬ divisorLimit ∣ row.requests := by
        intro hdvd
        have := (haverage .spanOverZero).mpr ⟨hdvd, rfl⟩
        rw [hlines] at this
        cases this
      rw [or_iff_right hdvd, ← ih hrest]
      cases tableLines rows with
      | error e => exact Iff.rfl
      | ok more => exact iff_of_false nofun nofun

/-- The line of the sums is missing if all requests do not fit in the word. The failures are
never more than those. -/
theorem totalLine_eq_error_iff (t : Tally)
    (hfailures : ∀ entry ∈ t.rows, entry.2.failures ≤ entry.2.requests) :
    totalLine t = .error fault ↔ countLimit ≤ t.requestTotal ∧ fault = .countOverflow := by
  have hrequests := sumCounts_eq 0 (t.rows.map (·.2.requests)) (Nat.two_pow_pos 64)
  have hfailed := sumCounts_eq 0 (t.rows.map (·.2.failures)) (Nat.two_pow_pos 64)
  have hle : (t.rows.map (·.2.failures)).sum ≤ t.requestTotal := List.sum_le_sum hfailures
  rw [Nat.zero_add, ← Tally.requests, ← Tally.requestTotal] at hrequests
  rw [Nat.zero_add, ← Tally.failures] at hfailed
  unfold totalLine
  by_cases hfits : t.requestTotal < countLimit
  · rw [hrequests, if_pos hfits, hfailed, if_pos (Nat.lt_of_le_of_lt hle hfits)]
    apply iff_of_false
    · intro h
      cases h
    · intro h
      exact Nat.not_le_of_lt hfits h.1
  · rw [hrequests, if_neg hfits]
    simp only [Except.error.injEq, Nat.le_of_not_lt hfits, true_and, eq_comm]

end Report

namespace Tally

variable {t : Tally} {es : List Recording} {fault : Fault}

/-- Every row of a tally summarizes outcomes. -/
theorem Summarizes.of_mem_rows (h : t.Summarizes es) {entry : String × Row}
    (hmem : entry ∈ t.rows) : ∃ first os, entry.2.Summarizes first os := by
  obtain ⟨task, row⟩ := entry
  have hfind : t.row? task = some row := h.ascending.find?_of_mem hmem
  obtain ⟨-, hnone⟩ | ⟨first, rest, row', -, hsome, hrow⟩ := h.row task
  · rw [hfind] at hnone
    cases hnone
  · rw [hfind] at hsome
    cases hsome
    exact ⟨_, _, hrow⟩

/-- What it takes for a report to have a text: an average in each row, and room for the sum of
all requests. -/
theorem Summarizes.report_eq_error_iff (h : t.Summarizes es) (finishedAt : String) :
    t.report finishedAt = .error fault ↔
      (∃ entry ∈ t.rows, divisorLimit ∣ entry.2.requests) ∧ fault = .spanOverZero ∨
      (∀ entry ∈ t.rows, ¬ divisorLimit ∣ entry.2.requests) ∧
        countLimit ≤ t.requestTotal ∧ fault = .countOverflow := by
  have hpos : ∀ entry ∈ t.rows, 0 < entry.2.requests := by
    intro entry hmem
    obtain ⟨first, os, hrow⟩ := h.of_mem_rows hmem
    exact hrow.requests_pos
  have hfailures : ∀ entry ∈ t.rows, entry.2.failures ≤ entry.2.requests := by
    intro entry hmem
    obtain ⟨first, os, hrow⟩ := h.of_mem_rows hmem
    exact hrow.failures_le
  have htable (fault : Fault) : Report.tableLines t.rows = .error fault ↔
      (∃ entry ∈ t.rows, divisorLimit ∣ entry.2.requests) ∧ fault = .spanOverZero :=
    Report.tableLines_eq_error_iff t.rows hpos
  have htotal : Report.totalLine t = .error fault ↔
      countLimit ≤ t.requestTotal ∧ fault = .countOverflow :=
    Report.totalLine_eq_error_iff t hfailures
  unfold report Report.lines
  cases hlines : Report.tableLines t.rows with
  | error e =>
    obtain ⟨⟨entry, hmem, hdvd⟩, rfl⟩ := (htable e).mp hlines
    have hsome : ¬ ∀ entry ∈ t.rows, ¬ divisorLimit ∣ entry.2.requests :=
      fun hnone => hnone entry hmem hdvd
    simp only [hsome, false_and, or_false, Except.error.injEq]
    rw [eq_comm]
    exact (and_iff_right ⟨entry, hmem, hdvd⟩).symm
  | ok table =>
    have hnone : ∀ entry ∈ t.rows, ¬ divisorLimit ∣ entry.2.requests := by
      intro entry hmem hdvd
      have := (htable .spanOverZero).mpr ⟨⟨entry, hmem, hdvd⟩, rfl⟩
      rw [hlines] at this
      cases this
    have hsome : ¬ ∃ entry ∈ t.rows, divisorLimit ∣ entry.2.requests :=
      fun ⟨entry, hmem, hdvd⟩ => hnone entry hmem hdvd
    simp only [hsome, false_and, false_or]
    rw [and_iff_right hnone, ← htotal]
    cases Report.totalLine t with
    | error e => simp only [Except.error.injEq]
    | ok total => exact iff_of_false nofun nofun

end Tally

/-! ## Recordings that fit -/

theorem Row.Counted.record_of_fits {row : Row} (h : row.Counted) (o : Outcome)
    (hcount : row.requests + 1 < countLimit)
    (htime : row.total.nanos + o.elapsed.nanos < Span.limit) :
    ∃ row', row.record o = (row', none) := by
  have htotal : row.total.add o.elapsed = .ok ⟨row.total.nanos + o.elapsed.nanos, htime⟩ := by
    simp only [Span.add, Span.ofNanos?, dif_pos htime]
  rw [h.record_eq o, if_pos hcount, htotal]
  exact ⟨_, rfl⟩

/-- The times of recordings, added up. -/
def Recording.elapsedTotal (es : List Recording) : Nat := (es.map (·.outcome.elapsed.nanos)).sum

open Recording (elapsedTotal)

/-- What fits in the counts and in the sum of the times is recorded without a fault. -/
theorem Tally.Summarizes.record_of_fits {t : Tally} {es : List Recording} (h : t.Summarizes es)
    (e : Recording) (hcount : es.length + 1 < countLimit)
    (htime : elapsedTotal es + e.outcome.elapsed.nanos < Span.limit) :
    ∃ t', t.record e.task e.request e.outcome = (t', none) := by
  suffices hrow : ∃ row, ((t.row? e.task).getD (.fresh e.request)).record e.outcome = (row, none) by
    obtain ⟨row, hrow⟩ := hrow
    exact ⟨⟨Sorted.insert e.task row t.rows⟩, by simp only [Tally.record, hrow]⟩
  have hpart : (Recording.ofTask e.task es).Sublist es := List.filter_sublist
  obtain ⟨-, hnone⟩ | ⟨first, rest, row, htask, hsome, hrow⟩ := h.row e.task
  · rw [hnone]
    apply (Row.counted_fresh e.request).record_of_fits
    · exact Nat.one_lt_two_pow (by decide)
    · exact (Nat.zero_add _).symm ▸ e.outcome.elapsed.nanos_lt
  · rw [hsome]
    have hrequests : row.requests ≤ es.length := by
      rw [hrow.requests, List.length_map, ← htask]
      exact hpart.length_le
    have htotal : row.total.nanos ≤ elapsedTotal es := by
      rw [hrow.total, List.map_map, ← htask]
      exact (hpart.map _).sum_le_sum fun _ _ => Nat.zero_le _
    exact (hrow.counted (by omega)).record_of_fits e.outcome (by omega) (by omega)

namespace Session

variable {s : Session} {ops : List Operation} {g : Nat}

theorem Follows.recordingsOf_record (hs : s.Follows ops) (e : Recording) :
    recordingsOf (ops ++ [.record g e]) g = recordingsOf ops g ++ [e] := by
  have hroots : roots (ops ++ [.record g e]) = roots ops := roots_append_singleton ops _
  have hroot : root (ops ++ [.record g e]) g = root ops g := by rw [root, root, hroots]
  rw [hs.recordingsOf_append hroot, Operation.recording?, if_pos (beq_iff_eq.mpr hroot)]
  rfl

theorem Follows.step_record (hs : s.Follows ops) (hg : g < s.handleCount) (e : Recording)
    (hcount : (recordingsOf ops g).length + 1 < countLimit)
    (htime : elapsedTotal (recordingsOf ops g) + e.outcome.elapsed.nanos < Span.limit) :
    ∃ s', s.step? (.record g e) = some s' ∧ g < s'.handleCount := by
  obtain ⟨t, hrecord⟩ := (hs.summarizes g hg).record_of_fits e hcount htime
  simp only [step?, Registry.record, hrecord]
  exact ⟨_, if_pos ⟨hg, trivial⟩, hg⟩

/-- Through each handle of a session there can be recorded what fits in the counts and in the
sum of the times, together with what was recorded before. -/
theorem Follows.run_records (hs : s.Follows ops) (hg : g < s.handleCount) (es : List Recording)
    (hcount : (recordingsOf ops g ++ es).length < countLimit)
    (htime : elapsedTotal (recordingsOf ops g ++ es) < Span.limit) :
    ∃ s', s.run? (es.map (.record g)) = some s' ∧ g < s'.handleCount ∧
      recordingsOf (ops ++ es.map (.record g)) g = recordingsOf ops g ++ es := by
  induction es generalizing s ops with
  | nil => exact ⟨s, rfl, hg, by simp⟩
  | cons e es ih =>
    have hlength : (recordingsOf ops g).length + 1 < countLimit := by
      rw [List.length_append, List.length_cons] at hcount
      omega
    have helapsed : elapsedTotal (recordingsOf ops g) + e.outcome.elapsed.nanos < Span.limit := by
      simp only [elapsedTotal, List.map_append, List.map_cons, List.sum_append, List.sum_cons]
        at htime ⊢
      omega
    obtain ⟨s₁, hstep, hg₁⟩ := hs.step_record hg e hlength helapsed
    have hs₁ : s₁.Follows (ops ++ [.record g e]) := follows_of_step hs hstep
    have hbefore := hs.recordingsOf_record (g := g) e
    rw [List.append_cons, ← hbefore] at hcount htime ⊢
    obtain ⟨s', hrun, hg', hrecordings⟩ := ih hs₁ hg₁ hcount htime
    refine ⟨s', ?_, hg', ?_⟩
    · rw [List.map_cons, run?_cons, hstep]
      exact hrun
    · rw [List.map_cons, List.append_cons]
      exact hrecordings

/-- The averages of whatever was recorded. With fewer than `2 ^ 32` requests of a task, its
average is their mean. A multiple of that has no average, and a report with such a row has no
text; from there on, an average is longer than the mean. -/
theorem averages_right_below_word (h : start.run? ops = some s) (hg : g < s.handleCount)
    (finishedAt : String) :
    (∀ task row, (s.registry.report g).row? task = some row →
      (row.requests < divisorLimit →
        ∃ a, row.average = .ok a ∧ a.nanos = row.mean ∧ row.shortest ≤ a ∧ a ≤ row.longest) ∧
      (∀ fault, row.average = .error fault ↔
        divisorLimit ∣ row.requests ∧ fault = .spanOverZero) ∧
      ∀ a, row.average = .ok a → divisorLimit ≤ row.requests → 0 < row.shortest.nanos →
        row.mean < a.nanos) ∧
    ∀ fault, (s.registry.report g).report finishedAt = .error fault ↔
      (∃ entry ∈ (s.registry.report g).rows, divisorLimit ∣ entry.2.requests) ∧
        fault = .spanOverZero ∨
      (∀ entry ∈ (s.registry.report g).rows, ¬ divisorLimit ∣ entry.2.requests) ∧
        countLimit ≤ (s.registry.report g).requestTotal ∧ fault = .countOverflow := by
  have hs : s.Follows ops := Follows.start.run h
  have hsummary := hs.summarizes g hg
  refine ⟨?_, fun fault => hsummary.report_eq_error_iff finishedAt⟩
  intro task row hfind
  obtain ⟨first, os, hrow⟩ := hsummary.of_mem_rows (Sorted.mem_of_find? hfind)
  refine ⟨?_, fun fault => Row.average_eq_error_iff hrow.requests_pos, ?_⟩
  · intro hlt
    obtain ⟨a, haverage, hnanos⟩ := Row.average_eq_mean hrow.requests_pos hlt
    obtain ⟨hshortest, hlongest⟩ := hrow.mean_bounds
    refine ⟨a, haverage, hnanos, ?_, ?_⟩
    · rwa [Span.le_def, hnanos]
    · rwa [Span.le_def, hnanos]
  · intro a haverage hword hpositive
    refine Row.mean_lt_average hword ?_ haverage
    exact Nat.le_trans (Nat.le_mul_of_pos_right _ hpositive) hrow.requests_mul_shortest_le

/-- Two requests, of one second and of three. -/
theorem average_of_two :
    ∃ s row, start.run? [.record 0 success, .record 0 failure] = some s ∧
      (s.registry.report 0).row? "get_time" = some row ∧ row.requests = 2 ∧
      row.average = .ok (.ofWord 2) := by
  obtain ⟨s, hs, hcount, row, hrow, hrequests, hmean⟩ :
      ∃ s, start.run? [.record 0 success, .record 0 failure] = some s ∧ 0 < s.handleCount ∧
        ∃ row, (s.registry.report 0).row? "get_time" = some row ∧ row.requests = 2 ∧
          row.mean = 2000000000 := ⟨_, rfl, Nat.one_pos, _, rfl, rfl, rfl⟩
  obtain ⟨hrows, -⟩ := averages_right_below_word hs hcount "now"
  obtain ⟨hbelow, -, -⟩ := hrows "get_time" row hrow
  obtain ⟨a, haverage, hnanos, -⟩ := hbelow (by rw [hrequests]; decide)
  refine ⟨s, row, hs, hrow, hrequests, haverage.trans (congrArg _ (Span.ext ?_))⟩
  exact hnanos.trans hmean

/-- Any number of successes that the count has room for can be recorded. -/
theorem run_successes (n : Nat) (hpos : 0 < n) (hn : n < countLimit) :
    ∃ s row, start.run? (List.replicate n (.record 0 success)) = some s ∧ 0 < s.handleCount ∧
      (s.registry.report 0).row? "get_time" = some row ∧ row.requests = n := by
  have hlength : (recordingsOf [] 0 ++ List.replicate n success).length < countLimit := by
    simpa [recordingsOf] using hn
  have helapsed : elapsedTotal (recordingsOf [] 0 ++ List.replicate n success) < Span.limit := by
    have hsum : elapsedTotal (recordingsOf [] 0 ++ List.replicate n success) =
        n * nanosPerSecond := by
      simp [recordingsOf, elapsedTotal, success, Span.ofWord]
    rw [hsum]
    exact Nat.mul_lt_mul_of_pos_right hn (by decide)
  obtain ⟨s, hrun, hcount, hrecordings⟩ :=
    Follows.start.run_records Nat.one_pos (List.replicate n success) hlength helapsed
  rw [List.map_replicate] at hrun hrecordings
  have hsummary : (s.registry.report 0).Summarizes (List.replicate n success) := by
    have := (Follows.start.run hrun).summarizes 0 hcount
    rwa [hrecordings] at this
  have htask : Recording.ofTask "get_time" (List.replicate n success) =
      List.replicate n success := by
    apply List.filter_eq_self.mpr
    intro e hmem
    rw [List.eq_of_mem_replicate hmem]
    rfl
  obtain ⟨hnone, -⟩ | ⟨first, rest, row, hsome, hrow, hsummarizes⟩ := hsummary.row "get_time"
  · rw [htask] at hnone
    exact absurd hnone (by simpa using Nat.ne_of_gt hpos)
  · refine ⟨s, row, hrun, hcount, hrow, ?_⟩
    rw [hsummarizes.requests, List.length_map, ← hsome]
    exact (congrArg List.length htask).trans List.length_replicate

/-- One request more than the divisor's word can hold: these have no average, and their report
has no text. -/
theorem average_missing_at_word :
    ∃ s row, start.run? (List.replicate (2 ^ 32) (.record 0 success)) = some s ∧
      (s.registry.report 0).row? "get_time" = some row ∧ row.requests = 2 ^ 32 ∧
      row.average = .error .spanOverZero ∧
      (s.registry.report 0).report "now" = .error .spanOverZero := by
  obtain ⟨s, row, hrun, hcount, hrow, hrequests⟩ :=
    run_successes divisorLimit (Nat.two_pow_pos 32) (Nat.pow_lt_pow_right (by decide) (by decide))
  have hsummary := (Follows.start.run hrun).summarizes 0 hcount
  have hmem := Sorted.mem_of_find? hrow
  have hdvd : divisorLimit ∣ row.requests := Dvd.intro 1 ((Nat.mul_one _).trans hrequests.symm)
  have hpos : 0 < row.requests := Nat.lt_of_lt_of_eq (Nat.two_pow_pos 32) hrequests.symm
  refine ⟨s, row, hrun, hrow, hrequests, ?_, ?_⟩
  · exact (Row.average_eq_error_iff hpos).mpr ⟨hdvd, rfl⟩
  · exact (hsummary.report_eq_error_iff "now").mpr (.inl ⟨⟨_, hmem, hdvd⟩, rfl⟩)

end Session
end OperatorKit.Load
