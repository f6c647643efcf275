import OperatorKit.Proofs.Load.Sharing

/-!
# Tallies behind faults

A fault stops the recording of an outcome in the middle, and the tally stays in use with what
was updated by then: nothing, if the requests had no room for one more, and the requests and
failures, if the times had none. So a row counts the outcomes that got that far, and the rest
of it summarizes those of them that met no fault.
-/

namespace OperatorKit.Load

/-! ## Histories -/

/-- Recordings with how far each of them came. -/
abbrev History : Type := List (Recording × Extent)

namespace History

/-- The part of a history that is about a task. -/
def ofTask (task : String) (h : History) : History := h.filter (·.1.task == task)

/-- The outcomes that came all the way. -/
def wholes (h : History) : List Outcome := (h.filter (·.2 = .whole)).map (·.1.outcome)

/-- How many outcomes were counted. -/
def requests (h : History) : Nat := h.countP (·.2.isCounted)

/-- How many outcomes were counted that did not come back with a status from 200 to 399. -/
def failures (h : History) : Nat :=
  h.countP fun x => x.2.isCounted &&
    !x.1.outcome.status.any fun code => decide (200 ≤ code) && decide (code < 400)

variable (h : History) (e : Recording)

theorem ofTask_append_singleton (task : String) (x : Recording × Extent) :
    ofTask task (h ++ [x]) = ofTask task h ++ if x.1.task = task then [x] else [] := by
  rw [ofTask, List.filter_append, List.filter_singleton]
  by_cases htask : x.1.task = task
  · rw [if_pos htask, beq_iff_eq.mpr htask]
    rfl
  · rw [if_neg htask, beq_eq_false_iff_ne.mpr htask]
    rfl

theorem wholes_append_whole : wholes (h ++ [(e, .whole)]) = wholes h ++ [e.outcome] := by
  rw [wholes, List.filter_append, List.map_append]
  rfl

theorem wholes_append_of_ne {extent : Extent} (hne : extent ≠ .whole) :
    wholes (h ++ [(e, extent)]) = wholes h := by
  simp [wholes, List.filter_append, hne]

theorem requests_append (extent : Extent) :
    requests (h ++ [(e, extent)]) = requests h + if extent.isCounted then 1 else 0 := by
  rw [requests, List.countP_append, List.countP_singleton, requests]

theorem failures_append_nothing : failures (h ++ [(e, .nothing)]) = failures h := by
  rw [failures, List.countP_append]
  rfl

theorem failures_append_of_isCounted (row : Row) {extent : Extent}
    (hcounted : extent.isCounted = true) (hrow : row.failures = failures h) :
    failures (h ++ [(e, extent)]) = (row.withRequest e.outcome).failures := by
  rw [failures, List.countP_append, List.countP_singleton, ← failures, ← hrow]
  simp only [hcounted, Row.withRequest, e.outcome.succeeded_eq_any, Bool.true_and]
  cases e.outcome.status.any fun code => decide (200 ≤ code) && decide (code < 400) <;> rfl

end History

/-- A row counts what was counted in a history, and the rest of it summarizes what came all
the way. -/
def Row.Covers (row : Row) (first : Request) (h : History) : Prop :=
  ∃ base : Row, base.Summarizes first h.wholes ∧
    row = { base with requests := h.requests, failures := h.failures }

namespace Row.Covers

variable {row : Row} {first : Request} {h : History} {e : Recording} {total : Span}

theorem of_first (htotal : (fresh e.request).total.add e.outcome.elapsed = .ok total) :
    ((fresh e.request).withOutcome e.outcome total).Covers e.request [(e, .whole)] := by
  refine ⟨_, summarizes_first ((Span.nanos_of_add htotal).trans (Nat.zero_add _)), ?_⟩
  rw [show [(e, Extent.whole)] = [] ++ [(e, Extent.whole)] from rfl,
    History.failures_append_of_isCounted [] e (fresh e.request) rfl rfl]
  rfl

theorem whole (hrow : row.Covers first h) (htotal : row.total.add e.outcome.elapsed = .ok total) :
    (row.withOutcome e.outcome total).Covers first (h ++ [(e, .whole)]) := by
  obtain ⟨base, hbase, rfl⟩ := hrow
  refine ⟨base.withOutcome e.outcome total, ?_, ?_⟩
  · rw [History.wholes_append_whole]
    exact hbase.withOutcome (Span.nanos_of_add htotal)
  · rw [History.requests_append, History.failures_append_of_isCounted h e
      { base with requests := h.requests, failures := h.failures } rfl rfl]
    rfl

theorem counts (hrow : row.Covers first h) :
    (row.withRequest e.outcome).Covers first (h ++ [(e, .counts)]) := by
  obtain ⟨base, hbase, rfl⟩ := hrow
  refine ⟨base, ?_, ?_⟩
  · rwa [History.wholes_append_of_ne h e Extent.noConfusion]
  · rw [History.requests_append, History.failures_append_of_isCounted h e
      { base with requests := h.requests, failures := h.failures } rfl rfl]
    rfl

theorem nothing (hrow : row.Covers first h) : row.Covers first (h ++ [(e, .nothing)]) := by
  obtain ⟨base, hbase, rfl⟩ := hrow
  refine ⟨base, ?_, ?_⟩
  · rwa [History.wholes_append_of_ne h e Extent.noConfusion]
  · rw [History.requests_append, History.failures_append_nothing]
    rfl

end Row.Covers

namespace Tally

/-- A tally has a row for each task with recordings in a history, and the row covers them. -/
structure Covers (t : Tally) (h : History) : Prop where
  counted : t.Counted
  row (task : String) :
    (h.ofTask task = [] ∧ t.row? task = none) ∨
    ∃ first rest row, h.ofTask task = first :: rest ∧ t.row? task = some row ∧
      row.Covers first.1.request (first :: rest)

variable {t t' : Tally} {h : History} {e : Recording} {fault : Option Fault}

theorem covers_empty : Tally.empty.Covers [] := ⟨counted_empty, fun _ => .inl ⟨rfl, rfl⟩⟩

theorem Covers.append_row {row' : Row} {extent : Extent} (ht : t.Covers h)
    (hcounted : (t.put e.task row').Counted)
    (hfirst : t.row? e.task = none → row'.Covers e.request [(e, extent)])
    (hnext : ∀ row first parts, t.row? e.task = some row → row.Covers first parts →
      row'.Covers first (parts ++ [(e, extent)])) :
    (t.put e.task row').Covers (h ++ [(e, extent)]) := by
  refine ⟨hcounted, fun task => ?_⟩
  rw [row?_put, History.ofTask_append_singleton]
  by_cases htask : task = e.task
  · rw [if_pos htask, if_pos htask.symm, htask]
    obtain ⟨hnone, hrow⟩ | ⟨first, rest, row, hsome, hrow, hcovers⟩ := ht.row e.task
    · exact .inr ⟨(e, extent), [], row', by rw [hnone]; rfl, rfl, hfirst hrow⟩
    · exact .inr ⟨first, rest ++ [(e, extent)], row', by rw [hsome]; rfl, rfl,
        hnext row _ _ hrow hcovers⟩
  · rw [if_neg htask, if_neg (Ne.symm htask), List.append_nil]
    exact ht.row task

/-- A history goes on with what is recorded next. -/
theorem Covers.records (ht : t.Covers h) (hrecords : t.Records e.task e.request e.outcome t' fault) :
    t'.Covers (h ++ [(e, .ofFault fault)]) := by
  have hcounted := hrecords.counted ht.counted
  cases hrecords with
  | @whole row total hrow hroom htotal =>
    refine ht.append_row hcounted (fun hnone => ?_) fun row' first parts hsome hcovers => ?_
    · rw [hnone, Option.getD_none] at hrow
      subst hrow
      exact .of_first htotal
    · rw [hsome, Option.getD_some] at hrow
      subst hrow
      exact hcovers.whole htotal
  | @counts row hrow hroom htotal =>
    refine ht.append_row hcounted (fun hnone => ?_) fun row' first parts hsome hcovers => ?_
    · rw [hnone] at hrow
      cases hrow
    · cases hsome.symm.trans hrow
      exact hcovers.counts
  | @nothing row hrow hfull =>
    -- The row stays what it is, as if it were put there again.
    have hsame : t.put e.task row = t := congrArg Tally.mk (ht.counted.ascending.insert_of_find? hrow)
    rw [← hsame] at hcounted ⊢
    refine ht.append_row hcounted (fun hnone => ?_) fun row' first parts hsome hcovers => ?_
    · rw [hnone] at hrow
      cases hrow
    · cases hsome.symm.trans hrow
      exact hcovers.nothing

/-- A tally behind recordings, each of which may be stopped by a fault. -/
def recordAll (t : Tally) : List Recording → Tally
  | []      => t
  | e :: es => (t.record e.task e.request e.outcome).1.recordAll es

/-- Recordings with how far each of them comes. -/
def history (t : Tally) : List Recording → History
  | []      => []
  | e :: es =>
    (e, .ofFault (t.record e.task e.request e.outcome).2) ::
      (t.record e.task e.request e.outcome).1.history es

/-- Whatever is recorded, a tally covers it as far as it came. -/
theorem Covers.recordAll (ht : t.Covers h) (es : List Recording) :
    (t.recordAll es).Covers (h ++ t.history es) := by
  induction es generalizing t h with
  | nil =>
    rw [history, List.append_nil]
    exact ht
  | cons e es ih =>
    rw [history, List.append_cons]
    exact ih (ht.records (ht.counted.records e.task e.request e.outcome))

theorem map_fst_history (t : Tally) (es : List Recording) : (t.history es).map (·.1) = es := by
  induction es generalizing t with
  | nil => rfl
  | cons e es ih => rw [history, List.map_cons, ih]

theorem recordAll_append (t : Tally) (es es' : List Recording) :
    t.recordAll (es ++ es') = (t.recordAll es).recordAll es' := by
  induction es generalizing t with
  | nil => rfl
  | cons e es ih => exact ih _

end Tally

/-! ## Shared tallies -/

namespace Registry

/-- The registry behind an operation. A recording that is stopped by a fault leaves the handles
in use. -/
def perform (r : Registry) : Operation → Registry
  | .record handle e => (r.record handle e.task e.request e.outcome).1
  | .share handle    => r.share handle
  | .create          => r.create
  | .report _        => r

/-- The registry behind operations. -/
def after (ops : List Operation) : Registry := ops.foldl perform .initial

theorem after_append_singleton (ops : List Operation) (op : Operation) :
    after (ops ++ [op]) = (after ops).perform op := by
  rw [after, List.foldl_append]
  rfl

/-- Each handle leads to a tally, and recordings led to each of the tallies. -/
structure Recorded (r : Registry) : Prop where
  place_lt (handle : Nat) : r.place handle < r.tallies.length
  tallies : ∀ t ∈ r.tallies, ∃ es, t = Tally.empty.recordAll es

variable {r : Registry}

theorem Recorded.report (hr : r.Recorded) (handle : Nat) :
    ∃ es, r.report handle = Tally.empty.recordAll es := by
  have hmem : r.report handle ∈ r.tallies := by
    rw [Registry.report, List.getD_eq_getElem _ _ (hr.place_lt handle)]
    exact List.getElem_mem _
  exact hr.tallies _ hmem

theorem place_append (hr : r.Recorded) {r' : Registry} {place : Nat}
    (hhandles : r'.handles = r.handles ++ [place])
    (hlength : r.tallies.length ≤ r'.tallies.length) (hplace : place < r'.tallies.length)
    (handle : Nat) : r'.place handle < r'.tallies.length := by
  rw [Registry.place, hhandles, List.getD_eq_getElem?_getD, List.getElem?_append]
  split
  case isTrue =>
    have hlt := hr.place_lt handle
    rw [Registry.place, List.getD_eq_getElem?_getD] at hlt
    exact Nat.lt_of_lt_of_le hlt hlength
  case isFalse =>
    cases h : [place][handle - r.handles.length]? with
    | none => exact Nat.lt_of_le_of_lt (Nat.zero_le _) hplace
    | some p =>
      rw [List.mem_singleton.mp (List.mem_of_getElem? h)]
      exact hplace

theorem Recorded.perform (hr : r.Recorded) (op : Operation) : (r.perform op).Recorded := by
  cases op with
  | record handle e =>
    refine ⟨fun g => ?_, fun t ht => ?_⟩
    · exact Nat.lt_of_lt_of_eq (hr.place_lt g) (List.length_set ..).symm
    · obtain ht | rfl := List.mem_or_eq_of_mem_set ht
      · exact hr.tallies t ht
      · obtain ⟨es, hes⟩ := hr.report handle
        exact ⟨es ++ [e], by rw [Tally.recordAll_append, ← hes]; rfl⟩
  | share handle =>
    exact ⟨place_append hr rfl (Nat.le_refl _) (hr.place_lt handle), hr.tallies⟩
  | create =>
    have hlength : (r.tallies ++ [Tally.empty]).length = r.tallies.length + 1 :=
      List.length_append
    refine ⟨place_append hr rfl (hlength ▸ Nat.le_succ _) (hlength ▸ Nat.lt_succ_self _), ?_⟩
    intro t ht
    obtain ht | ht := List.mem_append.mp ht
    · exact hr.tallies t ht
    · exact ⟨[], List.mem_singleton.mp ht⟩
  | report handle => exact hr

theorem recorded_initial : initial.Recorded := by
  refine ⟨fun handle => ?_, fun t ht => ⟨[], List.mem_singleton.mp ht⟩⟩
  cases handle <;> exact Nat.one_pos

theorem Recorded.performAll (hr : r.Recorded) (ops : List Operation) :
    (ops.foldl Registry.perform r).Recorded := by
  induction ops generalizing r with
  | nil => exact hr
  | cons op ops ih => exact ih (hr.perform op)

/-- Whatever was done with shared tallies before, recording an outcome adds it to all of its
row, or to the requests and failures and to nothing else if the sum of the times has no room
for it, or to nothing if the requests have none. All handles of the tally see that, and those
of others see no change. So each row counts what came at least to the requests, and the rest of
it summarizes what came all the way. -/
theorem recording_is_whole_or_counts (ops : List Operation) (handle : Nat) (e : Recording) :
    ∃ t t' fault, (after ops).report handle = t ∧
      t.record e.task e.request e.outcome = (t', fault) ∧ t.Records e.task e.request e.outcome t' fault ∧
      (∀ g, (after (ops ++ [.record handle e])).report g =
        if (after ops).place g = (after ops).place handle then t' else (after ops).report g) ∧
      ∃ es, t = Tally.empty.recordAll es ∧ t.Covers (Tally.empty.history es) ∧
        t'.Covers (Tally.empty.history es ++ [(e, .ofFault fault)]) := by
  have hrecorded : (after ops).Recorded := recorded_initial.performAll ops
  obtain ⟨es, hes⟩ := hrecorded.report handle
  have hcovers : ((after ops).report handle).Covers (Tally.empty.history es) :=
    hes ▸ Tally.covers_empty.recordAll es
  have hrecords := hcovers.counted.records e.task e.request e.outcome
  refine ⟨_, _, _, rfl, rfl, hrecords, fun g => ?_, es, hes, hcovers, hcovers.records hrecords⟩
  rw [after_append_singleton]
  exact report_set (after ops) _ (hrecorded.place_lt handle) g

/-- A success that takes as long as a span can be. -/
def longSuccess : Recording :=
  ⟨"get_time", ⟨.get, "/webhook/AAAA", .null⟩, ⟨some 200, .longest, none⟩⟩

/-- The second success of that length is counted as a request, and its time and status are
missing. -/
theorem recording_split_by_fault :
    ∃ t t' row row', (after [.record 0 longSuccess]).report 0 = t ∧
      t.record longSuccess.task longSuccess.request longSuccess.outcome =
        (t', some .spanOverflow) ∧
      (after [.record 0 longSuccess, .record 0 longSuccess]).report 0 = t' ∧ t' ≠ t ∧
      t.row? "get_time" = some row ∧ t'.row? "get_time" = some row' ∧
      row.requests = 1 ∧ row'.requests = 2 ∧ row'.total = row.total ∧ row'.codes = row.codes := by
  refine ⟨_, _, _, _, rfl, rfl, rfl, ?_, rfl, rfl, rfl, rfl, rfl, rfl⟩
  decide

end Registry
end OperatorKit.Load
