import Mathlib.Data.List.Perm.Subperm
import OperatorKit.Proofs.Load.Accounting

/-!
# What a report says about a run

The report of a run has a row for each task that counts the outcomes recorded for
that task and no others. It misses at most one request of each user.
-/

namespace OperatorKit.Load

namespace Ledger

variable {l : Ledger} {r r' : Run} {id : Nat}

/-- The requests of a user that are not recorded. -/
def unrecordedOf (id : Nat) (l : Ledger) : Ledger :=
  l.filter fun s => s.user == id && !s.fate.isRecorded

/-! ## Requests that no fault stopped -/

theorem settle_not_stopped {f : Fate → Fate} (hf : ∀ fate, fate ≠ .stopped → f fate ≠ .stopped)
    (h : ∀ s ∈ l, s.fate ≠ .stopped) : ∀ s ∈ l.settle id f, s.fate ≠ .stopped := by
  intro s' hs'
  obtain ⟨s, hs, rfl⟩ := List.mem_map.mp hs'
  split
  case isTrue => exact hf _ (h s hs)
  case isFalse => exact h s hs

theorem note_not_stopped {e : Event} (he : ∀ id fault, e ≠ .user id (.fail fault))
    (h : ∀ s ∈ l, s.fate ≠ .stopped) : ∀ s ∈ l.note r e, s.fate ≠ .stopped := by
  cases e with
  | arrive | rested | stop _ | finish => exact h
  | user id act =>
    cases act with
    | start | pause _ | wake | leave => exact h
    | fail fault => exact absurd rfl (he id fault)
    | send words =>
      intro s hs
      rcases List.mem_append.mp hs with hs | hs
      · exact h s hs
      · obtain ⟨content, -, rfl⟩ := List.mem_map.mp hs
        exact Fate.noConfusion
    | reply o => exact settle_not_stopped (fun _ => Fate.complete_ne_stopped) h
    | record =>
      rw [note]
      split
      case isTrue => exact settle_not_stopped (fun _ => Fate.record_ne_stopped) h
      case isFalse => exact h

theorem not_stopped_of_no_fault {es : List Event} (hfaults : ∀ id e, Event.user id (.fail e) ∉ es)
    (h : ∀ s ∈ l, s.fate ≠ .stopped) : ∀ s ∈ r.ledgerFrom l es, s.fate ≠ .stopped := by
  induction es generalizing r l with
  | nil => exact h
  | cons e es ih =>
    rw [Run.ledgerFrom]
    split
    case h_1 => exact h
    case h_2 =>
      have he : ∀ id fault, e ≠ .user id (.fail fault) := by
        rintro id fault rfl
        exact hfaults id fault List.mem_cons_self
      exact ih (fun id fault hmem => hfaults id fault (List.mem_cons_of_mem _ hmem))
        (note_not_stopped he h)

theorem unrecordedOf_eq_openOf (h : ∀ s ∈ l, s.fate ≠ .stopped) :
    l.unrecordedOf id = l.openOf id := by
  refine List.filter_congr fun s hs => ?_
  cases hfate : s.fate with
  | stopped => exact absurd hfate (h s hs)
  | underWay | completed _ | recorded _ => rfl

/-! ## How much a report misses -/

namespace Accounts

theorem length_openOf_le_one (h : l.Accounts r) (id : Nat) : (l.openOf id).length ≤ 1 := by
  cases hu : r.users[id]? with
  | none =>
    rw [h.openOf_of_le (List.getElem?_eq_none_iff.mp hu)]
    exact Nat.zero_le 1
  | some u => exact (h.owed id u hu).length_le_one

/-- No two open requests have the same user. -/
theorem countP_isOpen_le (h : l.Accounts r) : l.countP (·.fate.isOpen) ≤ r.users.length := by
  have hnodup : ((l.filter (·.fate.isOpen)).map Sending.user).Nodup := by
    refine List.nodup_iff_count_le_one.mpr fun id => ?_
    rw [List.count_eq_countP, List.countP_map, List.countP_filter, List.countP_eq_length_filter]
    exact h.length_openOf_le_one id
  -- They are numbers of users of the run, and no number stands there twice.
  have hsubset : (l.filter (·.fate.isOpen)).map Sending.user ⊆ List.range r.users.length := by
    intro id hid
    obtain ⟨s, hs, rfl⟩ := List.mem_map.mp hid
    exact List.mem_range.mpr (h.known s (List.mem_filter.mp hs).1).1
  rw [List.countP_eq_length_filter]
  simpa using (List.subperm_of_subset hnodup hsubset).length_le

end Accounts

theorem countP_isRecorded_add_isOpen (h : ∀ s ∈ l, s.fate ≠ .stopped) :
    l.countP (·.fate.isRecorded) + l.countP (·.fate.isOpen) = l.length := by
  have hopen : l.countP (·.fate.isOpen) = l.countP fun s => ¬s.fate.isRecorded = true := by
    refine List.countP_congr fun s hs => ?_
    cases hfate : s.fate with
    | stopped => exact absurd hfate (h s hs)
    | underWay | completed _ | recorded _ => simp [Fate.isOpen, Fate.isRecorded]
  rw [hopen]
  exact (List.length_eq_countP_add_countP _).symm

end Ledger

namespace Run

variable {plan : Plan} {scenario : Scenario} {r₀ r : Run} {es : List Event}

theorem accounts_ledger (hstart : start plan scenario = .ok r₀) (hsteps : r₀.steps es = some r)
    (hspans : ∀ u ∈ r.users, u.phase ≠ .crashed .spanOverflow) : (r₀.ledger es).Accounts r := by
  obtain ⟨-, -, -, husers, hsent, htally, -⟩ := start_spec hstart
  refine accounts_ledgerFrom hsteps ?_ hspans
  exact {
    sent := hsent.symm
    known := fun _ hs => by cases hs
    owed := fun id u hu => by
      rw [husers] at hu
      cases hu
    tallied := htally ▸ Ledger.tallied_nil }

theorem closed_of_steps (hstart : start plan scenario = .ok r₀) (hsteps : r₀.steps es = some r) :
    r.Closed := by
  obtain ⟨-, -, hstage, -⟩ := start_spec hstart
  refine steps_preserve (fun hr h => h.closed hr) hsteps (closed_of_stage fun report hreport => ?_)
  rw [hstage] at hreport
  cases hreport

/-- The tasks of a run are told apart by their names. -/
theorem task_ext_of_steps (hstart : start plan scenario = .ok r₀) (hsteps : r₀.steps es = some r)
    {task task' : Task} (htask : task ∈ r.tasks) (htask' : task' ∈ r.tasks)
    (hname : task.name = task'.name) : task = task' := by
  obtain ⟨-, -, -, -, -, -, hnames, -⟩ := start_spec hstart
  obtain ⟨-, -, htasks⟩ := steps_setting hsteps
  have hnodup : (r.tasks.map (·.name)).Nodup := by
    rw [htasks, hnames]
    exact scenario.nodup_names
  exact List.inj_on_of_nodup_map hnodup htask htask' hname

/-- The report of a run counts each outcome that was recorded once and for its task,
whatever the order of the events. What is recorded stays so; what a report does not
count was under way or not yet recorded, one request of a user at most. -/
theorem report_counts_recorded (hstart : start plan scenario = .ok r₀)
    (hsteps : r₀.steps es = some r) (hspans : ∀ u ∈ r.users, u.phase ≠ .crashed .spanOverflow)
    (hfaults : ∀ id e, Event.user id (.fail e) ∉ es) :
    (r₀.ledger es).map Sending.content = r.sent ∧
    (∀ id, ((r₀.ledger es).unrecordedOf id).length ≤ 1) ∧
    (∀ (n i : Nat) (s : Sending), (r₀.ledger (es.take n))[i]? = some s →
      s.fate.isRecorded → (r₀.ledger es)[i]? = some s) ∧
    ∀ report, r.report? = some report →
      (∀ task ∈ r.tasks,
        report.requestsOf task.name =
          (r₀.ledger es).countP (fun s => s.task == task && s.fate.isRecorded) ∧
        report.failuresOf task.name =
          (r₀.ledger es).countP (fun s => s.task == task && s.fate.isFailure)) ∧
      (∀ name, (report.row? name).isSome → ∃ task ∈ r.tasks, task.name = name) ∧
      report.requestTotal = (r₀.ledger es).countP (·.fate.isRecorded) ∧
      report.requestTotal ≤ r.sent.length ∧
      r.sent.length ≤ report.requestTotal + r.users.length := by
  have hl := accounts_ledger hstart hsteps hspans
  have hstopped : ∀ s ∈ r₀.ledger es, s.fate ≠ .stopped :=
    Ledger.not_stopped_of_no_fault hfaults fun _ hs => by cases hs
  have hsent : (r₀.ledger es).length = r.sent.length := by
    simpa using congrArg List.length hl.sent
  refine ⟨hl.sent, fun id => ?_, fun n i s hs hrecorded => ?_, fun report hreport => ?_⟩
  · rw [Ledger.unrecordedOf_eq_openOf hstopped]
    exact hl.length_openOf_le_one id
  · exact Ledger.getElem?_ledgerFrom_take es n hs (Fate.isOpen_eq_false hrecorded)
  obtain ⟨rfl, -⟩ := closed_of_steps hstart hsteps report hreport
  have hmissed := Ledger.countP_isRecorded_add_isOpen hstopped
  have hopen := hl.countP_isOpen_le
  have htotal := hl.tallied.total
  refine ⟨fun task htask => ?_, fun name hrow => ?_, htotal, by omega, by omega⟩
  · have hsame : ∀ s ∈ r₀.ledger es, (s.task.name == task.name) = (s.task == task) := by
      intro s hs
      rw [Bool.eq_iff_iff, beq_iff_eq, beq_iff_eq]
      exact ⟨task_ext_of_steps hstart hsteps (hl.known s hs).2 htask, congrArg Task.name⟩
    rw [hl.tallied.requests, hl.tallied.failures]
    refine ⟨List.countP_congr fun s hs => ?_, List.countP_congr fun s hs => ?_⟩
    all_goals rw [hsame s hs]
  · -- A row counts some request, and that is one of a task of the run.
    have hpos := hl.tallied.named name hrow
    rw [hl.tallied.requests, List.countP_pos_iff] at hpos
    obtain ⟨s, hs, hname⟩ := hpos
    exact ⟨s.task, (hl.known s hs).2, by simpa using (Bool.and_eq_true_iff.mp hname).1⟩

/-- A plan of one user that takes the tasks in turn and does not pause. -/
def lonePlan : Plan where
  host := "http://localhost"
  users := 1
  spawnRate := 1
  spawnInterval := .zero
  runTime := none
  pauses := ⟨.zero, .zero, Span.le_def.mpr (Nat.le_refl 0)⟩
  picker := .roundRobin
  weights := []
  timeout := .zero

/-- The lone user records a failure and is taken out while its second request is under way. -/
def loneEvents : List Event :=
  [.arrive, .user 0 .start, .user 0 (.send []), .user 0 (.reply ⟨some 404, .zero, none⟩),
    .user 0 .record, .user 0 (.pause []), .user 0 .wake, .user 0 (.send [7]),
    .stop .interrupted, .user 0 .leave, .finish]

theorem report_of_lone_user : ∃ r₀ r report, start lonePlan (.get "AAAA") = .ok r₀ ∧
    r₀.steps loneEvents = some r ∧ r.report? = some report ∧
    report.requestsOf "get_time" = 1 ∧ report.failuresOf "get_time" = 1 ∧
    report.requestTotal + 1 = r.sent.length := by
  obtain ⟨r₀, hstart, htasks, hrequests, hfailures, htotal, r, hsteps, hphases, hsent, report,
      hreport⟩ :
      ∃ r₀, start lonePlan (.get "AAAA") = .ok r₀ ∧
        r₀.tasks = Scenario.tasks (.get "AAAA") ∧
        (r₀.ledger loneEvents).countP
          (fun s => s.task == ⟨"get_time", 1, .time "AAAA"⟩ && s.fate.isRecorded) = 1 ∧
        (r₀.ledger loneEvents).countP
          (fun s => s.task == ⟨"get_time", 1, .time "AAAA"⟩ && s.fate.isFailure) = 1 ∧
        (r₀.ledger loneEvents).countP (·.fate.isRecorded) = 1 ∧
        ∃ r, r₀.steps loneEvents = some r ∧ r.users.map (·.phase) = [.gone] ∧ r.sent.length = 2 ∧
          ∃ report, r.report? = some report :=
    ⟨_, rfl, rfl, rfl, rfl, rfl, _, rfl, rfl, rfl, _, rfl⟩
  have hspans : ∀ u ∈ r.users, u.phase ≠ .crashed .spanOverflow := by
    intro u hu hcrashed
    have := List.mem_map_of_mem (f := (·.phase)) hu
    rw [hphases, hcrashed, List.mem_singleton] at this
    cases this
  obtain ⟨-, -, -, hcounts⟩ :=
    report_counts_recorded hstart hsteps hspans (by simp [loneEvents])
  obtain ⟨hrows, -, hall, -⟩ := hcounts report hreport
  obtain ⟨hrow, hfailed⟩ := hrows ⟨"get_time", 1, .time "AAAA"⟩ (by
    rw [(steps_setting hsteps).2.2, htasks]
    exact List.mem_cons_self)
  exact ⟨r₀, r, report, hstart, hsteps, hreport, hrow.trans hrequests, hfailed.trans hfailures,
    by rw [hall, htotal, hsent]⟩

end Run
end OperatorKit.Load
