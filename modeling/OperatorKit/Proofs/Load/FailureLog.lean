import Mathlib.Data.List.Infix
import OperatorKit.Proofs.Load.Average
import OperatorKit.Proofs.Load.Requests

/-!
# Failures in the report and in the log

A report counts a failure by the status of an outcome, and a user logs one by its error. The two
agree on what becomes of every reply but a response with a status below 200: that is no success and
has no error. So the lines in the log are as many as the failures in the report and those responses
make them, unless a row is so full that it refuses an outcome.
-/

namespace OperatorKit

/-- A line in which a user tells about a request of its own that failed. -/
def LogLine.tellsFailure (l : LogLine) : Bool :=
  l.level == .debug && "[user:".toList.isPrefixOf l.message.toList &&
    decide (" failed: ".toList <:+: l.message.toList)

namespace Load

/-! ## Outcomes of replies -/

namespace Outcome

/-- A response came back whose status is below that of any success. -/
def isInterim (o : Outcome) : Bool := o.status.any fun code => decide (code < 200)

/-- The outcome is what becomes of a reply. -/
def IsReply (o : Outcome) : Prop := ∃ elapsed reply, o = .ofReply elapsed reply

/-- What becomes of a reply is a success, or it has an error, or its status is below 200. -/
theorem IsReply.cases {o : Outcome} (h : o.IsReply) :
    (o.succeeded = true ∧ o.error = none ∧ o.isInterim = false) ∨
    (o.succeeded = false ∧ o.error.isSome = true ∧ o.isInterim = false) ∨
    (o.succeeded = false ∧ o.error = none ∧ o.isInterim = true) := by
  obtain ⟨elapsed, reply, rfl⟩ := h
  cases reply with
  | lost loss => exact .inr (.inl ⟨rfl, rfl, rfl⟩)
  | status code =>
    simp only [ofReply, succeeded, isSuccess, isInterim, Option.any_some, decide_eq_true_eq,
      decide_eq_false_iff_not]
    by_cases hbad : 400 ≤ code
    · rw [if_pos hbad]
      exact .inr (.inl ⟨by omega, rfl, by omega⟩)
    · rw [if_neg hbad]
      by_cases hlow : code < 200
      · exact .inr (.inr ⟨by omega, rfl, hlow⟩)
      · exact .inl ⟨by omega, rfl, hlow⟩

/-- An error tells a failure from a success if and only if the status is not below 200. -/
theorem IsReply.error_iff {o : Outcome} (h : o.IsReply) :
    (o.error.isSome = !o.succeeded) ↔ o.isInterim = false := by
  obtain ⟨hsucceeded, herror, hinterim⟩ | ⟨hsucceeded, herror, hinterim⟩ |
    ⟨hsucceeded, herror, hinterim⟩ := h.cases <;> simp [hsucceeded, herror, hinterim]

end Outcome

/-! ## Histories -/

namespace History

/-- How many outcomes are counted as failures although their responses leave no line. -/
def unlogged (h : History) : Nat := h.countP fun x => x.2.isCounted && x.1.outcome.isInterim

/-- How many outcomes with an error found no room in their row. -/
def refused (h : History) : Nat := h.countP fun x => !x.2.isCounted && x.1.outcome.error.isSome

/-- Failures that are counted and errors that are told of differ by what is counted only and by
what is told of only. -/
theorem errors_add_unlogged {h : History} (hreplies : ∀ x ∈ h, x.1.outcome.IsReply) :
    h.countP (·.1.outcome.error.isSome) + h.unlogged = h.failures + h.refused := by
  induction h with
  | nil => rfl
  | cons x h ih =>
    obtain ⟨hx, hreplies⟩ := List.forall_mem_cons.mp hreplies
    have hrest := ih hreplies
    simp only [unlogged, failures, refused, ← Outcome.succeeded_eq_any, List.countP_cons] at hrest ⊢
    -- Each kind of reply, counted or refused, adds the same to both sides.
    obtain ⟨hsucceeded, herror, hinterim⟩ | ⟨hsucceeded, herror, hinterim⟩ |
      ⟨hsucceeded, herror, hinterim⟩ := hx.cases <;> cases x.2.isCounted <;>
      simp [hsucceeded, herror, hinterim] <;> omega

end History

/-! ## Tallies behind histories -/

namespace Tally

variable {t : Tally} {task : String} {row : Row}

theorem failureTotal_recordAll (h : t.Counted) (es : List Recording) :
    (t.recordAll es).failureTotal = t.failureTotal + (t.history es).failures := by
  induction es generalizing t with
  | nil => rfl
  | cons e es ih =>
    have hrecords := h.records e.task e.request e.outcome
    have hrest := ih (hrecords.counted h)
    rw [hrecords.failureTotal_eq h] at hrest
    simp only [recordAll, history, History.failures, ← Outcome.succeeded_eq_any, List.countP_cons,
      Bool.and_eq_true, Bool.not_eq_true'] at hrest ⊢
    omega

theorem requestTotal_recordAll (h : t.Counted) (es : List Recording) :
    (t.recordAll es).requestTotal = t.requestTotal + (t.history es).requests := by
  induction es generalizing t with
  | nil => rfl
  | cons e es ih =>
    have hrecords := h.records e.task e.request e.outcome
    have hrest := ih (hrecords.counted h)
    rw [hrecords.requestTotal_eq h] at hrest
    simp only [recordAll, history, History.requests, List.countP_cons] at hrest ⊢
    omega

theorem requests_le_requestTotal (h : t.row? task = some row) : row.requests ≤ t.requestTotal :=
  List.le_sum_of_mem (List.mem_map_of_mem (f := (·.2.requests)) (Sorted.mem_of_find? h))

/-- As long as all rows together have room for one more request, none of them refuses one. -/
theorem isCounted_of_room (h : t.Counted) {es : List Recording}
    (hroom : (t.recordAll es).requestTotal + 1 < countLimit) :
    ∀ x ∈ t.history es, x.2.isCounted = true := by
  induction es generalizing t with
  | nil =>
    intro x hx
    cases hx
  | cons e es ih =>
    have hrecords := h.records e.task e.request e.outcome
    have htotal := requestTotal_recordAll h (e :: es)
    refine List.forall_mem_cons.mpr ⟨?_, ih (hrecords.counted h) hroom⟩
    generalize (t.record e.task e.request e.outcome).1 = t',
      (t.record e.task e.request e.outcome).2 = fault at hrecords
    cases hrecords with
    | whole | counts => rfl
    | nothing hrow hfull =>
      have hle := requests_le_requestTotal hrow
      omega

end Tally

namespace Run

variable {r r' : Run} {e : Event} {es : List Event} {P : Outcome → Prop}

/-! ## What is recorded are replies -/

/-- The outcomes that users are about to record are all of some kind. -/
def Awaits (P : Outcome → Prop) (r : Run) : Prop :=
  ∀ (id : Nat) (u : User) (task : Task) (q : Request) (o : Outcome),
    r.users[id]? = some u → u.phase = .answered task q o → P o

theorem awaits_of_users (h : r.Awaits P) (husers : r'.users = r.users) : r'.Awaits P := by
  intro id u task q o hu
  rw [husers] at hu
  exact h id u task q o hu

/-- A user takes the place of another one, and what it is about to record is of that kind. -/
theorem Awaits.set (h : r.Awaits P) {id : Nat} {u : User} (husers : r'.users = r.users.set id u)
    (hu : ∀ task q o, u.phase = .answered task q o → P o) : r'.Awaits P := by
  intro j v task q o hv
  rw [husers] at hv
  exact forall_users_set (P := fun _ v => v.phase = .answered task q o → P o)
    (fun j _ v hv => h j v task q o hv) (hu task q o) j v hv

theorem Happens.awaits (hr : Happens r e r') (h : r.Awaits P)
    (he : ∀ id o, e = .user id (.reply o) → P o) : r'.Awaits P := by
  cases hr with
  | arrive =>
    intro id u task q o hu hphase
    obtain hu | ⟨-, rfl⟩ := user_of_arrive hu
    · exact h id u task q o hu hphase
    · -- It has not begun, so it has no outcome.
      cases hphase
  | user hu hacts =>
    cases hacts with
    | isAnswered o hphase =>
      refine h.set rfl fun task q o' heq => ?_
      cases heq
      exact he _ o rfl
    | begins | sends | crashesAtSend | givesUp | records | crashesAtRecord | pauses
    | crashesAtPause | wakes | leaves => exact h.set rfl fun _ _ _ heq => by cases heq
  | rested | stop | finish => exact awaits_of_users h rfl

theorem Awaits.of_recording? (h : r.Awaits P) {x : Recording} (hx : r.recording? e = some x) :
    P x.outcome := by
  obtain ⟨id, u, task, q, o, hu, hphase, rfl⟩ := recording?_eq_some hx
  exact h id u task q o hu hphase

theorem Awaits.of_recordings (h : r.Awaits P) (hsteps : r.steps es = some r')
    (hes : ∀ id o, Event.user id (.reply o) ∈ es → P o) : ∀ x ∈ r.recordings es, P x.outcome := by
  induction es generalizing r with
  | nil =>
    intro x hx
    cases hx
  | cons e es ih =>
    obtain ⟨r₁, hstep, hrest⟩ := steps_cons_eq_some.mp hsteps
    intro x hx
    rw [recordings, hstep, List.mem_append] at hx
    obtain hx | hx := hx
    · exact h.of_recording? (Option.mem_toList.mp hx)
    · refine ih ((happens_of_step hstep).awaits h fun id o heq => ?_) hrest
        (fun id o hmem => hes id o (List.mem_cons_of_mem _ hmem)) x hx
      exact hes id o (heq ▸ List.mem_cons_self)

/-! ## Lines of failures -/

theorem tellsFailure_of_level {l : LogLine} (h : l.level ≠ .debug) : l.tellsFailure = false := by
  rw [LogLine.tellsFailure, beq_eq_false_iff_ne.mpr h]
  rfl

theorem tellsFailure_started (id : Nat) :
    (⟨.debug, "User " ++ Decimal.text id ++ " started"⟩ : LogLine).tellsFailure = false := by
  have hprefix : "[user:".toList.isPrefixOf
      ("User " ++ Decimal.text id ++ " started").toList = false := by
    rw [String.toList_append, String.toList_append]
    rfl
  rw [LogLine.tellsFailure, hprefix, Bool.and_false, Bool.false_and]

/-- A user tells of an outcome in one line if it has an error, and in none otherwise. -/
theorem countP_failureLines (id : Nat) (q : Request) (o : Outcome) :
    (failureLines id q o).countP (·.tellsFailure) = [o].countP (·.error.isSome) := by
  rw [failureLines]
  cases herror : o.error with
  | none => simp [herror]
  | some reason =>
    have hinfix : " failed: ".toList <:+: (userTag id ++ q.method.text ++ " " ++ q.path ++
        " failed: " ++ reason).toList := by
      rw [String.toList_append, String.toList_append]
      exact List.infix_append _ _ _
    have hprefix : "[user:".toList.isPrefixOf (userTag id ++ q.method.text ++ " " ++ q.path ++
        " failed: " ++ reason).toList = true := by
      simp only [userTag, String.toList_append, List.append_assoc]
      exact List.isPrefixOf_iff_prefix.mpr (List.prefix_append _ _)
    have htells : (⟨.debug, userTag id ++ q.method.text ++ " " ++ q.path ++ " failed: " ++
        reason⟩ : LogLine).tellsFailure = true := by
      rw [LogLine.tellsFailure, hprefix, decide_eq_true hinfix]
      rfl
    simp only [List.countP_singleton, htells, herror, Option.isSome_some]

theorem countP_openingLines (id : Nat) (u : User) :
    (u.openingLines id).countP (·.tellsFailure) = 0 := by
  refine List.countP_eq_zero.mpr fun l hl => Bool.eq_false_iff.mp ?_
  obtain hl | hl := List.mem_append.mp hl
  · cases hproblem : u.worker.start.2 with
    | none =>
      rw [hproblem] at hl
      cases hl
    | some problem =>
      rw [hproblem] at hl
      rw [List.mem_singleton.mp hl]
      exact tellsFailure_of_level Level.noConfusion
  · rw [List.mem_singleton.mp hl]
    exact tellsFailure_started id

theorem countP_crashLines (users : List User) : (crashLines users).countP (·.tellsFailure) = 0 := by
  refine List.countP_eq_zero.mpr fun l hl => Bool.eq_false_iff.mp ?_
  obtain ⟨u, -, hu⟩ := List.mem_filterMap.mp hl
  split at hu
  case h_1 =>
    cases hu
    exact tellsFailure_of_level Level.noConfusion
  case h_2 => cases hu

/-- Lines that are not for the debugging of a run tell of no failure. -/
theorem countP_of_level {ls : List LogLine} (h : ∀ l ∈ ls, l.level ≠ .debug) :
    ls.countP (·.tellsFailure) = 0 :=
  List.countP_eq_zero.mpr fun l hl => Bool.eq_false_iff.mp (tellsFailure_of_level (h l hl))

theorem Happens.log_eq (h : Happens r e r') :
    ∃ ls, r'.log = r.log ++ ls ∧
      ls.countP (·.tellsFailure) = (r.recording? e).toList.countP (·.outcome.error.isSome) := by
  cases h with
  | arrive =>
    simp only [Run.arrive]
    split
    case isTrue => exact ⟨_, rfl, countP_of_level (by simp)⟩
    case isFalse => exact ⟨[], (List.append_nil _).symm, rfl⟩
  | rested => exact ⟨[], (List.append_nil _).symm, rfl⟩
  | stop cause => exact ⟨_, rfl, countP_of_level (by simp)⟩
  | finish => exact ⟨_, rfl, countP_crashLines r.users⟩
  | @user id u _ _ hu hacts =>
    cases hacts with
    | begins => exact ⟨_, rfl, countP_openingLines id u⟩
    | givesUp => exact ⟨_, rfl, countP_of_level (by simp [stoppedLine])⟩
    | records hphase | crashesAtRecord hphase =>
      rw [recording?_eq hu hphase]
      exact ⟨_, rfl, countP_failureLines id _ _⟩
    | sends | crashesAtSend | isAnswered | pauses | crashesAtPause | wakes | leaves =>
      exact ⟨[], (List.append_nil _).symm, rfl⟩

/-- The log has one more line of a failure for each outcome with an error that is handed over. -/
theorem countP_log (h : r.steps es = some r') :
    r'.log.countP (·.tellsFailure) =
      r.log.countP (·.tellsFailure) + (r.recordings es).countP (·.outcome.error.isSome) := by
  induction es generalizing r with
  | nil =>
    cases h
    rfl
  | cons e es ih =>
    obtain ⟨r₁, hstep, hrest⟩ := steps_cons_eq_some.mp h
    obtain ⟨ls, hlog, hcount⟩ := (happens_of_step hstep).log_eq
    rw [ih hrest, recordings, hstep, List.countP_append, hlog, List.countP_append, hcount,
      Nat.add_assoc]

theorem countP_log_of_start {plan : Plan} {scenario : Scenario} (h : start plan scenario = .ok r) :
    r.log.countP (·.tellsFailure) = 0 := by
  simp only [start] at h
  split at h
  case h_1 => cases h
  case h_2 =>
    cases h
    exact countP_of_level (by simp [startLine])

/-! ## Whole runs -/

variable {plan : Plan} {scenario : Scenario} {r₀ : Run} {report : Tally}

/-- In a run whose requests end in replies, an outcome has an error if and only if it is no
success, unless its status is below 200. So there is a line in the log for each failure in the
report, but for the failures of such a status, and for each error that found no room in its row.
The last needs a report of `2 ^ 64 - 1` requests at least. -/
theorem failures_match_lines (hstart : start plan scenario = .ok r₀)
    (hsteps : r₀.steps es = some r)
    (hreplies : ∀ id o, Event.user id (.reply o) ∈ es → o.IsReply)
    (hreport : r.report? = some report) :
    (∀ id o, Event.user id (.reply o) ∈ es →
      ((o.error.isSome = !o.succeeded) ↔ o.isInterim = false)) ∧
    (report.failures =
      if report.failureTotal < countLimit then .ok report.failureTotal
      else .error .countOverflow) ∧
    ∃ history, history = Tally.empty.history (r₀.recordings es) ∧
      r.log.countP (·.tellsFailure) + history.unlogged = report.failureTotal + history.refused ∧
      (report.requestTotal + 1 < countLimit → history.refused = 0) ∧
      ((∀ id o, Event.user id (.reply o) ∈ es → o.isInterim = false) → history.unlogged = 0) := by
  obtain ⟨rfl, -⟩ := closed_of_steps hstart hsteps report hreport
  obtain ⟨-, -, -, husers, -, htally, -⟩ := start_spec hstart
  have hsame : r.tally = Tally.empty.recordAll (r₀.recordings es) := by
    rw [tally_eq_recordAll hsteps, htally]
  -- What holds of the outcomes that come back holds of those that are recorded.
  have hrecorded : ∀ P : Outcome → Prop, (∀ id o, Event.user id (.reply o) ∈ es → P o) →
      ∀ x ∈ Tally.empty.history (r₀.recordings es), P x.1.outcome := by
    intro P hes x hx
    have hmem := List.mem_map_of_mem (f := (·.1)) hx
    rw [Tally.map_fst_history] at hmem
    refine Awaits.of_recordings (fun id u task q o hu => ?_) hsteps hes x.1 hmem
    rw [husers] at hu
    cases hu
  have hlines : r.log.countP (·.tellsFailure) =
      (Tally.empty.history (r₀.recordings es)).countP (·.1.outcome.error.isSome) := by
    have herrors := congrArg (List.countP (·.outcome.error.isSome))
      (Tally.map_fst_history Tally.empty (r₀.recordings es))
    rw [List.countP_map] at herrors
    rw [countP_log hsteps, countP_log_of_start hstart, Nat.zero_add]
    exact herrors.symm
  have hfailures : r.tally.failureTotal = (Tally.empty.history (r₀.recordings es)).failures := by
    rw [hsame, Tally.failureTotal_recordAll Tally.counted_empty]
    exact Nat.zero_add _
  refine ⟨fun id o ho => (hreplies id o ho).error_iff, ?_, _, rfl, ?_, fun hroom => ?_,
    fun hnone => ?_⟩
  · rw [Tally.failures, sumCounts_eq 0 _ (Nat.two_pow_pos 64), Nat.zero_add]
    rfl
  · rw [hlines, hfailures]
    exact History.errors_add_unlogged (hrecorded _ hreplies)
  · rw [hsame] at hroom
    refine List.countP_eq_zero.mpr fun x hx => ?_
    simp [Tally.isCounted_of_room Tally.counted_empty hroom x hx]
  · refine List.countP_eq_zero.mpr fun x hx => ?_
    simp [hrecorded _ hnone x hx]

/-- The lone user gets a reply, records what becomes of it and is taken out. -/
def repliedEvents (reply : Http.Reply) : List Event :=
  [.arrive, .user 0 .start, .user 0 (.send []), .user 0 (.reply (.ofReply .zero reply)),
    .user 0 .record, .stop .interrupted, .user 0 .leave, .finish]

/-- A request that no response comes back for is one failure and one line. -/
theorem lost_request_is_logged : ∃ r₀ r report, start lonePlan (.get "AAAA") = .ok r₀ ∧
    r₀.steps (repliedEvents (.lost .silence)) = some r ∧ r.report? = some report ∧
    report.failures = .ok 1 ∧ r.log.countP (·.tellsFailure) = 1 := by
  obtain ⟨r₀, hstart, r, hsteps, report, hreport, hfailures, hrequests⟩ :
      ∃ r₀, start lonePlan (.get "AAAA") = .ok r₀ ∧
        ∃ r, r₀.steps (repliedEvents (.lost .silence)) = some r ∧
          ∃ report, r.report? = some report ∧ report.failureTotal = 1 ∧ report.requestTotal = 1 :=
    ⟨_, rfl, _, rfl, _, rfl, rfl, rfl⟩
  have hreply : ∀ id o, Event.user id (.reply o) ∈ repliedEvents (.lost .silence) →
      o = .ofReply .zero (.lost .silence) := by
    intro id o ho
    simp only [repliedEvents, List.mem_cons, List.not_mem_nil, Event.user.injEq, Act.reply.injEq,
      reduceCtorEq, and_false, false_or, or_false] at ho
    exact ho.2
  obtain ⟨-, hcount, _, -, hlines, hroom, hnone⟩ := failures_match_lines hstart hsteps
    (fun id o ho => ⟨_, _, hreply id o ho⟩) hreport
  rw [hroom (by rw [hrequests]; decide), hnone fun id o ho => by rw [hreply id o ho]; rfl] at hlines
  rw [hfailures, if_pos (by decide)] at hcount
  rw [hfailures] at hlines
  exact ⟨r₀, r, report, hstart, hsteps, hreport, hcount, hlines⟩

/-- A response with the status 100 is a failure without a line. -/
theorem interim_response_is_not_logged :
    ¬((Outcome.ofReply .zero (.status 100)).error.isSome =
      !(Outcome.ofReply .zero (.status 100)).succeeded) ∧
    ∃ r₀ r report, start lonePlan (.get "AAAA") = .ok r₀ ∧
      r₀.steps (repliedEvents (.status 100)) = some r ∧ r.report? = some report ∧
      report.failures = .ok 1 ∧ r.log.countP (·.tellsFailure) = 0 := by
  refine ⟨by decide, _, _, _, rfl, rfl, rfl, rfl, ?_⟩
  decide +kernel

end Run
end Load
end OperatorKit
