import OperatorKit.Proofs.Load.Average
import OperatorKit.Proofs.Load.Balance
import OperatorKit.Proofs.Load.Recovery
import OperatorKit.Proofs.Load.Reporting

/-!
# The mix of tasks in a report

The users of a plan that takes the tasks in turn have a rotation each, and the requests of a
user that are counted are the first picks of its rotation. So a report has a task about as often
as the weight of the task has a part in the total weight, and what it is off by is at most
what the rotations of its users are off by together.
-/

namespace OperatorKit.Load

open Rotation (picksOf)

/-! ## Rotations under way -/

namespace Rotation

/-- A rotation that has picked `n` times. -/
structure After (ws : List UInt32) (n : Nat) (r : Rotation) : Prop where
  standing : r.Standing ws
  point_mod : r.point ws % totalWeight ws = n % totalWeight ws

variable {ws : List UInt32} {n i : Nat} {r r' : Rotation}

theorem after_fresh (ws : List UInt32) : fresh.After ws 0 := ⟨standing_fresh ws, by simp⟩

theorem After.next (h : r.After ws n) (hpos : 0 < totalWeight ws)
    (hnext : r.next ws = .ok (i, r')) :
    locate? ws (n % totalWeight ws) = some i ∧ r'.After ws (n + 1) := by
  obtain ⟨j, s, hs, hlocate, hstanding, hpoint⟩ := next_spec hpos h.standing
  rw [hs] at hnext
  cases hnext
  rw [h.point_mod] at hlocate hpoint
  refine ⟨hlocate, hstanding, ?_⟩
  rw [hpoint, Nat.mod_add_mod]

end Rotation

/-! ## Users in their turns -/

/-- The task of the request that a user has not recorded. -/
def Phase.task? : Phase → Option Task
  | .waiting task _ | .answered task _ _ => some task
  | _                                    => none

/-- A user whose counted requests are the first `n` picks of its rotation. The request that
it has not recorded is the pick behind them. -/
def User.InTurn (tasks : List Task) (n : Nat) (u : User) : Prop :=
  u.phase.isOver = false →
    ∃ r, u.picker = .rotating r ∧
      match u.phase.task? with
      | none      => r.After (tasks.map (·.weight)) n
      | some task => r.After (tasks.map (·.weight)) (n + 1) ∧
        ∃ i, locate? (tasks.map (·.weight)) (n % totalWeight (tasks.map (·.weight))) = some i ∧
          tasks[i]? = some task

namespace User

variable {tasks : List Task} {n : Nat} {u : User}

theorem inTurn_of_isOver (h : u.phase.isOver = true) : u.InTurn tasks n := by
  intro hover
  rw [h] at hover
  cases hover

theorem inTurn_fresh (scenario : Scenario) : (fresh scenario .roundRobin).InTurn tasks 0 :=
  fun _ => ⟨.fresh, rfl, Rotation.after_fresh _⟩

/-- The task that a user is busy with is its next pick. -/
theorem InTurn.next {words rest : List UInt32} {picker : Picker} {task : Task} {q : Request}
    (h : u.InTurn tasks n) (hpos : 0 < totalWeight (tasks.map (·.weight)))
    (hready : u.phase = .ready) (hnext : u.next tasks words = .ok ((picker, task, q), rest)) :
    { u with picker, phase := .waiting task q }.InTurn tasks n := by
  rw [InTurn, hready] at h
  obtain ⟨r, hrotating, hafter⟩ := h rfl
  obtain ⟨i, words', hpick, htask, -⟩ := next_eq_ok hnext
  simp only [hrotating, Picker.next] at hpick
  split at hpick
  case h_1 => cases hpick
  case h_2 hmoved =>
    cases hpick
    obtain ⟨hlocate, hafter⟩ := hafter.next hpos hmoved
    exact fun _ => ⟨_, rfl, hafter, i, hlocate, htask⟩

end User

/-! ## Runs in step with their rotations -/

/-- A run whose tally counts the first picks of each user, as many as `counts` says. -/
structure Run.InStep (counts : Nat → Nat) (r : Run) : Prop where
  rotating : r.plan.picker = .roundRobin
  weighted : 0 < totalWeight (r.tasks.map (·.weight))
  named : (r.tasks.map (·.name)).Nodup
  turn (id : Nat) (u : User) : r.users[id]? = some u → u.InTurn r.tasks (counts id)
  unknown (id : Nat) : r.users.length ≤ id → counts id = 0
  counted : r.tally.Counted
  shown (name : String) : (r.tally.row? name).isSome → 0 < r.tally.requestsOf name
  requests (i : Nat) (task : Task) : r.tasks[i]? = some task →
    r.tally.requestsOf task.name =
      ∑ id ∈ Finset.range r.users.length, picksOf (r.tasks.map (·.weight)) i (counts id)
  total : r.tally.requestTotal = ∑ id ∈ Finset.range r.users.length, counts id

/-- What one user adds to a sum over all users. -/
theorem sum_users_update (f counts : Nat → Nat) {id users : Nat} (hid : id < users) (n : Nat) :
    ∑ j ∈ Finset.range users, f (Function.update counts id n j) + f (counts id) =
      ∑ j ∈ Finset.range users, f (counts j) + f n := by
  have hmem := Finset.mem_range.mpr hid
  have hothers : ∑ j ∈ (Finset.range users).erase id, f (Function.update counts id n j) =
      ∑ j ∈ (Finset.range users).erase id, f (counts j) :=
    Finset.sum_congr rfl fun j hj => by
      rw [Function.update_of_ne (Finset.ne_of_mem_erase hj)]
  rw [← Finset.add_sum_erase _ _ hmem, ← Finset.add_sum_erase _ (fun j => f (counts j)) hmem,
    hothers, Function.update_self]
  omega

namespace Run.InStep

variable {counts : Nat → Nat} {r r' : Run} {id : Nat} {u u' : User}

theorem turn_set {counts' : Nat → Nat} (h : r.InStep counts)
    (hothers : ∀ j ≠ id, counts' j = counts j) (hturn : u'.InTurn r.tasks (counts' id)) :
    ∀ (j : Nat) (v : User), (r.users.set id u')[j]? = some v → v.InTurn r.tasks (counts' j) := by
  refine forall_users_set (fun j hj v hv => ?_) hturn
  rw [hothers j hj]
  exact h.turn j v hv

/-- An act that leaves the tally as it is. -/
theorem keep (h : r.InStep counts) (husers : r'.users = r.users.set id u')
    (hplan : r'.plan = r.plan) (htasks : r'.tasks = r.tasks) (htally : r'.tally = r.tally)
    (hturn : u'.InTurn r.tasks (counts id)) : r'.InStep counts where
  rotating := hplan ▸ h.rotating
  weighted := htasks ▸ h.weighted
  named := htasks ▸ h.named
  turn := by
    rw [husers, htasks]
    exact h.turn_set (fun _ _ => rfl) hturn
  unknown j hj := by
    rw [husers, List.length_set] at hj
    exact h.unknown j hj
  counted := htally ▸ h.counted
  shown := htally ▸ h.shown
  requests := by
    rw [husers, List.length_set, htasks, htally]
    exact h.requests
  total := by
    rw [husers, List.length_set, htally]
    exact h.total

/-- An act that counts the next pick of its user. -/
theorem count {task : Task} {q : Request} {o : Outcome} {fault : Option Fault} {i : Nat}
    (h : r.InStep counts) (hid : id < r.users.length) (husers : r'.users = r.users.set id u')
    (hplan : r'.plan = r.plan) (htasks : r'.tasks = r.tasks)
    (hrecords : r.tally.Records task.name q o r'.tally fault)
    (hcounted : (Extent.ofFault fault).isCounted = true)
    (hlocate : locate? (r.tasks.map (·.weight))
      (counts id % totalWeight (r.tasks.map (·.weight))) = some i)
    (htask : r.tasks[i]? = some task) (hturn : u'.InTurn r.tasks (counts id + 1)) :
    r'.InStep (Function.update counts id (counts id + 1)) where
  rotating := hplan ▸ h.rotating
  weighted := htasks ▸ h.weighted
  named := htasks ▸ h.named
  turn := by
    rw [husers, htasks]
    refine h.turn_set (fun j hj => Function.update_of_ne hj _ _) ?_
    rwa [Function.update_self]
  unknown j hj := by
    rw [husers, List.length_set] at hj
    rw [Function.update_of_ne (by omega)]
    exact h.unknown j hj
  counted := hrecords.counted h.counted
  shown := hrecords.requestsOf_pos h.shown
  requests := by
    intro j task' htask'
    rw [htasks] at htask' ⊢
    rw [husers, List.length_set, hrecords.requestsOf_eq, h.requests j task' htask']
    have hsum := sum_users_update (picksOf (r.tasks.map (·.weight)) j) counts hid (counts id + 1)
    rw [Rotation.picksOf_succ, hlocate] at hsum
    -- A task has the name of another one only if it is the same.
    have hsame : task'.name = task.name ↔ i = j := by
      refine ⟨fun hname => ?_, fun hij => ?_⟩
      · have hi := (List.getElem?_eq_some_iff.mp htask).1
        have hnames : (r.tasks.map (·.name))[i]? = (r.tasks.map (·.name))[j]? := by
          rw [List.getElem?_map, List.getElem?_map, htask, htask', Option.map_some,
            Option.map_some, hname]
        exact (List.getElem?_inj (by simpa using hi) h.named).mp hnames
      · rw [hij, htask'] at htask
        rw [Option.some.inj htask]
    simp only [hsame, hcounted, and_true, Option.some.injEq] at hsum ⊢
    omega
  total := by
    have hsum := sum_users_update (fun n => n) counts hid (counts id + 1)
    rw [husers, List.length_set, hrecords.requestTotal_eq h.counted, if_pos hcounted, h.total]
    omega

/-- Whatever fault meets the recording of an outcome, the tally counts the first picks of each
user. -/
theorem record {task : Task} {q : Request} {o : Outcome} {tally : Tally} {fault : Option Fault}
    (h : r.InStep counts) (hu : r.users[id]? = some u) (hphase : u.phase = .answered task q o)
    (hrecord : r.tally.record task.name q o = (tally, fault))
    (husers : r'.users = r.users.set id u') (hplan : r'.plan = r.plan)
    (htasks : r'.tasks = r.tasks) (htally : r'.tally = tally) (hpicker : u'.picker = u.picker)
    (hnext : u'.phase = .recorded ∧ fault = none ∨ u'.phase.isOver = true) :
    ∃ counts', r'.InStep counts' := by
  have hid := (List.getElem?_eq_some_iff.mp hu).1
  have hrecords := h.counted.records task.name q o
  simp only [hrecord] at hrecords
  have hturn := h.turn id u hu
  rw [User.InTurn, hphase] at hturn
  obtain ⟨rotation, hrotating, hafter, i, hlocate, htask⟩ := hturn rfl
  cases hcounted : (Extent.ofFault fault).isCounted with
  | true =>
    refine ⟨_, h.count hid husers hplan htasks (htally ▸ hrecords) hcounted hlocate htask ?_⟩
    obtain ⟨hrecorded, -⟩ | hover := hnext
    · intro _
      rw [hrecorded]
      exact ⟨rotation, hpicker.trans hrotating, hafter⟩
    · exact User.inTurn_of_isOver hover
  | false =>
    -- The tally has no room for the request, and its user is over.
    obtain ⟨-, rfl⟩ | hover := hnext
    · cases hcounted
    · cases hrecords with
      | whole | counts => cases hcounted
      | nothing => exact ⟨counts, h.keep husers hplan htasks htally (User.inTurn_of_isOver hover)⟩

/-- A user that arrives has picked nothing. -/
theorem arrive (h : r.InStep counts) : r.arrive.InStep counts := by
  obtain ⟨husers, hplan, -, htasks, htally, -⟩ := arrive_frame r
  have hnew : counts r.users.length = 0 := h.unknown _ (Nat.le_refl _)
  exact {
    rotating := hplan ▸ h.rotating
    weighted := htasks ▸ h.weighted
    named := htasks ▸ h.named
    turn := by
      intro j v hv
      rw [htasks]
      obtain hv | ⟨hj, rfl⟩ := user_of_arrive hv
      · exact h.turn j v hv
      · rw [h.rotating, h.unknown j hj]
        exact User.inTurn_fresh _
    unknown := by
      intro j hj
      rw [husers, List.length_append] at hj
      exact h.unknown j (Nat.le_of_succ_le hj)
    counted := htally ▸ h.counted
    shown := htally ▸ h.shown
    requests := by
      intro i task htask
      rw [htasks] at htask ⊢
      rw [husers, List.length_append, List.length_singleton, Finset.sum_range_succ, hnew, htally,
        Rotation.picksOf_zero, Nat.add_zero]
      exact h.requests i task htask
    total := by
      rw [husers, List.length_append, List.length_singleton, Finset.sum_range_succ, hnew, htally,
        Nat.add_zero]
      exact h.total }

/-- An act leaves a run in step, unless a fault stops a request. -/
theorem act {a : Act} (h : r.InStep counts) (hu : r.users[id]? = some u)
    (hacts : Acts r id u a r') (ha : ∀ e, a ≠ .fail e) : ∃ counts', r'.InStep counts' := by
  have hturn := h.turn id u hu
  cases hacts with
  | begins hphase | isAnswered _ hphase | pauses hphase _ | wakes hphase =>
    rw [User.InTurn, hphase] at hturn
    exact ⟨counts, h.keep rfl rfl rfl rfl hturn⟩
  | sends hphase hnext =>
    exact ⟨counts, h.keep rfl rfl rfl rfl (hturn.next h.weighted hphase hnext)⟩
  | givesUp e _ => exact absurd rfl (ha e)
  | records hphase hrecord =>
    exact h.record hu hphase hrecord rfl rfl rfl rfl rfl (.inl ⟨rfl, rfl⟩)
  | crashesAtRecord hphase hrecord =>
    exact h.record hu hphase hrecord rfl rfl rfl rfl rfl (.inr rfl)
  | crashesAtSend _ _ _ | crashesAtPause _ _ _ | leaves _ _ =>
    exact ⟨counts, h.keep rfl rfl rfl rfl (User.inTurn_of_isOver rfl)⟩

/-- An event leaves a run in step, unless a fault stops a request. -/
theorem event {e : Event} (h : r.InStep counts) (he : ∀ id fault, e ≠ .user id (.fail fault))
    (hr : Happens r e r') : ∃ counts', r'.InStep counts' := by
  cases hr with
  | arrive => exact ⟨counts, h.arrive⟩
  | @user id _ _ _ hu hacts =>
    refine h.act hu hacts fun fault hfail => he id fault ?_
    rw [hfail]
  | rested | stop | finish => exact ⟨counts, { h with }⟩

theorem of_start {plan : Plan} {scenario : Scenario} (hstart : start plan scenario = .ok r)
    (hpicker : plan.picker = .roundRobin) : r.InStep fun _ => 0 := by
  obtain ⟨hplan, -, -, husers, -, htally, hnames, hpos, -⟩ := start_spec hstart
  exact {
    rotating := hplan ▸ hpicker
    weighted := hpos
    named := hnames ▸ scenario.nodup_names
    turn := fun id u hu => by
      rw [husers] at hu
      cases hu
    unknown := fun _ _ => rfl
    counted := htally ▸ Tally.counted_empty
    shown := fun name hsome => by
      rw [htally] at hsome
      cases hsome
    requests := fun i task _ => by
      rw [htally, husers]
      rfl
    total := by
      rw [htally, husers]
      rfl }

end Run.InStep

namespace Run

variable {plan : Plan} {scenario : Scenario} {r₀ r : Run} {es : List Event} {report : Tally}

/-- In the report of a run whose users take the tasks in turn, a task has its part of all
requests, give or take its weight times the weight of the others for each user. A task without
weight is not in the report. -/
theorem report_keeps_mix (hstart : start plan scenario = .ok r₀)
    (hpicker : plan.picker = .roundRobin) (hsteps : r₀.steps es = some r)
    (hfaults : ∀ id e, Event.user id (.fail e) ∉ es) (hreport : r.report? = some report) :
    0 < totalWeight (r.tasks.map (·.weight)) ∧
    (plan.weights ≠ [] → r.tasks.map (·.weight) = plan.weights) ∧
    (∀ task ∈ r.tasks,
      |(report.requestsOf task.name : ℤ) * totalWeight (r.tasks.map (·.weight)) -
          task.weight.toNat * report.requestTotal| ≤
        r.users.length *
          (task.weight.toNat * (totalWeight (r.tasks.map (·.weight)) - task.weight.toNat : ℤ)) ∧
      (task.weight = 0 → report.row? task.name = none)) ∧
    report.requests =
      if report.requestTotal < countLimit then .ok report.requestTotal
      else .error .countOverflow := by
  obtain ⟨-, -, -, -, -, -, -, -, hweights⟩ := start_spec hstart
  have hevents : ∀ e ∈ es, ∀ id fault, e ≠ .user id (.fail fault) := by
    rintro e he id fault rfl
    exact hfaults id fault he
  obtain ⟨counts, h⟩ := steps_preserve_of (P := fun s => ∃ counts, s.InStep counts)
    (fun he hs hr => hs.elim fun _ hs => hs.event he hr) hevents hsteps
    ⟨_, .of_start hstart hpicker⟩
  obtain ⟨rfl, -⟩ := closed_of_steps hstart hsteps report hreport
  refine ⟨h.weighted, (steps_setting hsteps).2.2 ▸ hweights, fun task htask => ?_, ?_⟩
  · obtain ⟨i, hi⟩ := List.mem_iff_getElem?.mp htask
    have hw : (r.tasks.map (·.weight))[i]? = some task.weight := by
      rw [List.getElem?_map, hi, Option.map_some]
    have hrequests := h.requests i task hi
    refine ⟨?_, fun hzero => ?_⟩
    · rw [hrequests, h.total]
      exact Rotation.abs_sum_picksOf_le h.weighted hw r.users.length counts
    · rw [hzero] at hw
      rw [Finset.sum_eq_zero fun id _ => Rotation.picksOf_eq_zero hw (counts id)] at hrequests
      by_contra hrow
      have hshown := h.shown task.name (Option.isSome_iff_ne_none.mpr hrow)
      omega
  · rw [Tally.requests, sumCounts_eq 0 _ (by decide), Nat.zero_add]
    rfl

/-- A plan of two users that ask for the time twice as often as for work with the cache, and
never for random bytes. -/
def pairPlan : Plan := { lonePlan with users := 2, weights := [2, 0, 1] }

/-- Each of the two users records the time once. When they are taken out, the first one has a
request under way and the second one pauses. -/
def pairEvents : List Event :=
  [.arrive, .user 0 .start, .user 0 (.send []), .rested, .arrive, .user 1 .start,
    .user 1 (.send []), .user 0 (.reply ⟨some 200, .zero, none⟩),
    .user 1 (.reply ⟨some 503, .zero, none⟩), .user 1 .record, .user 0 .record,
    .user 0 (.pause []), .user 1 (.pause []), .user 0 .wake, .user 0 (.send []),
    .stop .interrupted, .user 1 .leave, .user 0 .leave, .finish]

theorem mix_of_two_users : ∃ r₀ r report, start pairPlan (.get "AAAA") = .ok r₀ ∧
    r₀.steps pairEvents = some r ∧ r.report? = some report ∧ r.users.length = 2 ∧
    report.requestsOf "get_time" = 2 ∧ report.requests = .ok 2 ∧
    |(report.requestsOf "get_time" : ℤ) * 3 - 2 * report.requestTotal| ≤ 2 * (2 * (3 - 2)) ∧
    report.row? "get_random_bytes" = none := by
  obtain ⟨r₀, hstart, hpicker, r, hsteps, htasks, husers, report, hreport, hcount, htotal⟩ :
      ∃ r₀, start pairPlan (.get "AAAA") = .ok r₀ ∧ pairPlan.picker = .roundRobin ∧
        ∃ r, r₀.steps pairEvents = some r ∧
          r.tasks = [⟨"get_time", 2, .time "AAAA"⟩, ⟨"get_random_bytes", 0, .randomBytes "AAAA"⟩,
            ⟨"use_cache", 1, .cache "AAAA"⟩] ∧
          r.users.length = 2 ∧ ∃ report, r.report? = some report ∧
            report.requestsOf "get_time" = 2 ∧ report.requestTotal = 2 :=
    ⟨_, rfl, rfl, _, rfl, rfl, rfl, _, rfl, rfl, rfl⟩
  obtain ⟨-, -, hmix, hrequests⟩ :=
    report_keeps_mix hstart hpicker hsteps (by simp [pairEvents]) hreport
  rw [htasks, husers] at hmix
  obtain ⟨hbound, -⟩ := hmix ⟨"get_time", 2, .time "AAAA"⟩ (by simp)
  obtain ⟨-, hrow⟩ := hmix ⟨"get_random_bytes", 0, .randomBytes "AAAA"⟩ (by simp)
  rw [htotal, if_pos (by decide)] at hrequests
  exact ⟨r₀, r, report, hstart, hsteps, hreport, husers, hcount, hrequests, hbound, hrow rfl⟩

end Run
end OperatorKit.Load
