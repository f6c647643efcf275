import OperatorKit.Proofs.Load.Pause
import OperatorKit.Proofs.Load.Plan
import OperatorKit.Proofs.Load.Proportion
import OperatorKit.Proofs.Load.Rotation
import OperatorKit.Proofs.Load.Step
import OperatorKit.Proofs.Load.Weights

/-!
# Users are always ready to go on

In a run whose weights were accepted, every user can pick a task, make its request
and pause, however often it did so before and whatever random words there are. What
it picks is a task with a weight, and its pauses lie in the range of the plan.
-/

namespace OperatorKit.Load

open OperatorKit.Random

/-! ## Picks -/

namespace Picker

/-- A rotation stands where picking from the weights can leave it. -/
def Standing (ws : List UInt32) : Picker → Prop
  | random     => True
  | rotating r => r.Standing ws

theorem standing_ofKind (ws : List UInt32) (kind : PickerKind) : (ofKind kind).Standing ws := by
  cases kind with
  | random => exact trivial
  | roundRobin => exact Rotation.standing_fresh ws

/-- A pick is reliable: it is an index with a weight, and the next one is too. -/
theorem reliable_next {ws : List UInt32} {p : Picker} (hpos : 0 < totalWeight ws)
    (hp : p.Standing ws) :
    (p.next ws).Reliable fun pick => (∃ w, ws[pick.1]? = some w ∧ w ≠ 0) ∧ pick.2.Standing ws := by
  cases p with
  | random =>
    have hnext : random.next ws = (pickRandom ws).bind fun i => .pure (i, random) := by
      funext words
      simp only [next, Draw.bind, Draw.pure]
      cases pickRandom ws words <;> rfl
    rw [hnext]
    exact (reliable_pickRandom hpos).bind fun i hi => Draw.reliable_pure ⟨hi, trivial⟩
  | rotating r =>
    obtain ⟨i, r', hi, hlocate, hr', -⟩ := Rotation.next_spec hpos hp
    have hnext : (rotating r).next ws = .pure (i, rotating r') := by
      funext words
      simp only [next, hi, Draw.pure]
    rw [hnext]
    exact Draw.reliable_pure ⟨weight_of_locate? hlocate, hr'⟩

end Picker

/-! ## Requests -/

theorem Worker.reliable_request (w : Worker) (work : Work) :
    (w.request work).Reliable fun _ => True := by
  cases work with
  | post id | time id | cache id => exact Draw.reliable_pure trivial
  | randomBytes id =>
    have hrequest : w.request (.randomBytes id) =
        (between32 randomBytesRange.1 randomBytesRange.2).bind fun n =>
          .pure ⟨.get, webhookPath id, .single "get_random_bytes" (.nat n)⟩ := by
      funext words
      simp only [request, Draw.bind, Draw.pure]
      cases between32 randomBytesRange.1 randomBytesRange.2 words <;> rfl
    rw [hrequest]
    exact (reliable_between32 (by decide) (by decide)).bind fun n _ => Draw.reliable_pure trivial

namespace User

variable {tasks : List Task} {u : User}

/-- A pick among tasks is a task that has a weight. -/
theorem reliable_pick (hpos : 0 < totalWeight (tasks.map (·.weight)))
    (hu : u.picker.Standing (tasks.map (·.weight))) :
    (u.picker.next (tasks.map (·.weight))).Reliable fun pick =>
      (∃ task, tasks[pick.1]? = some task ∧ task.weight ≠ 0) ∧
        pick.2.Standing (tasks.map (·.weight)) := by
  refine (Picker.reliable_next hpos hu).mono ?_
  rintro ⟨i, p⟩ ⟨⟨w, hw, hw0⟩, hp⟩
  rw [List.getElem?_map, Option.map_eq_some_iff] at hw
  obtain ⟨task, htask, rfl⟩ := hw
  exact ⟨⟨task, htask, hw0⟩, hp⟩

/-- A user reliably makes the request of a task that has a weight. -/
theorem reliable_next (hpos : 0 < totalWeight (tasks.map (·.weight)))
    (hu : u.picker.Standing (tasks.map (·.weight))) :
    (u.next tasks).Reliable fun sending =>
      sending.2.1 ∈ tasks ∧ sending.2.1.weight ≠ 0 ∧
        sending.1.Standing (tasks.map (·.weight)) := by
  have hnext : u.next tasks = (u.picker.next (tasks.map (·.weight))).bind fun pick =>
      tasks[pick.1]?.elim (fun _ => .error (.outOfBounds tasks.length pick.1)) fun task =>
        (u.worker.request task.work).bind fun q => .pure (pick.2, task, q) := by
    funext words
    simp only [next, Draw.bind]
    cases u.picker.next (tasks.map (·.weight)) words with
    | error e => rfl
    | ok result =>
      obtain ⟨⟨i, p⟩, rest⟩ := result
      simp only
      cases tasks[i]? with
      | none => rfl
      | some task =>
        simp only [Option.elim_some, Draw.bind, Draw.pure]
        cases u.worker.request task.work rest <;> rfl
  rw [hnext]
  refine (reliable_pick hpos hu).bind ?_
  rintro ⟨i, p⟩ ⟨⟨task, htask, hweight⟩, hp⟩
  simp only [htask, Option.elim_some]
  exact (u.worker.reliable_request task.work).bind fun q _ =>
    Draw.reliable_pure ⟨List.mem_of_getElem? htask, hweight, hp⟩

end User

/-! ## Runs -/

namespace Run

variable {r r' : Run} {id : Nat} {u : User}

/-- Some task can be picked, and the users' pickers stand where picks can leave them. -/
structure Ready (r : Run) : Prop where
  weighted : 0 < totalWeight (r.tasks.map (·.weight))
  standing (u : User) : u ∈ r.users → u.picker.Standing (r.tasks.map (·.weight))

/-- An act keeps its user's picker, unless it picks. -/
theorem Acts.picker {a : Act} (h : Acts r id u a r') :
    ∃ u', r'.users = r.users.set id u' ∧
      (u'.picker = u.picker ∨
        ∃ words rest task q, u.next r.tasks words = .ok ((u'.picker, task, q), rest)) := by
  cases h with
  | sends h hnext => exact ⟨_, rfl, .inr ⟨_, _, _, _, hnext⟩⟩
  | begins | crashesAtSend | isAnswered | givesUp | records | crashesAtRecord | pauses
  | crashesAtPause | wakes | leaves => exact ⟨_, rfl, .inl rfl⟩

theorem Happens.ready {e : Event} (h : Happens r e r') (hr : r.Ready) : r'.Ready := by
  have htasks := h.setting.2.2
  refine ⟨htasks ▸ hr.weighted, fun v hv => ?_⟩
  rw [htasks]
  cases h with
  | arrive =>
    rw [(arrive_frame r).1] at hv
    rcases List.mem_append.mp hv with hv | hv
    · exact hr.standing v hv
    · rw [List.mem_singleton.mp hv]
      exact Picker.standing_ofKind _ _
  | user hu hacts =>
    -- Only the user that acts may have another picker, and only by picking.
    obtain ⟨u', husers, hpicker⟩ := hacts.picker
    have hstanding := hr.standing _ (List.mem_of_getElem? hu)
    rw [husers] at hv
    rcases List.mem_or_eq_of_mem_set hv with hv | rfl
    · exact hr.standing v hv
    · rcases hpicker with hsame | ⟨_, _, _, _, hnext⟩
      · rw [hsame]
        exact hstanding
      · exact ((User.reliable_next hr.weighted hstanding).sound hnext).2.2
  | rested | stop | finish => exact hr.standing v hv

theorem ready_of_steps {plan : Plan} {scenario : Scenario} {r₀ : Run} {es : List Event}
    (hstart : start plan scenario = .ok r₀) (hsteps : r₀.steps es = some r) : r.Ready := by
  obtain ⟨-, -, -, husers, -, -, -, hpos, -⟩ := start_spec hstart
  refine steps_preserve (fun hr h => h.ready hr) hsteps ⟨hpos, fun u hu => ?_⟩
  rw [husers] at hu
  cases hu

/-- A user that sends has picked a task with a weight. -/
theorem Ready.phase_of_send (hr : r.Ready) {words : List UInt32}
    (h : r.step (.user id (.send words)) = some r') :
    ∃ u task q, r'.users[id]? = some u ∧ u.phase = .waiting task q ∧ task ∈ r.tasks ∧
      task.weight ≠ 0 := by
  cases happens_of_step h with
  | user hu hacts =>
    have hid := (List.getElem?_eq_some_iff.mp hu).1
    have hnext := User.reliable_next hr.weighted (hr.standing _ (List.mem_of_getElem? hu))
    cases hacts with
    | sends _ hok =>
      obtain ⟨htask, hweight, -⟩ := hnext.sound hok
      exact ⟨_, _, _, List.getElem?_set_self hid, rfl, htask, hweight⟩
    | crashesAtSend _ herror hstarved => exact absurd (hnext.starved herror) hstarved

/-- A user that begins a pause has drawn one in the range of the plan. -/
theorem phase_of_pause {words : List UInt32} (h : r.step (.user id (.pause words)) = some r') :
    ∃ u span, r'.users[id]? = some u ∧ u.phase = .pausing span ∧
      r.plan.pauses.shortest ≤ span ∧ span ≤ r.plan.pauses.longest := by
  cases happens_of_step h with
  | user hu hacts =>
    have hid := (List.getElem?_eq_some_iff.mp hu).1
    have hdraw := r.plan.pauses.reliable_draw
    cases hacts with
    | pauses _ hok =>
      exact ⟨_, _, List.getElem?_set_self hid, rfl, hdraw.sound hok⟩
    | crashesAtPause _ herror hstarved => exact absurd (hdraw.starved herror) hstarved

end Run

/-! ## Plans of orders -/

/-- The pauses of an order's plan range between the two spans that were ordered. -/
theorem Plan.ofOrder_spec {o : Order} {plan : Plan} (h : ofOrder o = .ok plan) :
    plan.weights = o.weights ∧ plan.picker = o.picker ∧
      Span.ofFloat? o.minWait = some plan.pauses.shortest ∧
      Span.ofFloat? o.maxWait = some plan.pauses.longest := by
  obtain ⟨host, interval, pauses, -, -, -, hpauses, rfl⟩ := ofOrder_eq_ok_iff.mp h
  exact ⟨rfl, rfl, PauseRange.ofSeconds?_eq_some_iff.mp hpauses⟩

namespace Run

/-- In a run of any plan whose weights were accepted, a user never faults on picking a
task, making its request or pausing, and all numbers on the way fit in their words. -/
theorem users_never_fault {plan : Plan} {scenario : Scenario} {r₀ r : Run} {es : List Event}
    (hstart : start plan scenario = .ok r₀) (hsteps : r₀.steps es = some r) :
    (∀ o, Plan.ofOrder o = .ok plan → plan.weights = o.weights ∧ plan.picker = o.picker ∧
      Span.ofFloat? o.minWait = some plan.pauses.shortest ∧
      Span.ofFloat? o.maxWait = some plan.pauses.longest) ∧
    (plan.weights ≠ [] → r.tasks.map (·.weight) = plan.weights) ∧
    0 < totalWeight (r.tasks.map (·.weight)) ∧ totalWeight (r.tasks.map (·.weight)) < 2 ^ 64 ∧
    (∀ u ∈ r.users, u.picker.Standing (r.tasks.map (·.weight)) ∧
      (u.picker.next (r.tasks.map (·.weight))).Reliable
        (fun pick => ∃ task, r.tasks[pick.1]? = some task ∧ task.weight ≠ 0) ∧
      (u.next r.tasks).Reliable
        fun sending => sending.2.1 ∈ r.tasks ∧ sending.2.1.weight ≠ 0) ∧
    plan.pauses.mode.Fits ∧
    (plan.pauses.draw).Reliable
      (fun span => plan.pauses.shortest ≤ span ∧ span ≤ plan.pauses.longest) ∧
    (∀ id words r', r.step (.user id (.send words)) = some r' →
      ∃ u task q, r'.users[id]? = some u ∧ u.phase = .waiting task q ∧ task ∈ r.tasks ∧
        task.weight ≠ 0) ∧
    ∀ id words r', r.step (.user id (.pause words)) = some r' →
      ∃ u span, r'.users[id]? = some u ∧ u.phase = .pausing span ∧
        plan.pauses.shortest ≤ span ∧ span ≤ plan.pauses.longest := by
  obtain ⟨hplan, -, -, -, -, -, hnames, -, hweights⟩ := start_spec hstart
  obtain ⟨hplan', -, htasks⟩ := steps_setting hsteps
  have hr := ready_of_steps hstart hsteps
  have hlength : (r.tasks.map (·.weight)).length = 3 := by
    have := congrArg List.length hnames
    simpa [htasks, scenario.length_tasks] using this
  have hpauses : r.plan.pauses = plan.pauses := by rw [hplan', hplan]
  refine ⟨fun o ho => Plan.ofOrder_spec ho, fun hne => htasks ▸ hweights hne, hr.weighted,
    totalWeight_lt (by rw [hlength]; decide), fun u hu => ⟨hr.standing u hu, ?_, ?_⟩,
    plan.pauses.mode_spec.1, plan.pauses.reliable_draw, fun id words r' => hr.phase_of_send, ?_⟩
  · exact (User.reliable_pick hr.weighted (hr.standing u hu)).mono fun _ h => h.1
  · exact (User.reliable_next hr.weighted (hr.standing u hu)).mono fun _ h => ⟨h.1, h.2.1⟩
  · intro id words r' h
    rw [← hpauses]
    exact phase_of_pause h

/-- A plan of one user that picks its tasks at random, never the first one, and pauses
for one to two seconds. -/
def randomPlan : Plan where
  host := "http://localhost"
  users := 1
  spawnRate := 1
  spawnInterval := .zero
  runTime := none
  pauses := ⟨.ofWord 1, .ofWord 2, Span.le_def.mpr (by decide)⟩
  picker := .random
  weights := [0, 2, 1]
  timeout := .zero

theorem random_user_never_faults : ∃ r₀ r, start randomPlan (.get "AAAA") = .ok r₀ ∧
    r₀.steps [.arrive, .user 0 .start] = some r ∧ r.tasks.map (·.weight) = [0, 2, 1] ∧
    randomPlan.pauses.mode.Fits ∧
    ∀ u ∈ r.users, (u.next r.tasks).Reliable
      fun sending => sending.2.1 ∈ r.tasks ∧ sending.2.1.weight ≠ 0 := by
  obtain ⟨r₀, hstart, r, hsteps⟩ : ∃ r₀, start randomPlan (.get "AAAA") = .ok r₀ ∧
      ∃ r, r₀.steps [.arrive, .user 0 .start] = some r := ⟨_, rfl, _, rfl⟩
  obtain ⟨-, hweights, -, -, husers, hfits, -⟩ := users_never_fault hstart hsteps
  exact ⟨r₀, r, hstart, hsteps, hweights (List.cons_ne_nil _ _), hfits,
    fun u hu => (husers u hu).2.2⟩

end Run
end OperatorKit.Load
