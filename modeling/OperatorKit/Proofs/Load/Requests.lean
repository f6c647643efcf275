import OperatorKit.Load.Due
import OperatorKit.Proofs.Load.Recovery
import OperatorKit.Proofs.Load.Reporting
import OperatorKit.Proofs.Random.Draw

/-!
# What a scenario asks for

Users send the requests of their scenario and no others: each under the name of its task, to the
webhook of that task, and with a body that was read before the user sent anything. So the row of a
task has the method and the path of every request that is counted in it.
-/

namespace OperatorKit.Load

/-! ## Scenarios -/

/-- The requests that a scenario makes under the name of a task. -/
inductive Scenario.Makes : Scenario → String → Request → Prop where
  | first (raw : String) :
      Makes (.post raw) "post_request_1" ⟨.post, "/webhook/LOADTEST1", (readBody raw).1⟩
  | second (raw : String) :
      Makes (.post raw) "post_request_2" ⟨.post, "/webhook/LOADTEST2", (readBody raw).1⟩
  | fourth (raw : String) :
      Makes (.post raw) "post_request_4" ⟨.post, "/webhook/LOADTEST4", (readBody raw).1⟩
  | time (id : String) :
      Makes (.get id) "get_time" ⟨.get, "/webhook/" ++ id, .object [("get_time", .bool true)]⟩
  | randomBytes (id : String) {n : Nat} (hlow : 1 ≤ n) (hhigh : n ≤ 100) :
      Makes (.get id) "get_random_bytes"
        ⟨.get, "/webhook/" ++ id, .object [("get_random_bytes", .number (.integer n))]⟩
  | cache (id : String) :
      Makes (.get id) "use_cache" ⟨.get, "/webhook/" ++ id, .object [("use_cache", .bool true)]⟩

namespace Scenario

variable {scenario : Scenario} {name name' : String} {q q' : Request}

/-- The name of a task tells where its requests go. -/
theorem Makes.target_eq (h : scenario.Makes name q) (h' : scenario.Makes name' q')
    (hname : name = name') : q.method = q'.method ∧ q.path = q'.path := by
  cases h <;> cases h' <;> first | exact ⟨rfl, rfl⟩ | exact absurd hname (by decide)

/-- All posts have the body that was read from the operator's text. -/
theorem Makes.body_eq {raw : String} (h : (post raw).Makes name q) : q.body = (readBody raw).1 := by
  cases h <;> rfl

theorem Makes.method_eq {raw : String} (h : (post raw).Makes name q) : q.method = .post := by
  cases h <;> rfl

/-- A user that has begun makes the requests of its scenario. -/
theorem makes_of_request {task : Task} {words rest : List UInt32}
    (htask : task.kind ∈ scenario.tasks.map Task.kind)
    (h : (Worker.idle scenario).start.1.request task.work words = .ok (q, rest)) :
    scenario.Makes task.name q := by
  obtain ⟨name, weight, work⟩ := task
  cases scenario with
  | post raw =>
    simp only [tasks, Task.kind, List.map_cons, List.map_nil, List.mem_cons, Prod.mk.injEq,
      List.not_mem_nil, or_false] at htask
    obtain ⟨rfl, rfl⟩ | ⟨rfl, rfl⟩ | ⟨rfl, rfl⟩ := htask <;> cases h
    · exact .first raw
    · exact .second raw
    · exact .fourth raw
  | get id =>
    simp only [tasks, Task.kind, List.map_cons, List.map_nil, List.mem_cons, Prod.mk.injEq,
      List.not_mem_nil, or_false] at htask
    obtain ⟨rfl, rfl⟩ | ⟨rfl, rfl⟩ | ⟨rfl, rfl⟩ := htask
    · cases h
      exact .time id
    · simp only [Worker.request] at h
      split at h
      case h_1 => cases h
      case h_2 hdraw =>
        cases h
        obtain ⟨hlow, hhigh⟩ :=
          (Random.reliable_between32 (by decide) (by decide)).sound hdraw
        exact .randomBytes id hlow hhigh
    · cases h
      exact .cache id

end Scenario

/-! ## Users -/

/-- What a user has to work with: nothing yet before it begins, and what its scenario gives it from
then on. -/
def User.Equipped (scenario : Scenario) (u : User) : Prop :=
  match u.phase with
  | .arrived           => u.worker = .idle scenario
  | .crashed _ | .gone => True
  | _                  => u.worker = (Worker.idle scenario).start.1

/-- The request that a user is busy with, and its task. -/
def Phase.request? : Phase → Option (Task × Request)
  | .waiting task q | .answered task q _ => some (task, q)
  | _                                    => none

namespace Run

variable {plan : Plan} {scenario : Scenario} {r r' r₀ : Run} {id : Nat} {u : User} {e : Event}
  {es : List Event}

/-! ## Requests that were sent -/

/-- What was sent in a run is what its scenario makes, and users are busy with nothing else. -/
structure Faithful (r : Run) : Prop where
  tasks : r.tasks.map Task.kind = r.scenario.tasks.map Task.kind
  equipped (id : Nat) (u : User) : r.users[id]? = some u → u.Equipped r.scenario
  busy (id : Nat) (u : User) (task : Task) (q : Request) :
    r.users[id]? = some u → u.phase.request? = some (task, q) → (id, task, q) ∈ r.sent
  sent : ∀ x ∈ r.sent, r.scenario.Makes x.2.1.name x.2.2

theorem faithful_of_start (h : start plan scenario = .ok r) : r.Faithful := by
  obtain ⟨-, hscenario, -, husers, hsent, -⟩ := start_spec h
  refine ⟨?_, fun id u hu => ?_, fun id u task q hu => ?_, fun x hx => ?_⟩
  · simp only [start] at h
    split at h
    case h_1 => cases h
    case h_2 tasks hweights =>
      cases h
      obtain ⟨-, rfl⟩ | ⟨-, -, -, rfl⟩ := applyWeights_eq_ok_iff.mp hweights
      · rfl
      · exact map_kind_assignWeights _ _
  · rw [husers] at hu
    cases hu
  · rw [husers] at hu
    cases hu
  · rw [hsent] at hx
    cases hx

/-- A user takes the place of another one, and what it sends is what the scenario makes. -/
theorem Faithful.set (hr : r.Faithful) {u : User} (new : List (Nat × Task × Request))
    (hsetting : r'.scenario = r.scenario ∧ r'.tasks = r.tasks)
    (husers : r'.users = r.users.set id u) (hsent : r'.sent = r.sent ++ new)
    (hequipped : u.Equipped r.scenario)
    (hbusy : ∀ task q, u.phase.request? = some (task, q) → (id, task, q) ∈ r'.sent)
    (hnew : ∀ x ∈ new, r.scenario.Makes x.2.1.name x.2.2) : r'.Faithful := by
  obtain ⟨hscenario, htasks⟩ := hsetting
  refine ⟨?_, fun j v hv => ?_, fun j v task q hv => ?_, ?_⟩
  · rw [htasks, hscenario]
    exact hr.tasks
  · rw [husers] at hv
    rw [hscenario]
    exact forall_users_set (P := fun _ v => v.Equipped r.scenario)
      (fun j _ v hv => hr.equipped j v hv) hequipped j v hv
  · rw [husers] at hv
    refine forall_users_set (P := fun j v => v.phase.request? = some (task, q) →
      (j, task, q) ∈ r'.sent) (fun j _ v hv hq => ?_) (hbusy task q) j v hv
    rw [hsent]
    exact List.mem_append_left _ (hr.busy j v task q hv hq)
  · rw [hscenario, hsent]
    exact List.forall_mem_append.mpr ⟨hr.sent, hnew⟩

/-- A user takes the place of another one and sends nothing. -/
theorem Faithful.keep (hr : r.Faithful) {u : User}
    (hsetting : r'.scenario = r.scenario ∧ r'.tasks = r.tasks)
    (husers : r'.users = r.users.set id u) (hsent : r'.sent = r.sent)
    (hequipped : u.Equipped r.scenario)
    (hbusy : ∀ task q, u.phase.request? = some (task, q) → (id, task, q) ∈ r.sent) :
    r'.Faithful :=
  hr.set [] hsetting husers (hsent.trans (List.append_nil _).symm) hequipped
    (fun task q hq => hsent ▸ hbusy task q hq) fun _ hx => by cases hx

theorem Acts.faithful {a : Act} (h : Acts r id u a r') (hu : r.users[id]? = some u)
    (hr : r.Faithful) : r'.Faithful := by
  have hequipped := hr.equipped id u hu
  have hbusy := fun task q => hr.busy id u task q hu
  cases h with
  | begins h =>
    simp only [User.Equipped, h] at hequipped
    refine hr.keep ⟨rfl, rfl⟩ rfl rfl ?_ fun _ _ hq => by cases hq
    exact congrArg (·.start.1) hequipped
  | @sends _ _ _ task q h hnext =>
    obtain ⟨i, words, -, htask, hrequest⟩ := User.next_eq_ok hnext
    simp only [User.Equipped, h] at hequipped
    rw [hequipped] at hrequest
    have hkind : task.kind ∈ r.scenario.tasks.map Task.kind := by
      rw [← hr.tasks]
      exact List.mem_map_of_mem (List.mem_of_getElem? htask)
    refine hr.set [(id, task, q)] ⟨rfl, rfl⟩ rfl rfl hequipped (fun task' q' hq => ?_) ?_
    · cases hq
      exact List.mem_append_right _ (List.mem_singleton_self _)
    · exact List.forall_mem_singleton.mpr (Scenario.makes_of_request hkind hrequest)
  | isAnswered o h =>
    simp only [User.Equipped, h] at hequipped
    rw [h] at hbusy
    exact hr.keep ⟨rfl, rfl⟩ rfl rfl hequipped hbusy
  | givesUp _ h | records h _ | pauses h _ | wakes h =>
    simp only [User.Equipped, h] at hequipped
    exact hr.keep ⟨rfl, rfl⟩ rfl rfl hequipped fun _ _ hq => by cases hq
  | crashesAtSend | crashesAtRecord | crashesAtPause | leaves =>
    exact hr.keep ⟨rfl, rfl⟩ rfl rfl trivial fun _ _ hq => by cases hq

theorem Happens.faithful (h : Happens r e r') (hr : r.Faithful) : r'.Faithful := by
  cases h with
  | arrive =>
    obtain ⟨-, -, hscenario, htasks, -, hsent, -⟩ := arrive_frame r
    refine ⟨?_, fun id v hv => ?_, fun id v task q hv hq => ?_, ?_⟩
    · rw [htasks, hscenario]
      exact hr.tasks
    · rw [hscenario]
      obtain hv | ⟨-, rfl⟩ := user_of_arrive hv
      · exact hr.equipped id v hv
      · rfl
    · rw [hsent]
      obtain hv | ⟨-, rfl⟩ := user_of_arrive hv
      · exact hr.busy id v task q hv hq
      · -- It has not begun, so it is busy with nothing.
        cases hq
    · rw [hsent, hscenario]
      exact hr.sent
  | user hu hacts => exact hacts.faithful hu hr
  | rested | stop | finish => exact ⟨hr.tasks, hr.equipped, hr.busy, hr.sent⟩

theorem Happens.sent_subset (h : Happens r e r') : r.sent ⊆ r'.sent := by
  cases h with
  | arrive =>
    obtain ⟨-, -, -, -, -, hsent, -⟩ := arrive_frame r
    rw [hsent]
    exact List.Subset.refl _
  | user _ hacts =>
    cases hacts with
    | sends => exact List.subset_append_left _ _
    | begins | crashesAtSend | isAnswered | givesUp | records | crashesAtRecord | pauses
    | crashesAtPause | wakes | leaves => exact List.Subset.refl _
  | rested | stop | finish => exact List.Subset.refl _

theorem steps_sent_subset (h : r.steps es = some r') : r.sent ⊆ r'.sent :=
  steps_preserve (P := fun s => r.sent ⊆ s.sent) (fun hs h => List.Subset.trans hs h.sent_subset) h
    (List.Subset.refl _)

/-! ## Requests that are recorded -/

/-- What a user hands over to the tally in an event that a run comes to. -/
def recording? (r : Run) : Event → Option Recording
  | .user id .record => match r.users[id]? with
    | some ⟨_, _, .answered task q o⟩ => some ⟨task.name, q, o⟩
    | _                               => none
  | _ => none

/-- What users hand over to the tally in a row of events, in order. -/
def recordings (r : Run) : List Event → List Recording
  | []      => []
  | e :: es => match r.step e with
    | none    => []
    | some r' => (r.recording? e).toList ++ r'.recordings es

theorem recording?_eq {task : Task} {q : Request} {o : Outcome} (hu : r.users[id]? = some u)
    (h : u.phase = .answered task q o) : r.recording? (.user id .record) = some ⟨task.name, q, o⟩ := by
  obtain ⟨worker, picker, phase⟩ := u
  subst h
  simp only [recording?, hu]

/-- Only a user with an outcome hands something over. -/
theorem recording?_eq_some {x : Recording} (h : r.recording? e = some x) :
    ∃ (id : Nat) (u : User) (task : Task) (q : Request) (o : Outcome),
      r.users[id]? = some u ∧ u.phase = .answered task q o ∧ x = ⟨task.name, q, o⟩ := by
  simp only [recording?] at h
  split at h
  case h_2 => cases h
  case h_1 id =>
    split at h
    case h_1 hu =>
      cases h
      exact ⟨id, _, _, _, _, hu, rfl, rfl⟩
    case h_2 => cases h

theorem Happens.tally_eq (h : Happens r e r') :
    r'.tally = r.tally.recordAll (r.recording? e).toList := by
  cases h with
  | arrive =>
    obtain ⟨-, -, -, -, htally, -⟩ := arrive_frame r
    exact htally
  | user hu hacts =>
    cases hacts with
    | records h hrecord | crashesAtRecord h hrecord =>
      rw [recording?_eq hu h]
      simp only [Option.toList, Tally.recordAll, hrecord]
      rfl
    | begins | sends | crashesAtSend | isAnswered | givesUp | pauses | crashesAtPause | wakes
    | leaves => rfl
  | rested | stop | finish => rfl

/-- The tally of a run is made of what its users hand over. -/
theorem tally_eq_recordAll (h : r.steps es = some r') :
    r'.tally = r.tally.recordAll (r.recordings es) := by
  induction es generalizing r with
  | nil =>
    cases h
    rfl
  | cons e es ih =>
    obtain ⟨r₁, hstep, hrest⟩ := steps_cons_eq_some.mp h
    rw [recordings, hstep, Tally.recordAll_append, ← (happens_of_step hstep).tally_eq]
    exact ih hrest

/-- What is handed over was sent. -/
theorem Faithful.sent_of_recording? (hr : r.Faithful) {x : Recording} (h : r.recording? e = some x) :
    ∃ id task, task.name = x.task ∧ (id, task, x.request) ∈ r.sent := by
  obtain ⟨id, u, task, q, o, hu, hphase, rfl⟩ := recording?_eq_some h
  refine ⟨id, task, rfl, hr.busy id u task q hu ?_⟩
  rw [hphase]
  rfl

theorem Faithful.sent_of_recordings (hr : r.Faithful) (h : r.steps es = some r') :
    ∀ x ∈ r.recordings es, ∃ id task, task.name = x.task ∧ (id, task, x.request) ∈ r'.sent := by
  induction es generalizing r with
  | nil =>
    intro x hx
    cases hx
  | cons e es ih =>
    obtain ⟨r₁, hstep, hrest⟩ := steps_cons_eq_some.mp h
    intro x hx
    rw [recordings, hstep, List.mem_append] at hx
    obtain hx | hx := hx
    · obtain ⟨id, task, hname, hsent⟩ := hr.sent_of_recording? (Option.mem_toList.mp hx)
      exact ⟨id, task, hname, steps_sent_subset h hsent⟩
    · exact ih ((happens_of_step hstep).faithful hr) hrest x hx

/-! ## Whole runs -/

theorem faithful_of_steps (hstart : start plan scenario = .ok r₀) (hsteps : r₀.steps es = some r) :
    r.Faithful :=
  steps_preserve (fun hr h => h.faithful hr) hsteps (faithful_of_start hstart)

/-- What is to be sent outside of a run is what one of its users is busy with. -/
theorem Faithful.sent_of_errand? (hr : r.Faithful) {q : Request}
    (h : r.errand? e = some (.send id q)) : ∃ task, (id, task, q) ∈ r.sent := by
  simp only [errand?] at h
  split at h
  case h_1 => split at h <;> cases h
  case h_2 =>
    split at h
    case h_1 task _ hu =>
      cases h
      exact ⟨task, hr.busy _ _ task q hu rfl⟩
    case h_2 | h_3 => cases h
  case h_3 => cases h

/-- Whatever the plan, the random words and the order of the events are, each request of a run is
one that the scenario makes for its task. The row of a task has the method and the path that the
scenario has for that task, and these are the ones of every request that is counted in it. -/
theorem requests_match_scenario (hstart : start plan scenario = .ok r₀)
    (hsteps : r₀.steps es = some r) :
    (∀ id task q, (id, task, q) ∈ r.sent → scenario.Makes task.name q) ∧
    (∀ e id q, r.errand? e = some (.send id q) →
      ∃ task, (id, task, q) ∈ r.sent ∧ scenario.Makes task.name q) ∧
    ∀ report, r.report? = some report → ∀ name row, report.row? name = some row →
      (∃ q, scenario.Makes name q ∧ row.method = q.method ∧ row.path = q.path) ∧
      ∃ calls, calls = (Tally.empty.history (r₀.recordings es)).ofTask name ∧
        row.requests = calls.requests ∧
        ∀ x ∈ calls, x.1.request.method = row.method ∧ x.1.request.path = row.path ∧
          ∃ id task, task.name = name ∧ (id, task, x.1.request) ∈ r.sent := by
  have hr : r.Faithful := faithful_of_steps hstart hsteps
  have hscenario : r.scenario = scenario :=
    (steps_setting hsteps).2.1.trans (start_spec hstart).2.1
  have hmakes : ∀ id task q, (id, task, q) ∈ r.sent → scenario.Makes task.name q := by
    intro id task q hq
    exact hscenario ▸ hr.sent _ hq
  refine ⟨hmakes, fun e id q herrand => ?_, fun report hreport name row hrow => ?_⟩
  · obtain ⟨task, hsent⟩ := hr.sent_of_errand? herrand
    exact ⟨task, hsent, hmakes id task q hsent⟩
  obtain ⟨rfl, -⟩ := closed_of_steps hstart hsteps report hreport
  have hcovers : r.tally.Covers (Tally.empty.history (r₀.recordings es)) := by
    rw [tally_eq_recordAll hsteps, (start_spec hstart).2.2.2.2.2.1]
    exact Tally.covers_empty.recordAll _
  have hcalls : ∀ x ∈ (Tally.empty.history (r₀.recordings es)).ofTask name,
      ∃ id task, task.name = name ∧ (id, task, x.1.request) ∈ r.sent := by
    intro x hx
    obtain ⟨hx, hname⟩ := List.mem_filter.mp hx
    have hmem : x.1 ∈ r₀.recordings es := by
      rw [← Tally.empty.map_fst_history (r₀.recordings es)]
      exact List.mem_map_of_mem hx
    obtain ⟨id, task, htask, hsent⟩ :=
      (faithful_of_start hstart).sent_of_recordings hsteps x.1 hmem
    exact ⟨id, task, htask.trans (beq_iff_eq.mp hname), hsent⟩
  obtain ⟨-, hnone⟩ | ⟨first, rest, row', hparts, hrow', base, hbase, rfl⟩ := hcovers.row name
  · rw [hnone] at hrow
    cases hrow
  cases hrow'.symm.trans hrow
  -- The row has the method and the path of the first request, and the name of its task tells both.
  obtain ⟨id, task, hname, hsent⟩ := hcalls first (hparts ▸ List.mem_cons_self)
  have hfirst : scenario.Makes name first.1.request := hname ▸ hmakes id task _ hsent
  refine ⟨⟨first.1.request, hfirst, hbase.method, hbase.path⟩, _, rfl, ?_, fun x hx => ?_⟩
  · rw [hparts]
  · obtain ⟨id, task, hname, hsent⟩ := hcalls x hx
    obtain ⟨hmethod, hpath⟩ := (hmakes id task _ hsent).target_eq hfirst hname
    exact ⟨hmethod.trans hbase.method.symm, hpath.trans hbase.path.symm, id, task, hname, hsent⟩

/-- A lone user posts its body once. -/
def postEvents : List Event :=
  [.arrive, .user 0 .start, .user 0 (.send []), .user 0 (.reply ⟨some 200, .zero, none⟩),
    .user 0 .record, .stop .interrupted, .user 0 .leave, .finish]

theorem requests_of_posting_user : ∃ r₀ r report row, start lonePlan (.post "[7]") = .ok r₀ ∧
    r₀.steps postEvents = some r ∧ r.report? = some report ∧
    report.row? "post_request_1" = some row ∧ row.requests = 1 ∧
    row.method = .post ∧ row.path = "/webhook/LOADTEST1" ∧ r.sent.length = 1 ∧
    ∀ id task q, (id, task, q) ∈ r.sent → q.body = .array [.number (.integer 7)] := by
  obtain ⟨r₀, hstart, r, hsteps, hlength, report, hreport, row, hrow, hrequests⟩ :
      ∃ r₀, start lonePlan (.post "[7]") = .ok r₀ ∧ ∃ r, r₀.steps postEvents = some r ∧
        r.sent.length = 1 ∧ ∃ report, r.report? = some report ∧
          ∃ row, report.row? "post_request_1" = some row ∧ row.requests = 1 :=
    ⟨_, rfl, _, rfl, rfl, _, rfl, _, rfl, rfl⟩
  have hbody : (readBody "[7]").1 = .array [.number (.integer 7)] := rfl
  obtain ⟨hmakes, -, hrows⟩ := requests_match_scenario hstart hsteps
  obtain ⟨⟨q, hq, hmethod, hpath⟩, -⟩ := hrows report hreport "post_request_1" row hrow
  obtain ⟨hpost, hwebhook⟩ := hq.target_eq (.first "[7]") rfl
  exact ⟨r₀, r, report, row, hstart, hsteps, hreport, hrow, hrequests, hmethod.trans hpost,
    hpath.trans hwebhook, hlength, fun id task q hq => (hmakes id task q hq).body_eq.trans hbody⟩

end Run
end OperatorKit.Load
