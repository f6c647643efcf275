import OperatorKit.Load.Run

/-!
# What can happen in a run

All that the acts of a user and the events of a run can come to, one case for
each. Properties of whole runs follow from these cases by induction on the events.
-/

namespace OperatorKit.Load

/-- What the operator is told when a user begins. -/
def User.openingNotices (u : User) : List String :=
  match u.worker.start.2 with
  | none   => []
  | some _ => [fallbackNotice]

/-- What is logged when a user begins. -/
def User.openingLines (id : Nat) (u : User) : List LogLine :=
  (match u.worker.start.2 with
    | none   => []
    | some e => fallbackLog none e) ++ [⟨.debug, "User " ++ Decimal.text id ++ " started"⟩]

/-- What holds of a user and of all but the one whose place it takes holds of all. -/
theorem forall_users_set {P : Nat → User → Prop} {users : List User} {id : Nat} {u : User}
    (h : ∀ j ≠ id, ∀ v, users[j]? = some v → P j v) (hu : P id u) (j : Nat) (v : User)
    (hv : (users.set id u)[j]? = some v) : P j v := by
  rw [List.getElem?_set] at hv
  split at hv
  case isTrue heq =>
    subst heq
    split at hv
    case isTrue =>
      cases hv
      exact hu
    case isFalse => cases hv
  case isFalse hne => exact h j (Ne.symm hne) v hv

namespace Run

/-! ## Acts of a user -/

/-- An act of a user and the run behind it. -/
inductive Acts (r : Run) (id : Nat) (u : User) : Act → Run → Prop where
  | begins (h : u.phase = .arrived) :
      Acts r id u .start
        { r.setUser id { u with worker := u.worker.start.1, phase := .ready } with
          notices := r.notices ++ u.openingNotices
          log := r.log ++ u.openingLines id }
  | sends {words rest : List UInt32} {picker : Picker} {task : Task} {q : Request}
      (h : u.phase = .ready) (hnext : u.next r.tasks words = .ok ((picker, task, q), rest)) :
      Acts r id u (.send words)
        { r.setUser id { u with picker, phase := .waiting task q } with
          sent := r.sent ++ [(id, task, q)] }
  | crashesAtSend {words : List UInt32} {e : Fault} (h : u.phase = .ready)
      (hnext : u.next r.tasks words = .error e) (he : e ≠ .starved) :
      Acts r id u (.send words) (r.setUser id { u with phase := .crashed e })
  | isAnswered {task : Task} {q : Request} (o : Outcome) (h : u.phase = .waiting task q) :
      Acts r id u (.reply o) (r.setUser id { u with phase := .answered task q o })
  | givesUp {task : Task} {q : Request} (e : Fault) (h : u.phase = .waiting task q) :
      Acts r id u (.fail e)
        ((r.setUser id { u with phase := .recorded }).tell [stoppedLine id task e])
  | records {task : Task} {q : Request} {o : Outcome} {tally : Tally}
      (h : u.phase = .answered task q o) (hrecord : r.tally.record task.name q o = (tally, none)) :
      Acts r id u .record
        ({ r.setUser id { u with phase := .recorded } with tally }.tell (failureLines id q o))
  | crashesAtRecord {task : Task} {q : Request} {o : Outcome} {tally : Tally} {e : Fault}
      (h : u.phase = .answered task q o)
      (hrecord : r.tally.record task.name q o = (tally, some e)) :
      Acts r id u .record
        ({ r.setUser id { u with phase := .crashed e } with tally }.tell (failureLines id q o))
  | pauses {words rest : List UInt32} {span : Span} (h : u.phase = .recorded)
      (hdraw : r.plan.pauses.draw words = .ok (span, rest)) :
      Acts r id u (.pause words) (r.setUser id { u with phase := .pausing span })
  | crashesAtPause {words : List UInt32} {e : Fault} (h : u.phase = .recorded)
      (hdraw : r.plan.pauses.draw words = .error e) (he : e ≠ .starved) :
      Acts r id u (.pause words) (r.setUser id { u with phase := .crashed e })
  | wakes {span : Span} (h : u.phase = .pausing span) :
      Acts r id u .wake (r.setUser id { u with phase := .ready })
  | leaves (hstage : r.stage = .stopping) (h : u.phase.isOver = false) :
      Acts r id u .leave (r.setUser id { u with phase := .gone })

variable {r r' : Run} {id : Nat} {u : User}

theorem beginUser_eq (r : Run) (id : Nat) (u : User) :
    r.beginUser id u =
      { r.setUser id { u with worker := u.worker.start.1, phase := .ready } with
        notices := r.notices ++ u.openingNotices
        log := r.log ++ u.openingLines id } := by
  simp only [beginUser, User.openingNotices, User.openingLines]
  cases u.worker.start.2 <;> simp [setUser, tell]

theorem acts_of_recordOutcome {task : Task} {q : Request} {o : Outcome}
    (h : u.phase = .answered task q o) : Acts r id u .record (r.recordOutcome id u task q o) := by
  rcases hrecord : r.tally.record task.name q o with ⟨tally, fault⟩
  simp only [recordOutcome, hrecord]
  cases fault with
  | none => exact .records h hrecord
  | some e => exact .crashesAtRecord h hrecord

theorem acts_of_act {a : Act} (h : r.act id u a = some r') : Acts r id u a r' := by
  cases a with
  | start =>
    simp only [act] at h
    split at h
    case h_1 hphase =>
      cases h
      rw [beginUser_eq]
      exact .begins hphase
    case h_2 => cases h
  | send words =>
    simp only [act] at h
    split at h
    case h_1 hphase =>
      simp only [sendRequest] at h
      split at h
      case h_1 => cases h
      case h_2 hstarved hnext =>
        cases h
        exact .crashesAtSend hphase hnext hstarved
      case h_3 hnext =>
        cases h
        exact .sends hphase hnext
    case h_2 => cases h
  | reply o =>
    simp only [act] at h
    split at h
    case h_1 hphase =>
      cases h
      exact .isAnswered o hphase
    case h_2 => cases h
  | fail e =>
    simp only [act] at h
    split at h
    case h_1 hphase =>
      cases h
      exact .givesUp e hphase
    case h_2 => cases h
  | record =>
    simp only [act] at h
    split at h
    case h_1 hphase =>
      cases h
      exact acts_of_recordOutcome hphase
    case h_2 => cases h
  | pause words =>
    simp only [act] at h
    split at h
    case h_1 hphase =>
      simp only [beginPause] at h
      split at h
      case h_1 => cases h
      case h_2 hstarved hdraw =>
        cases h
        exact .crashesAtPause hphase hdraw hstarved
      case h_3 hdraw =>
        cases h
        exact .pauses hphase hdraw
    case h_2 => cases h
  | wake =>
    simp only [act] at h
    split at h
    case h_1 hphase =>
      cases h
      exact .wakes hphase
    case h_2 => cases h
  | leave =>
    simp only [act, takeOut] at h
    split at h
    case h_1 hstage =>
      split at h
      case isTrue => cases h
      case isFalse hover =>
        cases h
        exact .leaves hstage (Bool.eq_false_iff.mpr hover)
    case h_2 => cases h

/-- An act puts another user in the place of the one that acts, and changes no more
than the tally and what is sent, told and logged. -/
theorem Acts.frame {a : Act} (h : Acts r id u a r') :
    (∃ u', r'.users = r.users.set id u') ∧
      r'.plan = r.plan ∧ r'.scenario = r.scenario ∧ r'.tasks = r.tasks ∧ r'.stage = r.stage := by
  cases h <;> exact ⟨⟨_, rfl⟩, rfl, rfl, rfl, rfl⟩

/-- A user that is over does not act. -/
theorem Acts.not_isOver {a : Act} (h : Acts r id u a r') : u.phase.isOver = false := by
  cases h with
  | leaves _ h => exact h
  | begins h | sends h _ | crashesAtSend h _ _ | isAnswered _ h | givesUp _ h | records h _
  | crashesAtRecord h _ | pauses h _ | crashesAtPause h _ _ | wakes h =>
    rw [h]
    rfl

/-! ## Events -/

/-- An event of a run and the run behind it. -/
inductive Happens (r : Run) : Event → Run → Prop where
  | arrive (h : r.stage = .spawning) : Happens r .arrive r.arrive
  | rested (h : r.stage = .resting) : Happens r .rested { r with stage := .spawning }
  | stop (cause : StopCause) (h : r.stage = .resting ∨ r.stage = .full) :
      Happens r (.stop cause) (r.halt cause)
  | user {id : Nat} {u : User} {a : Act} {r' : Run} (hu : r.users[id]? = some u)
      (h : Acts r id u a r') : Happens r (.user id a) r'
  | finish (h : r.stage = .stopping) (hover : ∀ u ∈ r.users, u.phase.isOver = true) :
      Happens r .finish r.finish

theorem happens_of_step {e : Event} (h : r.step e = some r') : Happens r e r' := by
  cases e with
  | arrive =>
    simp only [step] at h
    split at h
    case h_1 hstage =>
      cases h
      exact .arrive hstage
    case h_2 => cases h
  | rested =>
    simp only [step] at h
    split at h
    case h_1 hstage =>
      cases h
      exact .rested hstage
    case h_2 => cases h
  | stop cause =>
    simp only [step] at h
    split at h
    case h_1 hstage =>
      cases h
      exact .stop cause (.inl hstage)
    case h_2 hstage =>
      cases h
      exact .stop cause (.inr hstage)
    case h_3 => cases h
  | user id a =>
    simp only [step] at h
    split at h
    case h_1 => cases h
    case h_2 hu => exact .user hu (acts_of_act h)
  | finish =>
    simp only [step] at h
    split at h
    case h_1 hstage =>
      split at h
      case isTrue hover =>
        cases h
        exact .finish hstage (List.all_eq_true.mp hover)
      case isFalse => cases h
    case h_2 => cases h

theorem arrive_frame (r : Run) :
    r.arrive.users = r.users ++ [.fresh r.scenario r.plan.picker] ∧
      r.arrive.plan = r.plan ∧ r.arrive.scenario = r.scenario ∧ r.arrive.tasks = r.tasks ∧
      r.arrive.tally = r.tally ∧ r.arrive.sent = r.sent ∧
      (r.arrive.stage = .full ∨ r.arrive.stage = .resting) := by
  simp only [arrive]
  split
  case isTrue => exact ⟨rfl, rfl, rfl, rfl, rfl, rfl, .inl rfl⟩
  case isFalse => exact ⟨rfl, rfl, rfl, rfl, rfl, rfl, .inr rfl⟩

/-- A user behind an arrival was there before it or is the one that arrived. -/
theorem user_of_arrive (h : r.arrive.users[id]? = some u) :
    r.users[id]? = some u ∨
      r.users.length ≤ id ∧ u = .fresh r.scenario r.plan.picker := by
  rw [(arrive_frame r).1, List.getElem?_append] at h
  split at h
  case isTrue => exact .inl h
  case isFalse hid =>
    exact .inr ⟨Nat.le_of_not_lt hid, List.mem_singleton.mp (List.mem_of_getElem? h)⟩

/-- The plan, the scenario and the tasks of a run are fixed from its start. -/
theorem Happens.setting {e : Event} (h : Happens r e r') :
    r'.plan = r.plan ∧ r'.scenario = r.scenario ∧ r'.tasks = r.tasks := by
  cases h with
  | arrive =>
    obtain ⟨-, hplan, hscenario, htasks, -⟩ := arrive_frame r
    exact ⟨hplan, hscenario, htasks⟩
  | user _ h =>
    obtain ⟨-, hplan, hscenario, htasks, -⟩ := h.frame
    exact ⟨hplan, hscenario, htasks⟩
  | rested | stop | finish => exact ⟨rfl, rfl, rfl⟩

/-- A user that is over stays what it is. -/
theorem Happens.users_of_isOver {e : Event} (h : Happens r e r') (hu : r.users[id]? = some u)
    (hover : u.phase.isOver = true) : r'.users[id]? = some u := by
  cases h with
  | arrive =>
    rw [(arrive_frame r).1, List.getElem?_append_left (List.getElem?_eq_some_iff.mp hu).1]
    exact hu
  | user hactor hacts =>
    obtain ⟨⟨u', husers⟩, -⟩ := hacts.frame
    rw [husers, List.getElem?_set_ne, hu]
    -- The user that acts is another one, since it is not over.
    rintro rfl
    rw [hu, Option.some.injEq] at hactor
    rw [hactor, hacts.not_isOver] at hover
    cases hover
  | rested | stop | finish => exact hu

/-! ## Whole runs -/

theorem steps_cons_eq_some {e : Event} {es : List Event} :
    r.steps (e :: es) = some r' ↔ ∃ r₁, r.step e = some r₁ ∧ r₁.steps es = some r' := by
  rw [steps]
  cases r.step e with
  | none => simp
  | some r₁ => simp

/-- What every event of some kind keeps is kept by every row of such events. -/
theorem steps_preserve_of {P : Run → Prop} {Q : Event → Prop}
    (hstep : ∀ {r e r'}, Q e → P r → Happens r e r' → P r') {es : List Event}
    (hes : ∀ e ∈ es, Q e) (h : r.steps es = some r') (hr : P r) : P r' := by
  induction es generalizing r with
  | nil =>
    cases h
    exact hr
  | cons e es ih =>
    obtain ⟨he, hes⟩ := List.forall_mem_cons.mp hes
    simp only [steps] at h
    split at h
    case h_1 => cases h
    case h_2 hnext => exact ih hes h (hstep he hr (happens_of_step hnext))

/-- What every event keeps is kept by every row of events. -/
theorem steps_preserve {P : Run → Prop}
    (hstep : ∀ {r e r'}, P r → Happens r e r' → P r') {es : List Event} (h : r.steps es = some r')
    (hr : P r) : P r' :=
  steps_preserve_of (fun _ => hstep) (fun _ _ => trivial) h hr

theorem steps_setting {es : List Event} (h : r.steps es = some r') :
    r'.plan = r.plan ∧ r'.scenario = r.scenario ∧ r'.tasks = r.tasks := by
  refine steps_preserve (P := fun s => s.plan = r.plan ∧ s.scenario = r.scenario ∧
    s.tasks = r.tasks) ?_ h ⟨rfl, rfl, rfl⟩
  rintro s e s' ⟨hplan, hscenario, htasks⟩ hs
  obtain ⟨hplan', hscenario', htasks'⟩ := hs.setting
  exact ⟨hplan'.trans hplan, hscenario'.trans hscenario, htasks'.trans htasks⟩

theorem steps_users_of_isOver {es : List Event} (h : r.steps es = some r')
    (hu : r.users[id]? = some u) (hover : u.phase.isOver = true) : r'.users[id]? = some u :=
  steps_preserve (P := fun s => s.users[id]? = some u)
    (fun hu hs => hs.users_of_isOver hu hover) h hu

/-- A finished run reports the tally that it has, and its users are over. -/
def Closed (r : Run) : Prop :=
  ∀ report, r.report? = some report → report = r.tally ∧ ∀ u ∈ r.users, u.phase.isOver = true

theorem closed_of_stage (h : ∀ report, r.stage ≠ .finished report) : r.Closed := by
  intro report hreport
  cases hstage : r.stage with
  | finished report' => exact absurd hstage (h report')
  | spawning | resting | full | stopping =>
    rw [report?, hstage] at hreport
    cases hreport

theorem Happens.closed {e : Event} (h : Happens r e r') (hr : r.Closed) : r'.Closed := by
  cases h with
  | arrive =>
    obtain ⟨-, -, -, -, -, -, hstage | hstage⟩ := arrive_frame r <;>
      exact closed_of_stage (by simp [hstage])
  | rested | stop => exact closed_of_stage (by simp [halt, tell])
  | user hu hacts =>
    obtain ⟨-, -, -, -, hstage⟩ := hacts.frame
    intro report hreport
    rw [report?, hstage] at hreport
    -- A user that acts is not over, so the run was not finished.
    have hover := (hr report hreport).2 _ (List.mem_of_getElem? hu)
    rw [hacts.not_isOver] at hover
    cases hover
  | finish _ hover =>
    intro report hreport
    cases hreport
    exact ⟨rfl, hover⟩

end Run
end OperatorKit.Load
