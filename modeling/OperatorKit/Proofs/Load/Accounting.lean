import OperatorKit.Proofs.Load.Ledger
import OperatorKit.Proofs.Load.Tally
import OperatorKit.Proofs.Load.Weights

/-!
# A report accounts for what was sent

The users of a run, its tally and its ledger agree after every event: a user has
the one request open that it is busy with, and the tally counts what is recorded
in the ledger. So a report holds every outcome that was recorded once, in the row
of its task, and misses no more requests than there are users.
-/

namespace OperatorKit.Load

open Ledger (openOf)

/-! ## What users have open -/

/-- The requests that a user has open, by what it is at. A user that is over may
have left one behind. -/
def Phase.Owes (id : Nat) : Phase → Ledger → Prop
  | .waiting task q,            owed => owed = [⟨id, task, q, .underWay⟩]
  | .answered task q o,         owed => owed = [⟨id, task, q, .completed o⟩]
  | .crashed _, owed | .gone,   owed => owed.length ≤ 1
  | .arrived, owed | .ready,    owed => owed = []
  | .recorded, owed | .pausing _, owed => owed = []

theorem Phase.Owes.length_le_one {phase : Phase} {id : Nat} {owed : Ledger}
    (h : phase.Owes id owed) : owed.length ≤ 1 := by
  cases phase with
  | crashed | gone => exact h
  | arrived | ready | recorded | pausing | waiting | answered =>
    rw [show owed = _ from h]
    simp

/-- Every user has open what it owes. -/
def Ledger.Owed (l : Ledger) (users : List User) : Prop :=
  ∀ (id : Nat) (u : User), users[id]? = some u → u.phase.Owes id (l.openOf id)

theorem Ledger.Owed.set {l l' : Ledger} {users : List User} {id : Nat} {u : User}
    (h : l.Owed users) (hothers : ∀ j ≠ id, l'.openOf j = l.openOf j)
    (hu : u.phase.Owes id (l'.openOf id)) : l'.Owed (users.set id u) := by
  refine forall_users_set (fun j hj v hv => ?_) hu
  rw [hothers j hj]
  exact h j v hv

/-! ## What the tally counts -/

/-- The tally counts what is recorded, in the row of its task. -/
structure Ledger.Tallied (l : Ledger) (t : Tally) : Prop where
  counted : t.Counted
  named (name : String) : (t.row? name).isSome → 0 < t.requestsOf name
  requests (name : String) :
    t.requestsOf name = l.countP fun s => s.task.name == name && s.fate.isRecorded
  failures (name : String) :
    t.failuresOf name = l.countP fun s => s.task.name == name && s.fate.isFailure
  total : t.requestTotal = l.countP (·.fate.isRecorded)

namespace Ledger

variable {l : Ledger} {t : Tally} {id : Nat}

theorem tallied_nil : Tallied [] .empty where
  counted := Tally.counted_empty
  named _ h := by cases h
  requests _ := rfl
  failures _ := rfl
  total := rfl

theorem Tallied.append_start (h : l.Tallied t) (content : Nat × Task × Request) :
    Tallied (l ++ [.start content]) t where
  counted := h.counted
  named := h.named
  requests name := by simp [h.requests name, Sending.start, Fate.isRecorded]
  failures name := by simp [h.failures name, Sending.start, Fate.isFailure]
  total := by simp [h.total, Sending.start, Fate.isRecorded]

/-- Fates that are not recorded are not counted. -/
theorem Tallied.settle (h : l.Tallied t) {f : Fate → Fate} {s : Sending}
    (hf : Fate.KeepsClosed f) (hopen : l.openOf id = [s])
    (hs : s.fate.isRecorded = false) (hfs : (f s.fate).isRecorded = false) :
    (l.settle id f).Tallied t where
  counted := h.counted
  named := h.named
  requests name := by
    rw [countP_settle hf hopen (by simp [hs]), h.requests name]
    simp [Sending.become, hfs]
  failures name := by
    rw [countP_settle hf hopen (by simp [Fate.isFailure_eq_false hs]), h.failures name]
    simp [Sending.become, Fate.isFailure_eq_false hfs]
  total := by
    rw [countP_settle hf hopen hs, h.total]
    simp [Sending.become, hfs]

/-- An outcome that is recorded is counted in the row of its task. -/
theorem Tallied.record (h : l.Tallied t) {t' : Tally} {task : Task} {q : Request} {o : Outcome}
    (hopen : l.openOf id = [⟨id, task, q, .completed o⟩])
    (hrecord : t.record task.name q o = (t', none)) : (l.settle id .record).Tallied t' := by
  have hrecords := h.counted.records task.name q o
  simp only [hrecord] at hrecords
  exact {
    counted := hrecords.counted h.counted
    named := hrecords.requestsOf_pos h.named
    requests := by
      intro name
      rw [countP_settle Fate.keepsClosed_record hopen (by simp [Fate.isRecorded]),
        hrecords.requestsOf_eq, h.requests]
      simp [Sending.become, Fate.record, Fate.isRecorded, Extent.ofFault, Extent.isCounted,
        @eq_comm _ name task.name]
    failures := by
      intro name
      rw [countP_settle Fate.keepsClosed_record hopen (by simp [Fate.isFailure]),
        hrecords.failuresOf_eq, h.failures]
      simp [Sending.become, Fate.record, Fate.isFailure_recorded, Extent.ofFault,
        Extent.isCounted, @eq_comm _ name task.name]
    total := by
      rw [countP_settle Fate.keepsClosed_record hopen rfl, hrecords.requestTotal_eq h.counted,
        h.total]
      rfl }

/-- A tally that has no room for a request stays what it is. -/
theorem Tallied.eq_of_fault (h : l.Tallied t) {t' : Tally} {name : String} {q : Request}
    {o : Outcome} {e : Fault} (hrecord : t.record name q o = (t', some e))
    (he : e ≠ .spanOverflow) : t' = t := by
  have hrecords := h.counted.records name q o
  simp only [hrecord] at hrecords
  cases hrecords with
  | counts => exact absurd rfl he
  | nothing => rfl

end Ledger

/-! ## The ledger and the run -/

/-- A ledger that agrees with the users and the tally of a run. -/
structure Ledger.Accounts (l : Ledger) (r : Run) : Prop where
  sent : l.map Sending.content = r.sent
  known (s : Sending) : s ∈ l → s.user < r.users.length ∧ s.task ∈ r.tasks
  owed : l.Owed r.users
  tallied : l.Tallied r.tally

namespace Ledger.Accounts

variable {l : Ledger} {r r' : Run} {id : Nat} {u u' : User}

theorem openOf_of_le (h : l.Accounts r) (hid : r.users.length ≤ id) : l.openOf id = [] := by
  refine List.filter_eq_nil_iff.mpr fun s hs hopen => ?_
  have huser : s.user = id := by simpa using (Bool.and_eq_true_iff.mp hopen).1
  have := (h.known s hs).1
  omega

/-- An act that leaves the ledger as it is. -/
theorem keep (h : l.Accounts r) (husers : r'.users = r.users.set id u') (hsent : r'.sent = r.sent)
    (htasks : r'.tasks = r.tasks) (htally : r'.tally = r.tally)
    (howes : u'.phase.Owes id (l.openOf id)) : l.Accounts r' where
  sent := h.sent.trans hsent.symm
  known s hs := by
    rw [husers, List.length_set, htasks]
    exact h.known s hs
  owed := by
    rw [husers]
    exact h.owed.set (fun _ _ => rfl) howes
  tallied := htally ▸ h.tallied

/-- An act that settles the request that its user has open. -/
theorem settle {f : Fate → Fate} {s : Sending} (h : l.Accounts r)
    (husers : r'.users = r.users.set id u') (hsent : r'.sent = r.sent) (htasks : r'.tasks = r.tasks)
    (hf : Fate.KeepsClosed f) (hopen : l.openOf id = [s])
    (howes : u'.phase.Owes id (if (f s.fate).isOpen then [s.become f] else []))
    (htally : (l.settle id f).Tallied r'.tally) : (l.settle id f).Accounts r' where
  sent := by rw [map_content_settle, hsent, h.sent]
  known s' hs' := by
    rw [husers, List.length_set, htasks]
    obtain ⟨s, hs, rfl⟩ := List.mem_map.mp hs'
    split <;> exact h.known s hs
  owed := by
    rw [husers]
    refine h.owed.set (fun j hj => openOf_settle_of_ne hj) ?_
    rw [openOf_settle_self hf hopen]
    exact howes
  tallied := htally

/-- An act that sends a request while its user has none open. -/
theorem send {task : Task} {q : Request} (h : l.Accounts r)
    (husers : r'.users = r.users.set id u') (hsent : r'.sent = r.sent ++ [(id, task, q)])
    (htasks : r'.tasks = r.tasks) (htally : r'.tally = r.tally) (hid : id < r.users.length)
    (hopen : l.openOf id = []) (htask : task ∈ r.tasks) (hphase : u'.phase = .waiting task q) :
    Accounts (l ++ [.start (id, task, q)]) r' where
  sent := by
    rw [List.map_append, h.sent, hsent]
    rfl
  known s hs := by
    rw [husers, List.length_set, htasks]
    rcases List.mem_append.mp hs with hs | hs
    · exact h.known s hs
    · rw [List.mem_singleton.mp hs]
      exact ⟨hid, htask⟩
  owed := by
    rw [husers]
    refine h.owed.set (fun j hj => ?_) ?_
    · rw [openOf_append]
      simp [openOf, Sending.start, hj.symm]
    · rw [hphase, openOf_append, hopen]
      simp [openOf, Sending.start, Fate.isOpen, Phase.Owes]
  tallied := htally ▸ h.tallied.append_start _

/-- The ledger behind a request that is sent has one more request. -/
theorem note_send (h : l.Accounts r) {sent : List (Nat × Task × Request)}
    (hsent : r'.sent = r.sent ++ sent) (words : List UInt32) :
    l.note r' (.user id (.send words)) = l ++ sent.map .start := by
  have hlength : l.length = r.sent.length := by simpa using congrArg List.length h.sent
  rw [note, hsent, hlength, List.drop_left]

end Ledger.Accounts

/-- What a user asks for next is the task that it picks. -/
theorem User.next_eq_ok {u : User} {tasks : List Task} {words rest : List UInt32}
    {picker : Picker} {task : Task} {q : Request}
    (h : u.next tasks words = .ok ((picker, task, q), rest)) :
    ∃ i words', u.picker.next (tasks.map (·.weight)) words = .ok ((i, picker), words') ∧
      tasks[i]? = some task ∧ u.worker.request task.work words' = .ok (q, rest) := by
  simp only [next] at h
  split at h
  case h_1 => cases h
  case h_2 i _ words' hpick =>
    split at h
    case h_1 => cases h
    case h_2 htask =>
      split at h
      case h_1 => cases h
      case h_2 hrequest =>
        cases h
        exact ⟨i, words', hpick, htask, hrequest⟩

theorem User.mem_of_next {u : User} {tasks : List Task} {words rest : List UInt32}
    {picker : Picker} {task : Task} {q : Request}
    (h : u.next tasks words = .ok ((picker, task, q), rest)) : task ∈ tasks := by
  obtain ⟨i, words', -, htask, -⟩ := next_eq_ok h
  exact List.mem_of_getElem? htask

namespace Run

variable {l : Ledger} {r r' : Run} {id : Nat} {u : User}

theorem isThrough_set {u' : User} (hu : r.users[id]? = some u)
    (husers : r'.users = r.users.set id u') :
    r'.isThrough id = match u'.phase with | .recorded => true | _ => false := by
  have hid := (List.getElem?_eq_some_iff.mp hu).1
  rw [isThrough, husers, List.getElem?_set_self hid]
  cases u' with
  | mk worker picker phase => cases phase <;> rfl

/-- An act of a user leaves the ledger behind it in agreement. -/
theorem Acts.accounts {a : Act} (h : Acts r id u a r') (hu : r.users[id]? = some u)
    (hl : l.Accounts r) (hspans : ∀ u ∈ r'.users, u.phase ≠ .crashed .spanOverflow) :
    (l.note r' (.user id a)).Accounts r' := by
  have howed := hl.owed id u hu
  have hid := (List.getElem?_eq_some_iff.mp hu).1
  cases h with
  | begins h =>
    rw [h] at howed
    exact hl.keep rfl rfl rfl rfl howed
  | sends h hnext =>
    rw [h] at howed
    rw [hl.note_send rfl]
    exact hl.send rfl rfl rfl rfl hid howed (User.mem_of_next hnext) rfl
  | @crashesAtSend _ e _ _ _ =>
    -- Nothing was sent, so there is nothing to note.
    have hsent : (r.setUser id { u with phase := .crashed e }).sent = r.sent ++ [] :=
      (List.append_nil _).symm
    rw [hl.note_send hsent, List.map_nil, List.append_nil]
    exact hl.keep rfl rfl rfl rfl howed.length_le_one
  | isAnswered o h =>
    rw [h] at howed
    exact hl.settle rfl rfl rfl (Fate.keepsClosed_complete o) howed rfl
      (hl.tallied.settle (Fate.keepsClosed_complete o) howed rfl rfl)
  | givesUp e h =>
    rw [h] at howed
    exact hl.settle rfl rfl rfl Fate.keepsClosed_stop howed rfl
      (hl.tallied.settle Fate.keepsClosed_stop howed rfl rfl)
  | records h hrecord =>
    rw [h] at howed
    rw [Ledger.note, isThrough_set hu rfl, if_pos rfl]
    exact hl.settle rfl rfl rfl Fate.keepsClosed_record howed rfl (hl.tallied.record howed hrecord)
  | @crashesAtRecord _ _ _ _ e _ hrecord =>
    -- The requests had no room, so the tally is the same and the outcome unrecorded.
    have he : e ≠ .spanOverflow := by
      rintro rfl
      exact hspans _ (List.mem_of_getElem? (List.getElem?_set_self hid)) rfl
    rw [Ledger.note, isThrough_set hu rfl, if_neg Bool.false_ne_true]
    exact hl.keep rfl rfl rfl (hl.tallied.eq_of_fault hrecord he) howed.length_le_one
  | pauses h _ =>
    rw [h] at howed
    exact hl.keep rfl rfl rfl rfl howed
  | wakes h =>
    rw [h] at howed
    exact hl.keep rfl rfl rfl rfl howed
  | crashesAtPause _ _ _ => exact hl.keep rfl rfl rfl rfl howed.length_le_one
  | leaves _ _ => exact hl.keep rfl rfl rfl rfl howed.length_le_one

/-- An event leaves the ledger behind it in agreement. -/
theorem Happens.accounts {e : Event} (h : Happens r e r') (hl : l.Accounts r)
    (hspans : ∀ u ∈ r'.users, u.phase ≠ .crashed .spanOverflow) : (l.note r' e).Accounts r' := by
  cases h with
  | arrive =>
    obtain ⟨husers, -, -, htasks, htally, hsent, -⟩ := arrive_frame r
    exact {
      sent := hl.sent.trans hsent.symm
      known := by
        intro s hs
        obtain ⟨huser, htask⟩ := hl.known s hs
        rw [husers, htasks, List.length_append]
        exact ⟨Nat.lt_add_right 1 huser, htask⟩
      owed := by
        intro id u hu
        obtain hu | ⟨hid, rfl⟩ := user_of_arrive hu
        · exact hl.owed id u hu
        · -- No request has the number of the user that is new.
          exact hl.openOf_of_le hid
      tallied := htally ▸ hl.tallied }
  | user hu hacts => exact hacts.accounts hu hl hspans
  | rested | stop | finish => exact ⟨hl.sent, hl.known, hl.owed, hl.tallied⟩

/-- The ledger agrees with the run from its start on, as long as no user crashes on a
sum of spans. -/
theorem accounts_ledgerFrom {es : List Event} (h : r.steps es = some r') (hl : l.Accounts r)
    (hspans : ∀ u ∈ r'.users, u.phase ≠ .crashed .spanOverflow) :
    (r.ledgerFrom l es).Accounts r' := by
  induction es generalizing r l with
  | nil =>
    cases h
    exact hl
  | cons e es ih =>
    simp only [steps] at h
    split at h
    case h_1 => cases h
    case h_2 r₁ hstep =>
      rw [ledgerFrom, hstep]
      refine ih h ((happens_of_step hstep).accounts hl fun u hu hcrashed => ?_)
      -- A crashed user is still there at the end.
      obtain ⟨id, hid⟩ := List.mem_iff_getElem?.mp hu
      have hend := steps_users_of_isOver h hid (by rw [hcrashed]; rfl)
      exact hspans u (List.mem_of_getElem? hend) hcrashed

end Run
end OperatorKit.Load
