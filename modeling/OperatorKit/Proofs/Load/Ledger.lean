import OperatorKit.Proofs.Load.Step

/-!
# The ledger of a run

Every request that was sent in a run, with what became of it. The ledger is kept
apart from the users and the tally: it follows from the events alone what is under
way, what has an outcome, and which outcomes their users went on to record.
-/

namespace OperatorKit.Load

/-- What became of a request that was sent. -/
inductive Fate where
  | underWay
  /-- It has an outcome that is not recorded. -/
  | completed (outcome : Outcome)
  | recorded (outcome : Outcome)
  /-- A fault stopped it. -/
  | stopped

namespace Fate

/-- It may still be recorded. -/
def isOpen : Fate → Bool
  | underWay | completed _ => true
  | recorded _ | stopped   => false

def isRecorded : Fate → Bool
  | recorded _ => true
  | _          => false

/-- It is recorded, and it did not come back with a status from 200 to 399. -/
def isFailure : Fate → Bool
  | recorded o => !o.status.any fun code => decide (200 ≤ code) && decide (code < 400)
  | _          => false

def complete (o : Outcome) : Fate → Fate
  | underWay => completed o
  | fate     => fate

def record : Fate → Fate
  | completed o => recorded o
  | fate        => fate

def stop : Fate → Fate
  | underWay => stopped
  | fate     => fate

/-- A change of fates that leaves those as they are that cannot be recorded any more. -/
def KeepsClosed (f : Fate → Fate) : Prop := ∀ fate, fate.isOpen = false → f fate = fate

theorem keepsClosed_complete (o : Outcome) : KeepsClosed (complete o) := by
  intro fate h
  cases fate with
  | recorded _ | stopped => rfl
  | underWay | completed _ => cases h

theorem keepsClosed_record : KeepsClosed record := by
  intro fate h
  cases fate with
  | recorded _ | stopped => rfl
  | underWay | completed _ => cases h

theorem keepsClosed_stop : KeepsClosed stop := by
  intro fate h
  cases fate with
  | recorded _ | stopped => rfl
  | underWay | completed _ => cases h

theorem complete_ne_stopped {o : Outcome} {fate : Fate} (h : fate ≠ .stopped) :
    fate.complete o ≠ .stopped := by
  cases fate with
  | underWay => exact Fate.noConfusion
  | completed _ | recorded _ | stopped => exact h

theorem record_ne_stopped {fate : Fate} (h : fate ≠ .stopped) : fate.record ≠ .stopped := by
  cases fate with
  | completed _ => exact Fate.noConfusion
  | underWay | recorded _ | stopped => exact h

theorem isFailure_recorded (o : Outcome) : (recorded o).isFailure = !o.succeeded := by
  cases hstatus : o.status <;> simp [isFailure, Outcome.succeeded, isSuccess, hstatus]

theorem isOpen_eq_false {fate : Fate} (h : fate.isRecorded = true) : fate.isOpen = false := by
  cases fate with
  | recorded _ | stopped => rfl
  | underWay | completed _ => cases h

theorem isFailure_eq_false {fate : Fate} (h : fate.isRecorded = false) :
    fate.isFailure = false := by
  cases fate with
  | recorded _ => cases h
  | underWay | completed _ | stopped => rfl

end Fate

/-- A request that a user sent for a task. -/
structure Sending where
  user : Nat
  task : Task
  request : Request
  fate : Fate

namespace Sending

def start : Nat × Task × Request → Sending
  | (id, task, q) => ⟨id, task, q, .underWay⟩

def content (s : Sending) : Nat × Task × Request := (s.user, s.task, s.request)

def become (f : Fate → Fate) (s : Sending) : Sending := { s with fate := f s.fate }

end Sending

/-- All requests that were sent, in order. -/
abbrev Ledger : Type := List Sending

/-- The user has just come through its request. -/
def Run.isThrough (r : Run) (id : Nat) : Bool :=
  match r.users[id]? with
  | some ⟨_, _, .recorded⟩ => true
  | _                      => false

namespace Ledger

/-- Let all requests of a user take another fate. -/
def settle (id : Nat) (f : Fate → Fate) (l : Ledger) : Ledger :=
  l.map fun s => if s.user = id then s.become f else s

/-- The ledger behind an event, `r` being the run behind it. A user that crashes on
recording an outcome leaves it unrecorded. -/
def note (r : Run) (l : Ledger) : Event → Ledger
  | .user _ (.send _)   => l ++ (r.sent.drop l.length).map .start
  | .user id (.reply o) => l.settle id (.complete o)
  | .user id (.fail _)  => l.settle id .stop
  | .user id .record    => if r.isThrough id then l.settle id .record else l
  | _                   => l

/-- The requests of a user that may still be recorded. -/
def openOf (id : Nat) (l : Ledger) : Ledger := l.filter fun s => s.user == id && s.fate.isOpen

end Ledger

/-- The ledger behind a row of events, `l` being the one before it. -/
def Run.ledgerFrom (r : Run) (l : Ledger) : List Event → Ledger
  | []      => l
  | e :: es => match r.step e with
    | none   => l
    | some r => r.ledgerFrom (l.note r e) es

/-- The ledger of a run that begins at `r`. -/
def Run.ledger (r : Run) (es : List Event) : Ledger := r.ledgerFrom [] es

namespace Ledger

/-! ## Settling the requests of a user -/

variable {l : Ledger} {id : Nat} {f : Fate → Fate}

theorem map_content_settle (l : Ledger) (id : Nat) (f : Fate → Fate) :
    (l.settle id f).map Sending.content = l.map Sending.content := by
  simp only [settle, List.map_map]
  refine List.map_congr_left fun s _ => ?_
  simp only [Function.comp_apply]
  split <;> rfl

theorem settle_cons (s : Sending) :
    settle id f (s :: l) = (if s.user = id then s.become f else s) :: l.settle id f := rfl

theorem openOf_cons (s : Sending) :
    openOf id (s :: l) = if s.user == id && s.fate.isOpen then s :: l.openOf id else l.openOf id :=
  List.filter_cons

theorem openOf_append (l l' : Ledger) (id : Nat) :
    openOf id (l ++ l') = l.openOf id ++ openOf id l' := List.filter_append l l'

theorem openOf_settle_of_ne {j : Nat} (hne : j ≠ id) : (l.settle id f).openOf j = l.openOf j := by
  induction l with
  | nil => rfl
  | cons s l ih =>
    rw [settle_cons, openOf_cons, openOf_cons, ih]
    split
    case isTrue hs =>
      have hj : (s.user == j) = false := beq_eq_false_iff_ne.mpr fun h => hne (h.symm.trans hs)
      simp [hj, Sending.become]
    case isFalse => rfl

theorem become_eq_self (hf : Fate.KeepsClosed f) {s : Sending}
    (h : (s.user == id && s.fate.isOpen) = false) :
    (if s.user = id then s.become f else s) = s := by
  split
  case isTrue hs =>
    have hclosed : s.fate.isOpen = false := by simpa [hs] using h
    rw [Sending.become, hf _ hclosed]
  case isFalse => rfl

theorem settle_eq_self (hf : Fate.KeepsClosed f) (h : l.openOf id = []) : l.settle id f = l := by
  induction l with
  | nil => rfl
  | cons s l ih =>
    rw [openOf_cons] at h
    split at h
    case isTrue => cases h
    case isFalse hs =>
      rw [settle_cons, become_eq_self hf (Bool.eq_false_iff.mpr hs), ih h]

theorem openOf_settle_self (hf : Fate.KeepsClosed f) {s : Sending} (h : l.openOf id = [s]) :
    (l.settle id f).openOf id = if (f s.fate).isOpen then [s.become f] else [] := by
  induction l with
  | nil => cases h
  | cons s' l ih =>
    rw [openOf_cons] at h
    split at h
    case isTrue hs =>
      obtain ⟨rfl, hnil⟩ := List.cons_eq_cons.mp h
      have huser : s'.user = id := by simpa using (Bool.and_eq_true_iff.mp hs).1
      rw [settle_cons, if_pos huser, settle_eq_self hf hnil, openOf_cons, hnil]
      simp [Sending.become, huser]
    case isFalse hs =>
      have hs := Bool.eq_false_iff.mpr hs
      rw [settle_cons, become_eq_self hf hs, openOf_cons, hs, ih h]
      rfl

/-- Settling counts the one request that a user has open, if it has what was asked for
and did not have it before. -/
theorem countP_settle (hf : Fate.KeepsClosed f) {s : Sending} (h : l.openOf id = [s])
    {p : Sending → Bool} (hs : p s = false) :
    (l.settle id f).countP p = l.countP p + if p (s.become f) then 1 else 0 := by
  induction l with
  | nil => cases h
  | cons s' l ih =>
    rw [openOf_cons] at h
    rw [settle_cons, List.countP_cons, List.countP_cons]
    split at h
    case isTrue hopen =>
      -- The open request is the head, and behind it nothing is settled.
      obtain ⟨rfl, hnil⟩ := List.cons_eq_cons.mp h
      have huser : s'.user = id := by simpa using (Bool.and_eq_true_iff.mp hopen).1
      rw [settle_eq_self hf hnil, if_pos huser, hs]
      rfl
    case isFalse hopen =>
      rw [become_eq_self hf (Bool.eq_false_iff.mpr hopen), ih h]
      omega

/-! ## Fates that are settled -/

theorem getElem?_settle (hf : Fate.KeepsClosed f) {i : Nat} {s : Sending} (h : l[i]? = some s)
    (hs : s.fate.isOpen = false) : (l.settle id f)[i]? = some s := by
  rw [settle, List.getElem?_map, h, Option.map_some, become_eq_self hf (by simp [hs])]

theorem getElem?_note {r : Run} {i : Nat} {s : Sending} (e : Event) (h : l[i]? = some s)
    (hs : s.fate.isOpen = false) : (l.note r e)[i]? = some s := by
  cases e with
  | arrive | rested | stop _ | finish => exact h
  | user id act =>
    cases act with
    | start | pause _ | wake | leave => exact h
    | send _ =>
      rw [note, List.getElem?_append_left (List.getElem?_eq_some_iff.mp h).1]
      exact h
    | reply o => exact getElem?_settle (Fate.keepsClosed_complete o) h hs
    | fail _ => exact getElem?_settle Fate.keepsClosed_stop h hs
    | record =>
      rw [note]
      split
      case isTrue => exact getElem?_settle Fate.keepsClosed_record h hs
      case isFalse => exact h

theorem getElem?_ledgerFrom {r : Run} {i : Nat} {s : Sending} (es : List Event)
    (h : l[i]? = some s) (hs : s.fate.isOpen = false) : (r.ledgerFrom l es)[i]? = some s := by
  induction es generalizing r l with
  | nil => exact h
  | cons e es ih =>
    rw [Run.ledgerFrom]
    split
    case h_1 => exact h
    case h_2 => exact ih (getElem?_note e h hs)

/-- A request that is recorded at some time stays recorded, with the same outcome. -/
theorem getElem?_ledgerFrom_take {r : Run} {i : Nat} {s : Sending} (es : List Event) (n : Nat)
    (h : (r.ledgerFrom l (es.take n))[i]? = some s) (hs : s.fate.isOpen = false) :
    (r.ledgerFrom l es)[i]? = some s := by
  induction es generalizing r l n with
  | nil =>
    rw [List.take_nil] at h
    exact h
  | cons e es ih =>
    cases n with
    | zero => exact getElem?_ledgerFrom _ h hs
    | succ n =>
      rw [List.take_succ_cons, Run.ledgerFrom] at h
      rw [Run.ledgerFrom]
      cases hstep : r.step e with
      | none =>
        rw [hstep] at h
        exact h
      | some r' =>
        rw [hstep] at h
        exact ih n h

end Ledger
end OperatorKit.Load
