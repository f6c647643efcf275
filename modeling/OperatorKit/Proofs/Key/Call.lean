import OperatorKit.Key.Action
import OperatorKit.Proofs.Disk.Tree

/-!
# Calls of an action

The calls that an action makes with the answers that it gets. What an action can do is
said of all answers first, whoever gives them. Then the answers are those of a tree,
which may be refusals for reasons that the tree knows nothing of, such as a full disk.
Such a reason can come up when a file is made already and its text is being written. What
the calls leave on the tree is what they add to it.
-/

namespace OperatorKit.Key

open Disk

/-- What becomes of a call for a new file. -/
inductive FileOutcome where
  /-- The file is there with its text. -/
  | stored
  /-- No file is made. -/
  | refused (e : Refusal)
  /-- The file is made, but no more than the first bytes of its text are written. -/
  | cutShort (n : Nat) (e : Refusal)

namespace FileOutcome

/-- The answer to a call for a new file. It does not tell whether the file is there. -/
def answer : FileOutcome → Except Refusal Unit
  | .stored       => .ok ()
  | .refused e    => .error e
  | .cutShort _ e => .error e

/-- What becomes of a call where all is written to a file that is made. -/
def ofAnswer : Except Refusal Unit → FileOutcome
  | .ok _    => .stored
  | .error e => .refused e

theorem answer_ofAnswer (r : Except Refusal Unit) : (ofAnswer r).answer = r := by
  cases r <;> rfl

end FileOutcome

/-- A call with its answer. -/
inductive Call where
  | makeDir (path : String) (answer : Except Refusal Unit)
  | isDir (path : String) (answer : Bool)
  | createFile (path : String) (mode : Nat) (text : String) (outcome : FileOutcome)
  | fileText (path : String) (answer : Except Refusal String)
  | makeKey (bits : Nat) (answer : Except RsaProblem RsaKey)
  | log (line : LogLine)
  | print (text : String)

variable {t u : Tree} {c : Call} {cs cs' : List Call}

namespace Call

/-- A call for a new file, whether it is made or not. -/
def isCreateFile : Call → Bool
  | .createFile .. => true
  | _              => false

/-! ## Calls on a tree -/

/-- What a call with its answer leaves on a tree. The tree does what is called for, or it is
refused for whatever reason, and of a new file some of the text may be there by then. -/
inductive Leaves (t : Tree) : Call → Tree → Prop where
  | madeDir {path : String} {u : Tree} (h : t.makeDir path = .ok u) :
      Leaves t (.makeDir path (.ok ())) u
  | createdFile {path text : String} {mode : Nat} {u : Tree}
      (h : t.createFile path mode (Text.bytes text) = .ok u) :
      Leaves t (.createFile path mode text .stored) u
  | cutFile {path text : String} {mode n : Nat} {e : Refusal} {u : Tree}
      (h : t.createFile path mode ((Text.bytes text).take n) = .ok u) :
      Leaves t (.createFile path mode text (.cutShort n e)) u
  | refusedDir (path : String) (e : Refusal) : Leaves t (.makeDir path (.error e)) t
  | refusedFile (path : String) (mode : Nat) (text : String) (e : Refusal) :
      Leaves t (.createFile path mode text (.refused e)) t
  | isDir (path : String) (answer : Bool) : Leaves t (.isDir path answer) t
  | fileText (path : String) (answer : Except Refusal String) : Leaves t (.fileText path answer) t
  | makeKey (bits : Nat) (answer : Except RsaProblem RsaKey) : Leaves t (.makeKey bits answer) t
  | log (line : LogLine) : Leaves t (.log line) t
  | print (text : String) : Leaves t (.print text) t

/-- What a row of calls leaves on a tree. -/
inductive LeaveAll : Tree → List Call → Tree → Prop where
  | nil (t : Tree) : LeaveAll t [] t
  | cons {t u w : Tree} {c : Call} {cs : List Call} (h : c.Leaves t u) (hrest : LeaveAll u cs w) :
      LeaveAll t (c :: cs) w

/-- What a call adds to a tree. -/
def added (t : Tree) : Call → List (Place × Entry)
  | .makeDir path (.ok _) => [(t.placeOf path, t.newDir)]
  | .createFile path mode text .stored =>
    [(t.placeOf path, .file (t.masked mode) (Text.bytes text))]
  | .createFile path mode text (.cutShort n _) =>
    [(t.placeOf path, .file (t.masked mode) ((Text.bytes text).take n))]
  | _ => []

/-- What a row of calls adds to a tree. -/
def addedBy (t : Tree) (cs : List Call) : List (Place × Entry) := cs.flatMap (·.added t)

theorem added_extend (t : Tree) (es : List (Place × Entry)) (c : Call) :
    c.added (t.extend es) = c.added t := by
  unfold added
  split <;> rfl

theorem addedBy_append (t : Tree) (cs cs' : List Call) :
    addedBy t (cs ++ cs') = addedBy t cs ++ addedBy t cs' := List.flatMap_append

/-- What calls add depends on nothing that calls change. -/
theorem addedBy_extend (t : Tree) (es : List (Place × Entry)) (cs : List Call) :
    addedBy (t.extend es) cs = addedBy t cs :=
  congrArg (cs.flatMap ·) (funext fun c => c.added_extend t es)

/-- A call leaves on a tree what it adds, and adds nothing to a place that is taken. -/
theorem Leaves.tree_eq (h : c.Leaves t u) :
    u = t.extend (c.added t) ∧ ∀ x ∈ c.added t, t.get? x.1 = none := by
  cases h with
  | madeDir h =>
    obtain ⟨hu, hvacant⟩ := Tree.makeDir_eq h
    refine ⟨hu, fun x hx => ?_⟩
    rw [List.mem_singleton.mp hx]
    exact hvacant
  | createdFile h | cutFile h =>
    obtain ⟨hu, hvacant⟩ := Tree.createFile_eq h
    refine ⟨hu, fun x hx => ?_⟩
    rw [List.mem_singleton.mp hx]
    exact hvacant
  | refusedDir | refusedFile | isDir | fileText | makeKey | log | print =>
    exact ⟨t.extend_nil.symm, fun x hx => absurd hx List.not_mem_nil⟩

theorem LeaveAll.tree_eq (h : LeaveAll t cs u) :
    u = t.extend (addedBy t cs) ∧ ∀ x ∈ addedBy t cs, t.get? x.1 = none := by
  induction h with
  | nil t => exact ⟨t.extend_nil.symm, fun x hx => absurd hx List.not_mem_nil⟩
  | @cons t u w c cs h hrest ih =>
    obtain ⟨rfl, hvacant⟩ := h.tree_eq
    obtain ⟨hw, hrestVacant⟩ := ih
    rw [addedBy_extend] at hw hrestVacant
    rw [hw]
    refine ⟨t.extend_extend _ _, fun x hx => ?_⟩
    obtain hx | hx := List.mem_append.mp hx
    · exact hvacant x hx
    · exact Tree.get?_eq_none_of_extend (hrestVacant x hx)

end Call

namespace Action

variable {α β : Type} {keys : Nat → Except RsaProblem RsaKey} {a b : Action α} {x : α}

/-! ## All that an action can do -/

/-- An action can make a row of calls, with the answers that these have, and end with a
result. -/
inductive Ends : Action α → List Call → α → Prop where
  | done (x : α) : Ends (.done x) [] x
  | makeDir {path : String} {next : Except Refusal Unit → Action α} (r : Except Refusal Unit)
      {cs : List Call} {x : α} (h : (next r).Ends cs x) :
      Ends (.makeDir path next) (.makeDir path r :: cs) x
  | isDir {path : String} {next : Bool → Action α} (r : Bool) {cs : List Call} {x : α}
      (h : (next r).Ends cs x) : Ends (.isDir path next) (.isDir path r :: cs) x
  | createFile {path text : String} {mode : Nat} {next : Except Refusal Unit → Action α}
      (o : FileOutcome) {cs : List Call} {x : α} (h : (next o.answer).Ends cs x) :
      Ends (.createFile path mode text next) (.createFile path mode text o :: cs) x
  | fileText {path : String} {next : Except Refusal String → Action α}
      (r : Except Refusal String) {cs : List Call} {x : α} (h : (next r).Ends cs x) :
      Ends (.fileText path next) (.fileText path r :: cs) x
  | makeKey {bits : Nat} {next : Except RsaProblem RsaKey → Action α}
      (r : Except RsaProblem RsaKey) {cs : List Call} {x : α} (h : (next r).Ends cs x) :
      Ends (.makeKey bits next) (.makeKey bits r :: cs) x
  | log {line : LogLine} {next : Action α} {cs : List Call} {x : α} (h : next.Ends cs x) :
      Ends (.log line next) (.log line :: cs) x
  | print {text : String} {next : Action α} {cs : List Call} {x : α} (h : next.Ends cs x) :
      Ends (.print text next) (.print text :: cs) x

/-- One action behind another makes its calls behind those of the other. -/
theorem Ends.of_bind {f : α → Action β} {y : β} (h : (a.bind f).Ends cs y) :
    ∃ cs₁ x cs₂, a.Ends cs₁ x ∧ (f x).Ends cs₂ y ∧ cs = cs₁ ++ cs₂ := by
  -- Until the first action is done, the first call of both together is its own.
  induction a generalizing cs with
  | done x => exact ⟨[], x, cs, .done x, h, rfl⟩
  | makeDir path next ih =>
    cases h with
    | makeDir r h =>
      obtain ⟨cs₁, x, cs₂, h₁, h₂, rfl⟩ := ih r h
      exact ⟨_, x, cs₂, .makeDir r h₁, h₂, rfl⟩
  | isDir path next ih =>
    cases h with
    | isDir r h =>
      obtain ⟨cs₁, x, cs₂, h₁, h₂, rfl⟩ := ih r h
      exact ⟨_, x, cs₂, .isDir r h₁, h₂, rfl⟩
  | createFile path mode text next ih =>
    cases h with
    | createFile o h =>
      obtain ⟨cs₁, x, cs₂, h₁, h₂, rfl⟩ := ih _ h
      exact ⟨_, x, cs₂, .createFile o h₁, h₂, rfl⟩
  | fileText path next ih =>
    cases h with
    | fileText r h =>
      obtain ⟨cs₁, x, cs₂, h₁, h₂, rfl⟩ := ih r h
      exact ⟨_, x, cs₂, .fileText r h₁, h₂, rfl⟩
  | makeKey bits next ih =>
    cases h with
    | makeKey r h =>
      obtain ⟨cs₁, x, cs₂, h₁, h₂, rfl⟩ := ih r h
      exact ⟨_, x, cs₂, .makeKey r h₁, h₂, rfl⟩
  | log line next ih =>
    cases h with
    | log h =>
      obtain ⟨cs₁, x, cs₂, h₁, h₂, rfl⟩ := ih h
      exact ⟨_, x, cs₂, .log h₁, h₂, rfl⟩
  | print text next ih =>
    cases h with
    | print h =>
      obtain ⟨cs₁, x, cs₂, h₁, h₂, rfl⟩ := ih h
      exact ⟨_, x, cs₂, .print h₁, h₂, rfl⟩

theorem Ends.eq_done (h : a.Ends [] x) : a = .done x := by
  cases h
  rfl

theorem result?_eq_some (h : a.result? = some x) : a = .done x := by
  cases a with
  | done y =>
    cases h
    rfl
  | makeDir | isDir | createFile | fileText | makeKey | log | print => cases h

/-! ## One call -/

/-- The first call of an action, with the answer that it gets on a tree. -/
def call? (keys : Nat → Except RsaProblem RsaKey) (t : Tree) : Action α → Option Call
  | .done _                     => none
  | .makeDir path _             => some (.makeDir path (applyTo t (t.makeDir path)).1)
  | .isDir path _               => some (.isDir path (t.isDir path))
  | .createFile path mode text _ =>
    some (.createFile path mode text
      (.ofAnswer (applyTo t (t.createFile path mode (Text.bytes text))).1))
  | .fileText path _            => some (.fileText path (t.fileText path))
  | .makeKey bits _             => some (.makeKey bits (keys bits))
  | .log line _                 => some (.log line)
  | .print text _               => some (.print text)

theorem call?_eq_none (h : a.call? keys t = none) : ∃ x, a = .done x := by
  cases a with
  | done x => exact ⟨x, rfl⟩
  | makeDir | isDir | createFile | fileText | makeKey | log | print => cases h

/-- What an action can do behind its first call, it can do with that call in front. -/
theorem ends_of_step (h : a.call? keys t = some c) (hends : (a.step keys t).1.Ends cs x) :
    a.Ends (c :: cs) x := by
  cases a with
  | done => cases h
  | makeDir =>
    cases h
    exact .makeDir _ hends
  | isDir =>
    cases h
    exact .isDir _ hends
  | createFile =>
    cases h
    exact .createFile _ (by rwa [FileOutcome.answer_ofAnswer])
  | fileText =>
    cases h
    exact .fileText _ hends
  | makeKey =>
    cases h
    exact .makeKey _ hends
  | log =>
    cases h
    exact .log hends
  | print =>
    cases h
    exact .print hends

theorem leaves_makeDir (t : Tree) (path : String) :
    (Call.makeDir path (applyTo t (t.makeDir path)).1).Leaves t
      (applyTo t (t.makeDir path)).2 := by
  cases hmade : t.makeDir path with
  | error e => exact .refusedDir path e
  | ok u => exact .madeDir hmade

theorem leaves_createFile (t : Tree) (path : String) (mode : Nat) (text : String) :
    (Call.createFile path mode text
      (.ofAnswer (applyTo t (t.createFile path mode (Text.bytes text))).1)).Leaves t
      (applyTo t (t.createFile path mode (Text.bytes text))).2 := by
  cases hcreated : t.createFile path mode (Text.bytes text) with
  | error e => exact .refusedFile path mode text e
  | ok u => exact .createdFile hcreated

theorem leaves_of_step (h : a.call? keys t = some c) : c.Leaves t (a.step keys t).2 := by
  cases a with
  | done => cases h
  | makeDir path next =>
    cases h
    exact leaves_makeDir t path
  | isDir path next =>
    cases h
    exact .isDir path _
  | createFile path mode text next =>
    cases h
    exact leaves_createFile t path mode text
  | fileText path next =>
    cases h
    exact .fileText path _
  | makeKey bits next =>
    cases h
    exact .makeKey bits _
  | log line next =>
    cases h
    exact .log line
  | print text next =>
    cases h
    exact .print text

/-- The first call of an action, if it is one on the disk, when the disk refuses it for a reason
of its own, and what is left of the action. -/
def refuse? (e : Refusal) : Action α → Option (Call × Action α)
  | .makeDir path next              => some (.makeDir path (.error e), next (.error e))
  | .isDir path next                => some (.isDir path false, next false)
  | .createFile path mode text next =>
    some (.createFile path mode text (.refused e), next (.error e))
  | .fileText path next             => some (.fileText path (.error e), next (.error e))
  | _                               => none

theorem ends_of_refuse {e : Refusal} (h : a.refuse? e = some (c, b)) (hends : b.Ends cs x) :
    a.Ends (c :: cs) x := by
  cases a with
  | makeDir =>
    cases h
    exact .makeDir _ hends
  | isDir =>
    cases h
    exact .isDir _ hends
  | createFile =>
    cases h
    exact .createFile (.refused e) hends
  | fileText =>
    cases h
    exact .fileText _ hends
  | done | makeKey | log | print => cases h

theorem leaves_of_refuse {e : Refusal} (h : a.refuse? e = some (c, b)) (t : Tree) :
    c.Leaves t t := by
  cases a with
  | makeDir =>
    cases h
    exact .refusedDir _ e
  | isDir =>
    cases h
    exact .isDir _ false
  | createFile =>
    cases h
    exact .refusedFile _ _ _ e
  | fileText =>
    cases h
    exact .fileText _ _
  | done | makeKey | log | print => cases h

/-- The first call of an action, if it is one for a new file, when the disk makes the file and
refuses to write more than the first bytes of its text, and what is left of the action and on
the tree. -/
def cut? (n : Nat) (e : Refusal) (t : Tree) : Action α → Option (Call × Action α × Tree)
  | .createFile path mode text next =>
    match t.createFile path mode ((Text.bytes text).take n) with
    | .error _ => none
    | .ok u    => some (.createFile path mode text (.cutShort n e), next (.error e), u)
  | _ => none

theorem ends_of_cut {n : Nat} {e : Refusal} (h : a.cut? n e t = some (c, b, u))
    (hends : b.Ends cs x) : a.Ends (c :: cs) x := by
  cases a with
  | createFile path mode text next =>
    simp only [cut?] at h
    split at h <;> cases h
    exact .createFile (.cutShort n e) hends
  | done | makeDir | isDir | fileText | makeKey | log | print => cases h

theorem leaves_of_cut {n : Nat} {e : Refusal} (h : a.cut? n e t = some (c, b, u)) :
    c.Leaves t u := by
  cases a with
  | createFile path mode text next =>
    simp only [cut?] at h
    split at h <;> cases h
    case h_2 hcreated => exact .cutFile hcreated
  | done | makeDir | isDir | fileText | makeKey | log | print => cases h

/-! ## Whole actions -/

/-- The calls of an action that is carried out on a tree, with their answers. -/
def calls (keys : Nat → Except RsaProblem RsaKey) : Action α → Tree → List Call
  | .done _, _                       => []
  | .makeDir path next, t            =>
    let (r, u) := applyTo t (t.makeDir path)
    .makeDir path r :: (next r).calls keys u
  | .isDir path next, t              =>
    .isDir path (t.isDir path) :: (next (t.isDir path)).calls keys t
  | .createFile path mode text next, t =>
    let (r, u) := applyTo t (t.createFile path mode (Text.bytes text))
    .createFile path mode text (.ofAnswer r) :: (next r).calls keys u
  | .fileText path next, t           =>
    .fileText path (t.fileText path) :: (next (t.fileText path)).calls keys t
  | .makeKey bits next, t            => .makeKey bits (keys bits) :: (next (keys bits)).calls keys t
  | .log line next, t                => .log line :: next.calls keys t
  | .print text next, t              => .print text :: next.calls keys t

/-- Carrying an action out is carrying out its calls, one after the other. -/
theorem step_induction (keys : Nat → Except RsaProblem RsaKey) {P : Action α → Tree → Prop}
    (hdone : ∀ x t, P (.done x) t)
    (hcall : ∀ {a t c}, call? keys t a = some c → P (a.step keys t).1 (a.step keys t).2 → P a t)
    (a : Action α) (t : Tree) : P a t := by
  induction a generalizing t with
  | done x => exact hdone x t
  | makeDir path next ih => exact hcall rfl (ih _ _)
  | isDir path next ih => exact hcall rfl (ih _ _)
  | createFile path mode text next ih => exact hcall rfl (ih _ _)
  | fileText path next ih => exact hcall rfl (ih _ _)
  | makeKey bits next ih => exact hcall rfl (ih _ _)
  | log line next ih => exact hcall rfl (ih _)
  | print text next ih => exact hcall rfl (ih _)

theorem calls_of_step (h : a.call? keys t = some c) :
    a.calls keys t = c :: (a.step keys t).1.calls keys (a.step keys t).2 := by
  cases a with
  | done => cases h
  | makeDir | isDir | createFile | fileText | makeKey | log | print =>
    cases h
    rfl

theorem run_of_step (keys : Nat → Except RsaProblem RsaKey) (a : Action α) (t : Tree) :
    (a.run keys t).value = ((a.step keys t).1.run keys (a.step keys t).2).value ∧
      (a.run keys t).tree = ((a.step keys t).1.run keys (a.step keys t).2).tree := by
  cases a <;> exact ⟨rfl, rfl⟩

/-- A carried out action does what it can do, and leaves what its calls leave. -/
theorem ends_calls (keys : Nat → Except RsaProblem RsaKey) (a : Action α) (t : Tree) :
    a.Ends (a.calls keys t) (a.run keys t).value ∧
      Call.LeaveAll t (a.calls keys t) (a.run keys t).tree := by
  induction a, t using step_induction keys with
  | hdone x t => exact ⟨.done x, .nil t⟩
  | @hcall a t c h ih =>
    obtain ⟨hvalue, htree⟩ := run_of_step keys a t
    rw [calls_of_step h, hvalue, htree]
    exact ⟨ends_of_step h ih.1, .cons (leaves_of_step h) ih.2⟩

end Action
end OperatorKit.Key
