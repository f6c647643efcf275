import OperatorKit.Proofs.Key.Issue

/-!
# Issues into one directory at the same time

Any number of issues into one directory make their calls on one tree in any order, while
other programs work on the tree too but remove nothing. At most one of them makes the
directory, and none if it was there before. The other ones create no file.
-/

namespace OperatorKit.Key

open Disk OperatorKit.Key.Action OperatorKit.Key.Call

/-- An issue under way: the calls that it made, and what is left of it. -/
structure Attempt where
  calls : List Call
  left : Action (Except KeyProblem IssueOutcome)

/-- Issues under way on a tree. -/
structure Contest where
  tree : Tree
  attempts : List Attempt

/-- What can happen while issues are under way. -/
inductive Move where
  /-- A further issue begins. -/
  | enter (spec : KeySpec)
  /-- An issue makes its next call. -/
  | act (i : Nat) (keys : Nat → Except RsaProblem RsaKey)
  /-- The disk refuses the next call of an issue for a reason of its own. -/
  | refuse (i : Nat) (e : Refusal)
  /-- The disk makes the file that an issue calls for, and refuses to write all of its text. -/
  | cut (i n : Nat) (e : Refusal)
  /-- Another program works on the tree. -/
  | change (t : Tree)

/-- An issue has made its directory. -/
def Attempt.Passed (dir : String) (a : Attempt) : Prop := .makeDir dir (.ok ()) ∈ a.calls

namespace Contest

/-- A tree with no issue under way. -/
def on (t : Tree) : Contest := ⟨t, []⟩

/-- An issue under way has made its directory. -/
def PassedAt (dir : String) (c : Contest) (i : Nat) : Prop :=
  ∃ a, c.attempts[i]? = some a ∧ a.Passed dir

/-- The contest behind a call of an issue that leaves the rest of the issue and a tree. -/
def called (c : Contest) (i : Nat) (a : Attempt) (call : Call)
    (left : Action (Except KeyProblem IssueOutcome)) (tree : Tree) : Contest :=
  ⟨tree, c.attempts.set i ⟨a.calls ++ [call], left⟩⟩

/-- The contest behind a move. An issue that is over makes no calls, and other programs
remove nothing. -/
def move? (dir : String) (c : Contest) : Move → Option Contest
  | .enter spec => some { c with attempts := c.attempts ++ [⟨[], issue dir spec⟩] }
  | .act i keys =>
    match c.attempts[i]? with
    | none   => none
    | some a =>
      match a.left.call? keys c.tree with
      | none      => none
      | some call =>
        some (c.called i a call (a.left.step keys c.tree).1 (a.left.step keys c.tree).2)
  | .refuse i e =>
    match c.attempts[i]? with
    | none   => none
    | some a =>
      match a.left.refuse? e with
      | none              => none
      | some (call, left) => some (c.called i a call left c.tree)
  | .cut i n e =>
    match c.attempts[i]? with
    | none   => none
    | some a =>
      match a.left.cut? n e c.tree with
      | none                 => none
      | some (call, left, t) => some (c.called i a call left t)
  | .change t   => if c.tree.keeps t then some { c with tree := t } else none

/-- The contest behind a row of moves. -/
def moves? (dir : String) (c : Contest) (ms : List Move) : Option Contest := ms.foldlM (move? dir) c

/-! ## Moves -/

/-- What a contest can come to by a move. -/
inductive Moves (dir : String) (c : Contest) : Contest → Prop where
  | enter (spec : KeySpec) : Moves dir c ⟨c.tree, c.attempts ++ [⟨[], issue dir spec⟩]⟩
  | call {i : Nat} {a : Attempt} {call : Call} {left : Action (Except KeyProblem IssueOutcome)}
      {u : Tree} (ha : c.attempts[i]? = some a)
      (hends : ∀ {cs v}, left.Ends cs v → a.left.Ends (call :: cs) v)
      (hleaves : call.Leaves c.tree u) : Moves dir c (c.called i a call left u)
  | change {t : Tree} (h : c.tree.keeps t = true) : Moves dir c ⟨t, c.attempts⟩

variable {dir : String} {c c' : Contest} {m : Move} {ms : List Move}

theorem moves_of_move? (h : c.move? dir m = some c') : c.Moves dir c' := by
  cases m with
  | enter spec =>
    cases h
    exact .enter spec
  | act i keys =>
    simp only [move?] at h
    split at h
    case h_1 => cases h
    case h_2 a ha =>
      split at h
      case h_1 => cases h
      case h_2 call hcall =>
        cases h
        exact .call ha (ends_of_step hcall) (leaves_of_step hcall)
  | refuse i e =>
    simp only [move?] at h
    split at h
    case h_1 => cases h
    case h_2 a ha =>
      split at h
      case h_1 => cases h
      case h_2 call left hrefuse =>
        cases h
        exact .call ha (ends_of_refuse hrefuse) (leaves_of_refuse hrefuse c.tree)
  | cut i n e =>
    simp only [move?] at h
    split at h
    case h_1 => cases h
    case h_2 a ha =>
      split at h
      case h_1 => cases h
      case h_2 call left t hcut =>
        cases h
        exact .call ha (ends_of_cut hcut) (leaves_of_cut hcut)
  | change t =>
    simp only [move?] at h
    split at h
    case isTrue hkeeps =>
      cases h
      exact .change hkeeps
    case isFalse => cases h

/-- A place that is taken stays so. -/
theorem Moves.occupied (h : c.Moves dir c') {path : String}
    (hpath : c.tree.occupied path = true) : c'.tree.occupied path = true := by
  cases h with
  | enter spec => exact hpath
  | call ha hends hleaves =>
    rw [called, hleaves.tree_eq.1]
    exact Tree.occupied_extend _ hpath
  | change hkeeps => exact Tree.occupied_of_keeps hkeeps hpath

theorem passedAt_set {t : Tree} {i j : Nat} {a : Attempt}
    (h : PassedAt dir ⟨t, c.attempts.set i a⟩ j) :
    c.PassedAt dir j ∨ j = i ∧ a.Passed dir := by
  obtain ⟨b, hb, hpassed⟩ := h
  rw [List.getElem?_set] at hb
  split at hb
  case isTrue hij =>
    split at hb
    case isTrue =>
      cases hb
      exact .inr ⟨hij.symm, hpassed⟩
    case isFalse => cases hb
  case isFalse => exact .inl ⟨b, hb, hpassed⟩

theorem passed_append {a : Attempt} {call : Call}
    {left : Action (Except KeyProblem IssueOutcome)}
    (h : Attempt.Passed dir ⟨a.calls ++ [call], left⟩) :
    a.Passed dir ∨ call = .makeDir dir (.ok ()) := by
  obtain h | h := List.mem_append.mp h
  · exact .inl h
  · exact .inr (List.mem_singleton.mp h).symm

/-- By a move no issue makes its directory, or one does. Then its place was free before, and is
taken now. -/
theorem Moves.passedAt (h : c.Moves dir c') :
    (∀ i, c'.PassedAt dir i → c.PassedAt dir i) ∨
      ∃ i, c.tree.occupied dir = false ∧ c'.tree.occupied dir = true ∧
        ∀ j, c'.PassedAt dir j → c.PassedAt dir j ∨ j = i := by
  cases h with
  | enter spec =>
    refine .inl fun i hi => ?_
    obtain ⟨a, ha, hpassed⟩ := hi
    rw [List.getElem?_append] at ha
    split at ha
    case isTrue => exact ⟨a, ha, hpassed⟩
    case isFalse =>
      -- An issue that begins has made no call yet.
      cases List.mem_singleton.mp (List.mem_of_getElem? ha)
      exact absurd hpassed List.not_mem_nil
  | @call i a call left u ha hends hleaves =>
    obtain ⟨rfl, hvacant⟩ := hleaves.tree_eq
    by_cases hpasses : call = .makeDir dir (.ok ())
    · subst hpasses
      have hadded : (c.tree.placeOf dir, c.tree.newDir) ∈
          (Call.makeDir dir (.ok ())).added c.tree := List.mem_singleton_self _
      refine .inr ⟨i, ?_, Tree.isSome_get?_extend_of_mem hadded, fun j hj => ?_⟩
      · -- The tree makes a directory only where nothing is.
        unfold Tree.occupied
        rw [hvacant _ hadded]
        rfl
      · exact (passedAt_set hj).imp_right And.left
    · -- Any other call leaves the issue where it was.
      refine .inl fun j hj => ?_
      obtain hj | ⟨rfl, hpassed⟩ := passedAt_set hj
      · exact hj
      · exact ⟨a, ha, (passed_append hpassed).resolve_right hpasses⟩
  | change hkeeps => exact .inl fun i hi => hi

/-! ## Whole contests -/

theorem moves?_cons (dir : String) (c : Contest) (m : Move) (ms : List Move) :
    c.moves? dir (m :: ms) = (c.move? dir m).bind (·.moves? dir ms) := rfl

/-- What every move keeps is kept by every row of moves. -/
theorem moves?_preserve {P : Contest → Prop} (hmove : ∀ {c c'}, P c → c.Moves dir c' → P c')
    (h : c.moves? dir ms = some c') (hc : P c) : P c' := by
  induction ms generalizing c with
  | nil =>
    cases h
    exact hc
  | cons m ms ih =>
    rw [moves?_cons] at h
    obtain ⟨c₁, hfirst, hrest⟩ := Option.bind_eq_some_iff.mp h
    exact ih hrest (hmove hc (moves_of_move? hfirst))

/-- At most one issue has made its directory, which is there since; and all of them do what an
issue can do. -/
structure Guarded (dir : String) (c : Contest) : Prop where
  eq_of_passedAt : ∀ i j, c.PassedAt dir i → c.PassedAt dir j → i = j
  occupied_of_passedAt : ∀ i, c.PassedAt dir i → c.tree.occupied dir = true
  issues : ∀ a ∈ c.attempts, ∃ spec, ∀ cs v, a.left.Ends cs v →
    (issue dir spec).Ends (a.calls ++ cs) v

theorem guarded_on (dir : String) (t : Tree) : (on t).Guarded dir where
  eq_of_passedAt := by
    rintro i j ⟨a, ha, -⟩
    cases ha
  occupied_of_passedAt := by
    rintro i ⟨a, ha, -⟩
    cases ha
  issues a ha := absurd ha List.not_mem_nil

theorem Guarded.issues_of_moves (hc : c.Guarded dir) (h : c.Moves dir c') :
    ∀ a ∈ c'.attempts, ∃ spec, ∀ cs v, a.left.Ends cs v →
      (issue dir spec).Ends (a.calls ++ cs) v := by
  intro b hb
  cases h with
  | enter spec =>
    obtain hb | hb := List.mem_append.mp hb
    · exact hc.issues b hb
    · cases List.mem_singleton.mp hb
      exact ⟨spec, fun cs v hends => hends⟩
  | @call i a call left u ha hends hleaves =>
    obtain hb | rfl := List.mem_or_eq_of_mem_set hb
    · exact hc.issues b hb
    · obtain ⟨spec, hissue⟩ := hc.issues a (List.mem_of_getElem? ha)
      refine ⟨spec, fun cs v hleft => ?_⟩
      rw [List.append_assoc]
      exact hissue _ v (hends hleft)
  | change hkeeps => exact hc.issues b hb

theorem Guarded.moves (hc : c.Guarded dir) (h : c.Moves dir c') : c'.Guarded dir := by
  refine ⟨?_, ?_, hc.issues_of_moves h⟩
  · intro i j hi hj
    obtain hback | ⟨k, hfree, -, hback⟩ := h.passedAt
    · exact hc.eq_of_passedAt i j (hback i hi) (hback j hj)
    · -- The place was free, so no issue had made the directory before.
      have hnone : ∀ i, ¬ c.PassedAt dir i := by
        intro i hi
        rw [hc.occupied_of_passedAt i hi] at hfree
        cases hfree
      rw [(hback i hi).resolve_left (hnone i), (hback j hj).resolve_left (hnone j)]
  · intro i hi
    obtain hback | ⟨k, -, htaken, -⟩ := h.passedAt
    · exact h.occupied (hc.occupied_of_passedAt i (hback i hi))
    · exact htaken

theorem guarded_of_moves? {t : Tree} (h : (on t).moves? dir ms = some c) : c.Guarded dir :=
  moves?_preserve Guarded.moves h (guarded_on dir t)

/-- Once the place of the directory is taken, no issue makes it any more. -/
theorem passedAt_of_occupied (h : c.moves? dir ms = some c') (hc : c.tree.occupied dir = true) :
    ∀ i, c'.PassedAt dir i → c.PassedAt dir i := by
  refine (moves?_preserve (P := fun c' => c'.tree.occupied dir = true ∧
    ∀ i, c'.PassedAt dir i → c.PassedAt dir i) ?_ h ⟨hc, fun i hi => hi⟩).2
  rintro c₁ c₂ ⟨htaken, hback⟩ hmoves
  refine ⟨hmoves.occupied htaken, fun i hi => hback i ?_⟩
  obtain hback' | ⟨k, hfree, -⟩ := hmoves.passedAt
  · exact hback' i hi
  · rw [htaken] at hfree
    cases hfree

/-! ## Attempts -/

variable {a : Attempt} {i : Nat}

/-- What an attempt did so far is the beginning of what an issue can do. -/
theorem Guarded.exists_issues (hc : c.Guarded dir) (ha : a ∈ c.attempts) :
    ∃ spec cs v, a.left.Ends cs v ∧ Issues dir spec (a.calls ++ cs) v := by
  obtain ⟨spec, hissue⟩ := hc.issues a ha
  -- Some way to go on is enough, so it gets no key.
  have hends := (ends_calls (fun _ => .error .invalidArguments) a.left c.tree).1
  exact ⟨spec, _, _, hends, issues_of_ends (hissue _ _ hends)⟩

theorem Guarded.passage (hc : c.Guarded dir) (ha : a ∈ c.attempts) (hpassed : a.Passed dir) :
    ∃ parents later, a.calls = parents ++ .makeDir dir (.ok ()) :: later ∧
      ∀ r, .makeDir dir r ∉ parents := by
  obtain ⟨spec, cs, v, -, hissues⟩ := hc.exists_issues ha
  obtain ⟨hnot, -⟩ | ⟨parents, later, hcalls, hdirs⟩ :=
    hissues.of_prefix (List.prefix_append a.calls cs)
  · exact absurd hpassed hnot
  · exact ⟨parents, later, hcalls, makeDir_not_mem hdirs⟩

theorem Guarded.createsNoFile (hc : c.Guarded dir) (ha : a ∈ c.attempts) (hnot : ¬ a.Passed dir) :
    ∀ call ∈ a.calls, call.isCreateFile = false := by
  obtain ⟨spec, cs, v, -, hissues⟩ := hc.exists_issues ha
  obtain ⟨-, hfiles⟩ | ⟨parents, later, hcalls, -⟩ :=
    hissues.of_prefix (List.prefix_append a.calls cs)
  · exact hfiles
  · refine absurd ?_ hnot
    unfold Attempt.Passed
    rw [hcalls]
    exact List.mem_append_right _ List.mem_cons_self

theorem Guarded.outcome (hc : c.Guarded dir) (ha : a ∈ c.attempts) (hnot : ¬ a.Passed dir)
    {v : Except KeyProblem IssueOutcome} (hv : a.left.result? = some v) :
    v = .ok (.alreadyExists dir) ∨ ∃ e, v = .error e := by
  obtain ⟨spec, hissue⟩ := hc.issues a ha
  have hends : a.left.Ends [] v := by
    rw [result?_eq_some hv]
    exact .done v
  have hissues := issues_of_ends (hissue [] v hends)
  rw [List.append_nil] at hissues
  exact hissues.outcome hnot

/-- An issue that is not over has calls left, and can make the next one. -/
theorem Guarded.progress (hc : c.Guarded dir) (ha : c.attempts[i]? = some a)
    (hover : a.left.result? = none) :
    a.calls.length < callLimit dir ∧ ∀ keys, (c.move? dir (.act i keys)).isSome := by
  have hcall : ∀ keys, ∃ call, a.left.call? keys c.tree = some call := by
    intro keys
    refine Option.ne_none_iff_exists'.mp fun hnone => ?_
    obtain ⟨v, hdone⟩ := call?_eq_none hnone
    rw [hdone] at hover
    cases hover
  refine ⟨?_, fun keys => ?_⟩
  · obtain ⟨spec, cs, v, hends, hissues⟩ := hc.exists_issues (List.mem_of_getElem? ha)
    have hlength := hissues.length_le
    rw [List.length_append] at hlength
    cases cs with
    | nil =>
      -- Without a call only an issue that is over can end.
      rw [hends.eq_done] at hover
      cases hover
    | cons call cs =>
      rw [List.length_cons] at hlength
      omega
  · obtain ⟨call, hcall⟩ := hcall keys
    simp only [move?, ha, hcall, Option.isSome_some]

/-- Whatever the issues into one directory and other programs that remove nothing do on a tree,
and in whatever order: at most one issue makes the directory, with its first call for it. Every
other one creates no file and ends, after a limited number of calls, with the news that the
directory is there or with a problem. If the directory was there at some time, or an issue had
made it then, no further issue makes it or creates a file. -/
theorem one_issue_passes {dir : String} {t : Tree} {before after : List Move} {c₁ c : Contest}
    (hbefore : (on t).moves? dir before = some c₁) (hafter : c₁.moves? dir after = some c) :
    (∀ i j, c.PassedAt dir i → c.PassedAt dir j → i = j) ∧
    (∀ a ∈ c.attempts, a.Passed dir → ∃ parents later,
      a.calls = parents ++ .makeDir dir (.ok ()) :: later ∧ ∀ r, .makeDir dir r ∉ parents) ∧
    (∀ a ∈ c.attempts, ¬ a.Passed dir → (∀ call ∈ a.calls, call.isCreateFile = false) ∧
      ∀ v, a.left.result? = some v → v = .ok (.alreadyExists dir) ∨ ∃ e, v = .error e) ∧
    (∀ i a, c.attempts[i]? = some a → a.left.result? = none →
      a.calls.length < callLimit dir ∧ ∀ keys, (c.move? dir (.act i keys)).isSome) ∧
    (c₁.tree.occupied dir = true ∨ (∃ i, c₁.PassedAt dir i) →
      ∀ i a, c.attempts[i]? = some a → ¬ c₁.PassedAt dir i →
        ¬ a.Passed dir ∧ ∀ call ∈ a.calls, call.isCreateFile = false) := by
  have hc₁ : c₁.Guarded dir := guarded_of_moves? hbefore
  have hc : c.Guarded dir := moves?_preserve Guarded.moves hafter hc₁
  refine ⟨hc.eq_of_passedAt, fun a ha => hc.passage ha, ?_, ?_, ?_⟩
  · intro a ha hnot
    exact ⟨hc.createsNoFile ha hnot, fun v hv => hc.outcome ha hnot hv⟩
  · intro i a ha hover
    exact hc.progress ha hover
  · intro hthere i a ha hnot
    -- Either way the place of the directory is taken in between, so nobody passes later.
    have htaken : c₁.tree.occupied dir = true := by
      obtain htaken | ⟨j, hj⟩ := hthere
      · exact htaken
      · exact hc₁.occupied_of_passedAt j hj
    have hnot' : ¬ a.Passed dir := fun hpassed =>
      hnot (passedAt_of_occupied hafter htaken i ⟨a, ha, hpassed⟩)
    exact ⟨hnot', hc.createsNoFile (List.mem_of_getElem? ha) hnot'⟩

/-- A maker that has no key to give. -/
def noKeys (_ : Nat) : Except RsaProblem RsaKey := .error .invalidArguments

/-- Two issues begin, and the second one makes the directory. -/
def race : List Move := [.enter ⟨"a", 2048, "RS256"⟩, .enter ⟨"b", 1024, "RS384"⟩, .act 1 noKeys]

/-- The second one gets no key. The first one is refused, and so is a third one that begins
when another program has made a file. -/
def aftermath : List Move :=
  [.act 0 noKeys, .act 1 noKeys,
    .change ⟨[(["notes"], .file 0o644 []), (["keys"], .dir)], [], 0o022⟩,
    .enter ⟨"c", 2048, "RS256"⟩, .act 1 noKeys, .act 2 noKeys, .act 0 noKeys, .act 2 noKeys]

theorem one_issue_passes_of_three :
    ∃ c₁ c, (on ⟨[], [], 0o022⟩).moves? "keys" race = some c₁ ∧
      c₁.moves? "keys" aftermath = some c ∧
      c.attempts.map (·.left.result?) = [some (.ok (.alreadyExists "keys")),
        some (.error (.rsa .invalidArguments)), some (.ok (.alreadyExists "keys"))] ∧
      (∀ i, c.PassedAt "keys" i → i = 1) ∧
      ∀ i a, c.attempts[i]? = some a → i ≠ 1 → ∀ call ∈ a.calls, call.isCreateFile = false := by
  obtain ⟨c₁, c, hbefore, hafter, hresults, hsecond⟩ :
      ∃ c₁ c, (on ⟨[], [], 0o022⟩).moves? "keys" race = some c₁ ∧
        c₁.moves? "keys" aftermath = some c ∧
        c.attempts.map (·.left.result?) = [some (.ok (.alreadyExists "keys")),
          some (.error (.rsa .invalidArguments)), some (.ok (.alreadyExists "keys"))] ∧
        c.PassedAt "keys" 1 := ⟨_, _, rfl, rfl, rfl, _, rfl, List.mem_cons_self⟩
  obtain ⟨honly, -, hothers, -⟩ := one_issue_passes hbefore hafter
  refine ⟨c₁, c, hbefore, hafter, hresults, fun i hi => honly i 1 hi hsecond, ?_⟩
  intro i a ha hi
  refine (hothers a (List.mem_of_getElem? ha) fun hpassed => hi ?_).1
  exact honly i 1 ⟨a, ha, hpassed⟩ hsecond

end Contest
end OperatorKit.Key
