import OperatorKit.Proofs.Disk.Walk
import OperatorKit.Proofs.Key.Issue

/-!
# Issues into directories that are there

An issue that finds its directory there creates no file and leaves all that is there. It has
made the missing directories above its own one by then. If its path led somewhere before,
none of them was missing, and that is always so unless the path leads back.
-/

namespace OperatorKit.Key

open Disk OperatorKit.Key.Action OperatorKit.Key.Call

variable {α β : Type} {keys : Nat → Except RsaProblem RsaKey} {t u : Tree} {c : Call}
  {cs : List Call}

/-! ## Calls on closed trees and on paths that lead somewhere -/

namespace Call

theorem Leaves.closed (h : c.Leaves t u) (ht : t.Closed) : u.Closed := by
  cases h with
  | madeDir h => exact ht.makeDir h
  | createdFile h | cutFile h => exact ht.createFile h
  | refusedDir | refusedFile | isDir | fileText | makeKey | log | print => exact ht

theorem LeaveAll.closed (h : LeaveAll t cs u) (ht : t.Closed) : u.Closed := by
  induction h with
  | nil t => exact ht
  | cons h hrest ih => exact ih (h.closed ht)

/-- Calls change nothing if they create no file, and the directories that they make lead
somewhere before. -/
theorem LeaveAll.eq_of_leads (h : LeaveAll t cs u) (hfiles : ∀ c ∈ cs, c.isCreateFile = false)
    (hdirs : ∀ path, .makeDir path (.ok ()) ∈ cs → t.Leads path) : u = t := by
  induction h with
  | nil t => rfl
  | @cons t u w c cs h hrest ih =>
    have hsame : u = t := by
      cases h with
      | @madeDir path u h => exact absurd h ((hdirs path List.mem_cons_self).makeDir_ne u)
      | createdFile | cutFile => cases hfiles _ List.mem_cons_self
      | refusedDir | refusedFile | isDir | fileText | makeKey | log | print => rfl
    subst hsame
    exact ih (fun c hc => hfiles c (List.mem_cons_of_mem _ hc))
      fun path hpath => hdirs path (List.mem_cons_of_mem _ hpath)

end Call

/-- One action behind another is carried out on the tree that the other one leaves. -/
theorem Action.run_bind (keys : Nat → Except RsaProblem RsaKey) (a : Action α) (f : α → Action β)
    (t : Tree) :
    ((a.bind f).run keys t).value = ((f (a.run keys t).value).run keys (a.run keys t).tree).value ∧
      ((a.bind f).run keys t).tree =
        ((f (a.run keys t).value).run keys (a.run keys t).tree).tree := by
  induction a generalizing t with
  | done x => exact ⟨rfl, rfl⟩
  | makeDir path next ih => exact ih _ _
  | isDir path next ih => exact ih _ _
  | createFile path mode text next ih => exact ih _ _
  | fileText path next ih => exact ih _ _
  | makeKey bits next ih => exact ih _ _
  | log line next ih => exact ih _
  | print text next ih => exact ih _

/-! ## Refused issues -/

variable {dir d : String} {spec : KeySpec}

/-- To make a key and store it never ends with the news that the directory is there. -/
theorem fill_ne_alreadyExists (dir : String) (spec : KeySpec) :
    ¬ (fill dir spec).Ends cs (.ok (.alreadyExists d)) := by
  intro h
  cases fills_of_ends h with
  | @stores _ _ _ _ r _ _ _ hv => cases r <;> cases hv

/-- An issue is refused by the call for its directory, behind those for the ones above. -/
theorem Issues.of_alreadyExists (h : Issues dir spec cs (.ok (.alreadyExists d))) :
    d = dir ∧ ∃ parents line, OnlyAbove dir parents ∧
      cs = parents ++ [.makeDir dir (.error .taken), .log line] := by
  cases h with
  | alreadyExists hdirs line => exact ⟨rfl, _, line, hdirs, rfl⟩
  | passes hdirs hfill => exact absurd hfill (fill_ne_alreadyExists dir spec)

theorem vacancy_of_makeDir {path : String} {e : Refusal} (h : t.makeDir path = .error e) :
    t.vacancy path true = .error e := by
  unfold Tree.makeDir at h
  split at h <;> cases h
  case h_1 hvacancy => exact hvacancy

/-- The directory of a refused issue is taken on the tree that is left. -/
theorem vacancy_of_alreadyExists
    (h : ((issue dir spec).run keys t).value = .ok (.alreadyExists d)) :
    ((issue dir spec).run keys t).tree.vacancy dir true = .error .taken := by
  obtain ⟨hvalue, htree⟩ := run_bind keys (makeParents dir) _ t
  rw [issue, hvalue] at h
  rw [issue, htree]
  cases hparents : ((makeParents dir).run keys t).value with
  | error e =>
    rw [hparents] at h
    cases h
  | ok _ =>
    rw [hparents] at h
    simp only [run] at h ⊢
    cases hmade : ((makeParents dir).run keys t).tree.makeDir dir with
    | ok u =>
      rw [hmade] at h
      exact absurd (h ▸ (ends_calls keys (fill dir spec) u).1) (fill_ne_alreadyExists dir spec)
    | error e =>
      rw [hmade] at h
      cases e with
      | taken => exact vacancy_of_makeDir hmade
      | notFound | notADirectory | isADirectory | nameTooLong | nulCharacter | notText | other =>
        cases h

/-- Whatever it is answered, a refused issue has added nothing but directories above its own
one, where nothing was. -/
theorem Issues.added_of_alreadyExists (h : Issues dir spec cs (.ok (.alreadyExists d)))
    (hleave : LeaveAll t cs u) :
    ∃ dirs, u = t.extend dirs ∧
      ∀ x ∈ dirs, t.get? x.1 = none ∧ ∃ q ∈ Path.above dir, x = (t.placeOf q, t.newDir) := by
  obtain ⟨-, parents, line, hdirs, rfl⟩ := h.of_alreadyExists
  obtain ⟨hu, hvacant⟩ := hleave.tree_eq
  have hadded : addedBy t (parents ++ [.makeDir dir (.error .taken), .log line]) =
      addedBy t parents := by
    rw [addedBy_append]
    exact List.append_nil _
  rw [hadded] at hu hvacant
  exact ⟨addedBy t parents, hu, fun x hx => ⟨hvacant x hx, added_of_onlyAbove hdirs hx⟩⟩

/-- Whatever it is answered, a refused issue has added nothing if its path led somewhere. -/
theorem Issues.eq_of_leads (h : Issues dir spec cs (.ok (.alreadyExists d)))
    (hleave : LeaveAll t cs u) (hleads : t.Leads dir) : u = t := by
  obtain ⟨-, parents, line, hdirs, rfl⟩ := h.of_alreadyExists
  apply hleave.eq_of_leads
  · intro c hc
    obtain hc | hc := List.mem_append.mp hc
    · exact (hdirs.onDirs c hc).isCreateFile_eq
    · obtain rfl | hc := List.mem_cons.mp hc
      · rfl
      · rw [List.mem_singleton.mp hc]
        rfl
  · intro path hpath
    have hmade : .makeDir path (.ok ()) ∈ parents := by
      simpa using hpath
    cases hdirs.onDirs _ hmade with
    | makeDir habove r => exact hleads.above (Path.above_of_mem habove)

/-- Below a directory that was missing there is nothing. So if a path without a way back is
taken behind the missing directories above it, there were none. -/
theorem eq_nil_of_taken {dirs : List (Place × Entry)} (ht : t.Closed)
    (hdots : ".." ∉ Path.names dir)
    (hdirs : ∀ x ∈ dirs, t.get? x.1 = none ∧ ∃ q ∈ Path.above dir, x = (t.placeOf q, t.newDir))
    (htaken : (t.extend dirs).vacancy dir true = .error .taken) : dirs = [] := by
  apply List.eq_nil_iff_forall_not_mem.mpr
  intro x hx
  obtain ⟨hvacant, q, hq, rfl⟩ := hdirs x hx
  have hnames : Path.names dir ≠ [] := by
    intro hnone
    obtain ⟨front, last, hsteps, -⟩ := Path.steps_of_mem_above hq
    rw [Path.steps, hnone] at hsteps
    exact List.append_ne_nil_of_right_ne_nil _ (List.cons_ne_nil _ _) hsteps.symm
  have hthere : ((t.extend dirs).get? (t.placeOf dir)).isSome :=
    Tree.occupied_of_taken htaken hdots hnames
  -- The place of the path itself is none of those that were added above it.
  have hother : ∀ y ∈ dirs, y.1 ≠ t.placeOf dir := by
    intro y hy heq
    obtain ⟨-, q', hq', rfl⟩ := hdirs y hy
    obtain ⟨name, names, hplace⟩ := Tree.placeOf_of_mem_above (t := t) hdots hq'
    have hlength := congrArg List.length (heq.trans hplace)
    simp only [List.length_append, List.length_cons] at hlength
    omega
  rw [Tree.get?_extend_of_ne hother] at hthere
  obtain ⟨name, names, hplace⟩ := Tree.placeOf_of_mem_above (t := t) hdots hq
  rw [hplace] at hthere
  have habove := ht.isSome_of_append (name :: names) hthere
  rw [hvacant] at habove
  cases habove

/-- An issue that is refused because its directory is there has stored nothing and changed
nothing. What it may have made are missing directories above its own one. The tree is what it
was if and only if the path led somewhere before, and always if the path never leads back. -/
theorem refused_issue_leaves_tree (keys : Nat → Except RsaProblem RsaKey) (dir d : String)
    (spec : KeySpec) (t : Tree) (ht : t.Closed)
    (h : ((issue dir spec).run keys t).value = .ok (.alreadyExists d)) :
    d = dir ∧
    (∃ dirs, ((issue dir spec).run keys t).tree = t.extend dirs ∧
      ∀ x ∈ dirs, t.get? x.1 = none ∧ ∃ q ∈ Path.above dir, x = (t.placeOf q, t.newDir)) ∧
    (((issue dir spec).run keys t).tree = t ↔ t.Leads dir) ∧
    (".." ∉ Path.names dir → ((issue dir spec).run keys t).tree = t) := by
  have htaken := vacancy_of_alreadyExists h
  obtain ⟨hends, hleave⟩ := ends_calls keys (issue dir spec) t
  rw [h] at hends
  have hissues := issues_of_ends hends
  obtain ⟨dirs, htree, hdirs⟩ := hissues.added_of_alreadyExists hleave
  refine ⟨hissues.of_alreadyExists.1, ⟨dirs, htree, hdirs⟩, ⟨?_, ?_⟩, ?_⟩
  · intro hsame
    rw [hsame] at htaken
    exact Tree.leads_of_taken htaken
  · exact fun hleads => hissues.eq_of_leads hleave hleads
  · intro hdots
    rw [htree] at htaken ⊢
    rw [eq_nil_of_taken ht hdots hdirs htaken, Tree.extend_nil]

theorem closed_workTree : workTree.Closed := Tree.closed_of_entries (by decide)

/-- The directory that is there is refused however it is spelled. -/
theorem refused_issue_leaves_workTree :
    ∃ r, (issue "./keys//" ⟨"a", 2048, "RS256"⟩).run (fun _ => .error .invalidArguments)
        workTree = r ∧
      r.value = .ok (.alreadyExists "./keys//") ∧ r.tree = workTree := by
  have hvalue : ((issue "./keys//" ⟨"a", 2048, "RS256"⟩).run (fun _ => .error .invalidArguments)
      workTree).value = .ok (.alreadyExists "./keys//") := rfl
  obtain ⟨-, -, -, hsame⟩ := refused_issue_leaves_tree _ _ _ _ workTree closed_workTree hvalue
  exact ⟨_, rfl, hvalue, hsame (by decide)⟩

/-- A path back out of a directory that is missing leads nowhere, until that directory is made
for it. -/
theorem refused_issue_adds_directory :
    ∃ r, (issue "a/.." ⟨"a", 2048, "RS256"⟩).run (fun _ => .error .invalidArguments)
        workTree = r ∧
      r.value = .ok (.alreadyExists "a/..") ∧ r.tree = workTree.extend [(["a", "work"], .dir)] ∧
      r.tree ≠ workTree := by
  refine ⟨_, rfl, rfl, rfl, ?_⟩
  intro hsame
  have hlength := congrArg (·.entries.length) hsame
  cases hlength

end OperatorKit.Key
