import OperatorKit.Proofs.Disk.Path
import OperatorKit.Proofs.Disk.Tree

/-!
# Where paths lead

A path leads somewhere if its names can be followed to the end. Then nothing can be made
there. All entries of a tree lie in directories, so what is above an entry is there too.
-/

namespace OperatorKit.Disk.Tree

variable {t u : Tree} {p q : Place} {e : Refusal} {es : List (Place × Entry)}
  {path name : String} {names : List String} {dir : Bool}

/-! ## Walks to the end -/

/-- The names of a path can be followed to the end. -/
def Leads (t : Tree) (path : String) : Prop :=
  ∃ p, t.walk (t.start path) (Path.names path) = .ok p

theorem walk_append (p : Place) (names names' : List String) :
    t.walk p (names ++ names') = .ok q ↔
      ∃ r, t.walk p names = .ok r ∧ t.walk r names' = .ok q := by
  induction names generalizing p with
  | nil => simp only [List.nil_append, walk, Except.ok.injEq, exists_eq_left']
  | cons name names ih =>
    rw [List.cons_append, walk, walk]
    cases t.follow p name with
    | error e => simp only [reduceCtorEq, false_and, exists_false]
    | ok q => exact ih q

theorem walk_singleton (p : Place) (name : String) : t.walk p [name] = t.follow p name := by
  rw [walk]
  cases t.follow p name <;> rfl

/-- What is above a path that leads somewhere leads somewhere too. -/
theorem Leads.above {path' : String} (h : t.Leads path) (habove : Path.Above path' path) :
    t.Leads path' := by
  obtain ⟨p, hp⟩ := h
  obtain ⟨rest, hrest⟩ := habove.names_prefix
  rw [← hrest, walk_append] at hp
  obtain ⟨r, hr, -⟩ := hp
  refine ⟨r, ?_⟩
  rw [start, habove.isAbsolute_eq]
  exact hr

/-- A name that leads from a directory to another place leads to something. -/
theorem isSome_of_follow (h : t.follow p name = .ok q) (hdot : name ≠ ".") (hdots : name ≠ "..") :
    q = name :: p ∧ (t.get? q).isSome := by
  simp only [follow, if_neg hdot, if_neg hdots] at h
  split at h
  · cases h
  split at h
  · cases h
  rename_i hchild
  split at h <;> cases h
  rename_i hthere
  exact ⟨child_eq hchild, hthere⟩

/-- Where a path leads, nothing can be made. -/
theorem Leads.vacancy_ne (h : t.Leads path) (p : Place) : t.vacancy path dir ≠ .ok p := by
  intro hvacancy
  obtain ⟨names, last, q, hnames, hdot, hdots, hwalk, -, rfl, hvacant⟩ := vacancy_cases hvacancy
  obtain ⟨r, hr⟩ := h
  rw [hnames, walk_append] at hr
  obtain ⟨q', hq', hr⟩ := hr
  rw [hwalk] at hq'
  cases hq'
  rw [walk_singleton] at hr
  obtain ⟨rfl, hthere⟩ := isSome_of_follow hr hdot hdots
  rw [hvacant] at hthere
  cases hthere

theorem Leads.makeDir_ne (h : t.Leads path) (u : Tree) : t.makeDir path ≠ .ok u := by
  intro hmade
  unfold makeDir at hmade
  split at hmade
  case h_1 => cases hmade
  case h_2 hvacancy => exact h.vacancy_ne _ hvacancy

/-! ## Taken paths -/

theorem checkPath_ne_taken (path : String) : checkPath path ≠ .error .taken := by
  unfold checkPath
  split
  · exact nofun
  split
  · exact nofun
  split <;> exact nofun

theorem child_ne_taken (p : Place) (name : String) : child p name ≠ .error .taken := by
  unfold child
  split <;> exact nofun

theorem follow_ne_taken (p : Place) (name : String) : t.follow p name ≠ .error .taken := by
  intro h
  unfold follow at h
  split at h
  · cases h
  split at h
  · cases h
  split at h
  · cases h
  split at h
  case h_1 hchild =>
    cases h
    exact child_ne_taken p name hchild
  case h_2 => split at h <;> cases h

theorem walk_ne_taken (p : Place) (names : List String) : t.walk p names ≠ .error .taken := by
  induction names generalizing p with
  | nil => exact nofun
  | cons name names ih =>
    intro h
    unfold walk at h
    split at h
    case h_1 hfollow =>
      cases h
      exact follow_ne_taken p name hfollow
    case h_2 q _ => exact ih q h

/-- A path is taken if it has no names, or if its last name, in the directory of the others, is
a `.` or `..` or the name of something. -/
theorem vacancy_taken_cases (h : t.vacancy path dir = .error .taken) :
    Path.names path = [] ∨ ∃ names last q, Path.names path = names ++ [last] ∧
      t.walk (t.start path) names = .ok q ∧ t.isDirAt q = true ∧
      (last = "." ∨ last = ".." ∨
        child q last = .ok (last :: q) ∧ (t.get? (last :: q)).isSome) := by
  simp only [vacancy] at h
  split at h
  case h_1 hcheck =>
    cases h
    exact absurd hcheck (checkPath_ne_taken path)
  split at h
  case h_1 hnone => exact .inl (List.getLast?_eq_none_iff.mp hnone)
  rename_i last hlast
  split at h
  case h_1 hwalk =>
    cases h
    exact absurd hwalk (walk_ne_taken _ _)
  rename_i q hwalk
  split at h
  · cases h
  rename_i hdir
  rw [Bool.not_eq_true, Bool.not_eq_false'] at hdir
  obtain ⟨names, hnames⟩ := List.getLast?_eq_some_iff.mp hlast
  rw [hnames, List.dropLast_concat] at hwalk
  refine .inr ⟨names, last, q, hnames, hwalk, hdir, ?_⟩
  split at h
  case isTrue hname => exact hname.imp_right .inl
  split at h
  · cases h
  split at h
  case h_1 hchild =>
    cases h
    exact absurd hchild (child_ne_taken _ _)
  case h_2 hchild =>
    split at h <;> cases h
    rename_i hthere
    cases child_eq hchild
    exact .inr (.inr ⟨hchild, hthere⟩)

/-- A path that is taken leads somewhere. -/
theorem leads_of_taken (h : t.vacancy path dir = .error .taken) : t.Leads path := by
  obtain hnone | ⟨names, last, q, hnames, hwalk, hdir, hlast⟩ := vacancy_taken_cases h
  · exact ⟨t.start path, by rw [hnone, walk]⟩
  · have hfollow : ∃ r, t.follow q last = .ok r := by
      rw [follow, hdir, Bool.not_true, if_neg Bool.false_ne_true]
      by_cases hdot : last = "."
      · exact ⟨q, if_pos hdot⟩
      by_cases hdots : last = ".."
      · rw [if_neg hdot]
        exact ⟨q.tail, if_pos hdots⟩
      obtain ⟨hchild, hthere⟩ := (hlast.resolve_left hdot).resolve_left hdots
      rw [if_neg hdot, if_neg hdots, hchild]
      exact ⟨last :: q, if_pos hthere⟩
    obtain ⟨r, hr⟩ := hfollow
    refine ⟨r, ?_⟩
    rw [hnames, walk_append]
    exact ⟨q, hwalk, by rw [walk_singleton, hr]⟩

theorem isDirAt_eq_true : t.isDirAt p = true ↔ ∃ e, t.get? p = some e ∧ e.isDir = true := by
  rw [isDirAt, Option.any_eq_true]

theorem isSome_of_isDirAt (h : t.isDirAt p = true) : (t.get? p).isSome := by
  obtain ⟨e, he, -⟩ := isDirAt_eq_true.mp h
  rw [he]
  rfl

/-- At the place of a path that is taken there is something, if none of its names leads back. -/
theorem occupied_of_taken (h : t.vacancy path dir = .error .taken)
    (hdots : ".." ∉ Path.names path) (hne : Path.names path ≠ []) : t.occupied path = true := by
  obtain hnone | ⟨names, last, q, hnames, hwalk, hdir, hlast⟩ := vacancy_taken_cases h
  · exact absurd hnone hne
  · have hback : last ≠ ".." := by
      rintro rfl
      exact hdots (hnames ▸ List.mem_append_right _ (List.mem_singleton_self _))
    rw [occupied, placeOf, hnames, along_append, ← walk_eq hwalk]
    simp only [Place.along, if_neg hback]
    split
    case isTrue => exact isSome_of_isDirAt hdir
    case isFalse hdot => exact ((hlast.resolve_left hdot).resolve_left hback).2

/-! ## Places without a way back -/

theorem along_eq (hdots : ".." ∉ names) (p : Place) :
    Place.along p names = (names.filter (· != ".")).reverse ++ p := by
  induction names generalizing p with
  | nil => rfl
  | cons name names ih =>
    obtain ⟨hname, hnames⟩ := not_or.mp (mt List.mem_cons.mpr hdots)
    rw [Place.along, ih hnames, if_neg (Ne.symm hname), List.filter_cons]
    by_cases hdot : name = "."
    · rw [if_pos hdot, if_neg (by simpa using hdot)]
    · rw [if_neg hdot, if_pos (by simpa using hdot), List.reverse_cons, List.append_assoc]
      rfl

/-- A path without a way back names a place below that of each path above it. -/
theorem placeOf_of_mem_above {path' : String} (hdots : ".." ∉ Path.names path)
    (h : path' ∈ Path.above path) :
    ∃ name names, t.placeOf path = name :: names ++ t.placeOf path' := by
  have habove := Path.above_of_mem h
  obtain ⟨front, last, hsteps, rest, hrest⟩ := Path.steps_of_mem_above h
  have hdots' : ".." ∉ Path.names path' := fun hmem => hdots (habove.names_prefix.mem hmem)
  refine ⟨last, rest.reverse, ?_⟩
  rw [placeOf, placeOf, along_eq hdots, along_eq hdots', ← Path.steps, ← Path.steps, hsteps,
    ← hrest, start, start, habove.isAbsolute_eq]
  simp only [List.reverse_append, List.reverse_singleton, List.append_assoc, List.cons_append,
    List.nil_append]

/-! ## Closed trees -/

/-- All entries of a tree lie in directories. -/
def Closed (t : Tree) : Prop := ∀ name p, (t.get? (name :: p)).isSome → t.isDirAt p = true

theorem closed_of_entries (h : ∀ x ∈ t.entries, t.isDirAt x.1.tail = true) : t.Closed := by
  intro name p hthere
  rw [get?, if_neg (List.cons_ne_nil name p)] at hthere
  obtain ⟨e, he⟩ := Option.isSome_iff_exists.mp hthere
  exact h _ (mem_of_lookup he)

/-- What is above something in a closed tree is there. -/
theorem Closed.isSome_of_append (h : t.Closed) (names : List String)
    (hthere : (t.get? (names ++ p)).isSome) : (t.get? p).isSome := by
  induction names with
  | nil => exact hthere
  | cons name names ih => exact ih (isSome_of_isDirAt (h name _ hthere))

/-- Elsewhere an extended tree is what it was. -/
theorem get?_extend_of_ne (h : ∀ x ∈ es, x.1 ≠ p) : (t.extend es).get? p = t.get? p := by
  have hnone : lookup p es = none := by
    cases hlookup : lookup p es with
    | none => rfl
    | some e => exact absurd rfl (h _ (mem_of_lookup hlookup))
  rw [get?, get?, extend, lookup_append, hnone, Option.or_none]

theorem isDirAt_extend (h : t.isDirAt p = true) : (t.extend es).isDirAt p = true := by
  obtain ⟨e, he, hdir⟩ := isDirAt_eq_true.mp h
  exact isDirAt_eq_true.mpr ⟨e, get?_extend he, hdir⟩

/-- A closed tree stays so when something is put where a path has room for it. -/
theorem Closed.extend (h : t.Closed) (hvacancy : t.vacancy path dir = .ok p) (e : Entry) :
    (t.extend [(p, e)]).Closed := by
  obtain ⟨-, last, q, -, -, -, -, hdir, rfl, -⟩ := vacancy_cases hvacancy
  intro name r hthere
  by_cases hnew : name :: r = last :: q
  · cases hnew
    exact isDirAt_extend hdir
  · rw [get?_extend_of_ne fun x hx => ?_] at hthere
    · exact isDirAt_extend (h name r hthere)
    · rw [List.mem_singleton.mp hx]
      exact Ne.symm hnew

theorem Closed.makeDir (h : t.Closed) (hmade : t.makeDir path = .ok u) : u.Closed := by
  unfold Tree.makeDir at hmade
  split at hmade <;> cases hmade
  case h_2 hvacancy => exact h.extend hvacancy _

theorem Closed.createFile {mode : Nat} {bytes : List UInt8} (h : t.Closed)
    (hmade : t.createFile path mode bytes = .ok u) : u.Closed := by
  unfold Tree.createFile at hmade
  split at hmade <;> cases hmade
  case h_2 hvacancy => exact h.extend hvacancy _

end OperatorKit.Disk.Tree
