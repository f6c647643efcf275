import OperatorKit.Disk.Tree

/-!
# What calls leave on a tree

Calls that succeed put entries to the end of a tree, each to the place that its path
names and where nothing was. Whatever is at a place stays there.
-/

namespace OperatorKit.Disk

/-- Where names lead from a place if there are directories all the way. -/
def Place.along (p : Place) : List String → Place
  | []            => p
  | name :: names =>
    along (if name = "." then p else if name = ".." then p.tail else name :: p) names

namespace Tree

/-- The place that a path names, whether anything is there or not. -/
def placeOf (t : Tree) (path : String) : Place := Place.along (t.start path) (Path.names path)

/-- Whether anything is at the place that a path names. It is if the path leads to anything. -/
def occupied (t : Tree) (path : String) : Bool := (t.get? (t.placeOf path)).isSome

/-- A tree with more entries. -/
def extend (t : Tree) (es : List (Place × Entry)) : Tree := { t with entries := t.entries ++ es }

/-- Whether all places that are taken on a tree are taken on another one, and paths name the
same places on both. What is at these places may differ. -/
def keeps (t u : Tree) : Bool :=
  u.workDir == t.workDir && t.entries.all fun x => (u.get? x.1).isSome

variable {t u : Tree} {p q : Place} {e : Entry} {es : List (Place × Entry)} {path : String}

/-! ## Entries -/

@[simp] theorem extend_nil (t : Tree) : t.extend [] = t := by rw [extend, List.append_nil]

@[simp] theorem extend_extend (t : Tree) (es es' : List (Place × Entry)) :
    (t.extend es).extend es' = t.extend (es ++ es') := by
  rw [extend, extend, extend, List.append_assoc]

theorem lookup_append (p : Place) (es es' : List (Place × Entry)) :
    lookup p (es ++ es') = (lookup p es).or (lookup p es') := by
  induction es with
  | nil => rfl
  | cons x es ih =>
    rw [List.cons_append, lookup, lookup, ih]
    split
    case isTrue => rfl
    case isFalse => rfl

theorem isSome_lookup_of_mem (h : (p, e) ∈ es) : (lookup p es).isSome := by
  induction es with
  | nil => exact absurd h List.not_mem_nil
  | cons x es ih =>
    rw [lookup]
    split
    case isTrue => rfl
    case isFalse hne =>
      refine ih ((List.mem_cons.mp h).resolve_left ?_)
      rintro rfl
      exact hne rfl

/-- What is at a place stays there. -/
theorem get?_extend (h : t.get? p = some e) : (t.extend es).get? p = some e := by
  rw [get?] at h ⊢
  split at h
  case isTrue hp => rw [if_pos hp, h]
  case isFalse hp => rw [if_neg hp, extend, lookup_append, h, Option.some_or]

theorem isSome_get?_extend (h : (t.get? p).isSome) : ((t.extend es).get? p).isSome := by
  obtain ⟨e, he⟩ := Option.isSome_iff_exists.mp h
  rw [get?_extend he]
  rfl

theorem isSome_get?_extend_of_mem (h : (p, e) ∈ es) : ((t.extend es).get? p).isSome := by
  rw [get?]
  split
  case isTrue => rfl
  case isFalse =>
    rw [extend, lookup_append, Option.isSome_or, isSome_lookup_of_mem h, Bool.or_true]

/-- A place that is free now was free before. -/
theorem get?_eq_none_of_extend (h : (t.extend es).get? p = none) : t.get? p = none := by
  cases hp : t.get? p with
  | none => rfl
  | some e =>
    rw [get?_extend hp] at h
    cases h

theorem mem_of_lookup (h : lookup p es = some e) : (p, e) ∈ es := by
  induction es with
  | nil => cases h
  | cons x es ih =>
    rw [lookup] at h
    split at h
    case isTrue hp =>
      cases h
      rw [hp]
      exact List.mem_cons_self
    case isFalse => exact List.mem_cons_of_mem _ (ih h)

theorem occupied_of_keeps (h : t.keeps u = true) (hpath : t.occupied path = true) :
    u.occupied path = true := by
  unfold keeps at h
  rw [Bool.and_eq_true, beq_iff_eq, List.all_eq_true] at h
  obtain ⟨hworkDir, hentries⟩ := h
  have hplace : u.placeOf path = t.placeOf path := by
    unfold placeOf start
    rw [hworkDir]
  unfold occupied at hpath ⊢
  rw [hplace]
  unfold get? at hpath ⊢
  -- The root is on each tree, and all other places are taken by entries.
  split at hpath
  case isTrue hroot =>
    rw [if_pos hroot]
    rfl
  case isFalse hroot =>
    obtain ⟨e, he⟩ := Option.isSome_iff_exists.mp hpath
    have htaken := hentries _ (mem_of_lookup he)
    unfold get? at htaken
    exact htaken

theorem occupied_extend (es : List (Place × Entry)) (h : t.occupied path = true) :
    (t.extend es).occupied path = true := isSome_get?_extend h

/-! ## Walks -/

theorem child_eq {name : String} (h : child p name = .ok q) : q = name :: p := by
  rw [child] at h
  split at h
  case isTrue => cases h
  case isFalse =>
    cases h
    rfl

theorem follow_eq {name : String} (h : t.follow p name = .ok q) : q = Place.along p [name] := by
  simp only [follow] at h
  simp only [Place.along]
  split at h
  · cases h
  split at h
  case isTrue hdot =>
    cases h
    rw [if_pos hdot]
  case isFalse hdot =>
    rw [if_neg hdot]
    split at h
    case isTrue hdots =>
      cases h
      rw [if_pos hdots]
    case isFalse hdots =>
      rw [if_neg hdots]
      split at h
      case h_1 => cases h
      case h_2 hchild =>
        split at h <;> cases h
        exact child_eq hchild

theorem along_append (p : Place) (names names' : List String) :
    Place.along p (names ++ names') = Place.along (Place.along p names) names' := by
  induction names generalizing p with
  | nil => rfl
  | cons name names ih => exact ih _

/-- A walk that comes to its end is where its names lead. -/
theorem walk_eq {names : List String} (h : t.walk p names = .ok q) : q = Place.along p names := by
  -- The walk goes on from where the first name leads.
  induction names generalizing p with
  | nil =>
    cases h
    rfl
  | cons name names ih =>
    unfold walk at h
    split at h
    case h_1 => cases h
    case h_2 r hfollow =>
      rw [ih h, follow_eq hfollow, ← along_append, List.singleton_append]

/-- A place that can be taken is a free one in a directory, and its path passes all tests. -/
theorem vacancy_spec {dir : Bool} (h : t.vacancy path dir = .ok p) :
    checkPath path = .ok () ∧ (dir = false → endsInSlash path = false) ∧
      ∃ names last q, Path.names path = names ++ [last] ∧ last ≠ "." ∧ last ≠ ".." ∧
        t.walk (t.start path) names = .ok q ∧ t.isDirAt q = true ∧ child q last = .ok p ∧
        t.get? p = none := by
  simp only [vacancy] at h
  -- Each test that the path does not stand ends in a refusal, so only one way is left.
  split at h
  · cases h
  rename_i hcheck
  split at h
  · cases h
  rename_i last hlast
  split at h
  · cases h
  rename_i q hwalk
  split at h
  · cases h
  rename_i hdir
  split at h
  · cases h
  rename_i hname
  split at h
  · cases h
  rename_i hslash
  split at h
  · cases h
  rename_i hchild
  split at h
  · cases h
  rename_i hvacant
  cases h
  obtain ⟨hdot, hdots⟩ := not_or.mp hname
  obtain ⟨names, hnames⟩ := List.getLast?_eq_some_iff.mp hlast
  rw [hnames, List.dropLast_concat] at hwalk
  refine ⟨hcheck, ?_, names, last, q, hnames, hdot, hdots, hwalk, ?_, hchild, ?_⟩
  · rintro rfl
    simpa using hslash
  · rwa [Bool.not_eq_true, Bool.not_eq_false'] at hdir
  · exact Option.not_isSome_iff_eq_none.mp hvacant

/-- A place that can be taken is a free one in a directory, with a name that is no `.` or `..`. -/
theorem vacancy_cases {dir : Bool} (h : t.vacancy path dir = .ok p) :
    ∃ names last q, Path.names path = names ++ [last] ∧ last ≠ "." ∧ last ≠ ".." ∧
      t.walk (t.start path) names = .ok q ∧ t.isDirAt q = true ∧ p = last :: q ∧
      t.get? p = none := by
  obtain ⟨-, -, names, last, q, hnames, hdot, hdots, hwalk, hdir, hchild, hvacant⟩ :=
    vacancy_spec h
  exact ⟨names, last, q, hnames, hdot, hdots, hwalk, hdir, child_eq hchild, hvacant⟩

theorem vacancy_eq {dir : Bool} (h : t.vacancy path dir = .ok p) :
    p = t.placeOf path ∧ t.get? p = none := by
  obtain ⟨names, last, q, hnames, hdot, hdots, hwalk, -, hp, hvacant⟩ := vacancy_cases h
  refine ⟨?_, hvacant⟩
  rw [placeOf, hnames, along_append, ← walk_eq hwalk, hp]
  simp only [Place.along, if_neg hdot, if_neg hdots]

/-! ## Calls -/

/-- A directory is made at the place that its path names, where nothing was. -/
theorem makeDir_eq (h : t.makeDir path = .ok u) :
    u = t.extend [(t.placeOf path, t.newDir)] ∧ t.get? (t.placeOf path) = none := by
  unfold makeDir at h
  split at h <;> cases h
  case h_2 hvacancy =>
    obtain ⟨rfl, hvacant⟩ := vacancy_eq hvacancy
    exact ⟨rfl, hvacant⟩

/-- A file is made at the place that its path names, where nothing was. -/
theorem createFile_eq {mode : Nat} {bytes : List UInt8}
    (h : t.createFile path mode bytes = .ok u) :
    u = t.extend [(t.placeOf path, .file (t.masked mode) bytes)] ∧
      t.get? (t.placeOf path) = none := by
  unfold createFile at h
  split at h <;> cases h
  case h_2 hvacancy =>
    obtain ⟨rfl, hvacant⟩ := vacancy_eq hvacancy
    exact ⟨rfl, hvacant⟩

end Tree
end OperatorKit.Disk
