import OperatorKit.Proofs.Disk.Walk

/-!
# What is made stays and can be found

A file that is made lies where its path leads to, on the tree that is left and on each one
with more entries. Below a place where nothing is there is nothing either, so whatever lies
below a directory that was missing is new.
-/

namespace OperatorKit.Disk.Tree

variable {t u : Tree} {p q : Place} {e : Entry} {es : List (Place × Entry)}
  {path name : String} {names : List String} {dir : Bool}

/-! ## Walks on extended trees -/

theorem follow_extend (h : t.follow p name = .ok q) : (t.extend es).follow p name = .ok q := by
  unfold follow at h ⊢
  split at h
  case isTrue => cases h
  case isFalse hdir =>
    rw [Bool.not_eq_true, Bool.not_eq_false'] at hdir
    rw [isDirAt_extend hdir, Bool.not_true, if_neg Bool.false_ne_true]
    split at h
    case isTrue hdot => rw [if_pos hdot, h]
    case isFalse hdot =>
      rw [if_neg hdot]
      split at h
      case isTrue hdots => rw [if_pos hdots, h]
      case isFalse hdots =>
        rw [if_neg hdots]
        cases hchild : child p name with
        | error e =>
          rw [hchild] at h
          cases h
        | ok r =>
          simp only [hchild] at h ⊢
          split at h
          case isTrue hthere => rw [if_pos (isSome_get?_extend hthere), h]
          case isFalse => cases h

theorem walk_extend (h : t.walk p names = .ok q) : (t.extend es).walk p names = .ok q := by
  induction names generalizing p with
  | nil => exact h
  | cons name names ih =>
    unfold walk at h ⊢
    split at h
    case h_1 => cases h
    case h_2 r hfollow =>
      rw [follow_extend hfollow]
      exact ih h

/-! ## What is made -/

theorem get?_extend_cons (h : t.get? p = none) (e : Entry) (es : List (Place × Entry)) :
    (t.extend ((p, e) :: es)).get? p = some e := by
  rw [get?] at h ⊢
  split at h
  case isTrue => cases h
  case isFalse hroot =>
    rw [if_neg hroot, extend, lookup_append, h, Option.none_or, lookup, if_pos rfl]

/-- What is on an extended tree only is one of the entries that it was extended with. -/
theorem mem_of_get?_extend (h : (t.extend es).get? p = some e) (hnew : t.get? p = none) :
    (p, e) ∈ es := by
  rw [get?] at h hnew
  split at h
  case isTrue hroot =>
    rw [if_pos hroot] at hnew
    cases hnew
  case isFalse hroot =>
    rw [if_neg hroot] at hnew
    rw [extend, lookup_append, hnew, Option.none_or] at h
    exact mem_of_lookup h

/-- What is made at the place of a path is found by the path, on each tree with more entries. -/
theorem resolve_of_vacancy (h : t.vacancy path false = .ok p) (e : Entry)
    (es : List (Place × Entry)) : (t.extend ((p, e) :: es)).resolve path = .ok p := by
  obtain ⟨hcheck, hslash, names, last, q, hnames, hdot, hdots, hwalk, hdir, hchild, hvacant⟩ :=
    vacancy_spec h
  cases child_eq hchild
  have hfollow : (t.extend ((last :: q, e) :: es)).follow q last = .ok (last :: q) := by
    rw [follow, isDirAt_extend hdir, Bool.not_true, if_neg Bool.false_ne_true, if_neg hdot,
      if_neg hdots, hchild]
    exact if_pos (by rw [get?_extend_cons hvacant]; rfl)
  have hall : (t.extend ((last :: q, e) :: es)).walk (t.start path) (Path.names path) =
      .ok (last :: q) := by
    rw [hnames, walk_append]
    exact ⟨q, walk_extend hwalk, by rw [walk_singleton, hfollow]⟩
  have hstart : (t.extend ((last :: q, e) :: es)).start path = t.start path := rfl
  rw [resolve, hcheck, hstart, hall]
  simp only [hslash rfl, Bool.false_and, Bool.false_eq_true, if_false]

/-- A file is at the place of a path, and the path leads there. -/
structure Holds (t : Tree) (path : String) (mode : Nat) (bytes : List UInt8) : Prop where
  entry : t.get? (t.placeOf path) = some (.file mode bytes)
  resolved : t.resolve path = .ok (t.placeOf path)

namespace Holds

variable {mode : Nat} {bytes : List UInt8}

theorem fileText_eq {text : String} (h : t.Holds path mode (Text.bytes text)) :
    t.fileText path = .ok text := by
  simp only [fileText, h.resolved, h.entry, Text.ofBytes?_bytes]

theorem fileMode?_eq (h : t.Holds path mode bytes) : t.fileMode? path = some mode := by
  simp only [fileMode?, h.resolved, h.entry]

end Holds

/-- A file that was made is there, whatever comes later. -/
theorem holds_of_createFile {mode : Nat} {bytes : List UInt8}
    (h : t.createFile path mode bytes = .ok u) (es : List (Place × Entry)) :
    (u.extend es).Holds path (t.masked mode) bytes := by
  unfold createFile at h
  split at h <;> cases h
  case h_2 p hvacancy =>
    obtain ⟨rfl, hvacant⟩ := vacancy_eq hvacancy
    rw [show t.add _ _ = t.extend [_] from rfl, extend_extend, List.singleton_append]
    exact ⟨get?_extend_cons hvacant _ es, resolve_of_vacancy hvacancy _ es⟩

/-! ## What lies below a place -/

theorem contents_extend (t : Tree) (es : List (Place × Entry)) (p : Place) :
    (t.extend es).contents p = t.contents p ++ listing p es := by
  rw [contents, extend, listing, List.filter_append, List.map_append]
  rfl

@[simp] theorem listing_nil (p : Place) : listing p [] = [] := rfl

theorem listing_cons_self (p : Place) (e : Entry) (es : List (Place × Entry)) :
    listing p ((p, e) :: es) = listing p es := by
  simp [listing]

/-- A file in a directory lies below it with its name. -/
theorem listing_cons_file (p : Place) (name : String) (mode : Nat) (bytes : List UInt8)
    (es : List (Place × Entry)) :
    listing p ((name :: p, .file mode bytes) :: es) =
      (name, .file mode bytes) :: listing p es := by
  have hname : "/".intercalate [name] = name := rfl
  have hbelow : (p.isSuffixOf (name :: p) && (name :: p) != p) = true := by
    simp
  simp [listing, hbelow, hname, Entry.isDir]

/-- What is not in a directory below a place does not lie below it. -/
theorem listing_cons_of_not_suffix (h : ¬ p <:+ q) (name : String) (e : Entry)
    (es : List (Place × Entry)) : listing p ((name :: q, e) :: es) = listing p es := by
  have houtside : (p.isSuffixOf (name :: q) && (name :: q) != p) = false := by
    rw [Bool.and_eq_false_iff, Bool.eq_false_iff, bne_eq_false_iff_eq, ne_eq,
      List.isSuffixOf_iff_suffix, List.suffix_cons_iff]
    by_cases hp : p = name :: q
    · exact .inr hp.symm
    · exact .inl fun hor => hor.elim hp h
  simp only [listing, List.filter_cons, houtside, Bool.false_eq_true, if_false]

/-- Below a place of a closed tree where nothing is there is nothing. -/
theorem Closed.contents_eq_nil (h : t.Closed) (hvacant : t.get? p = none) :
    t.contents p = [] := by
  unfold contents listing
  rw [List.map_eq_nil_iff, List.filter_eq_nil_iff]
  rintro ⟨q, e⟩ hmem hbelow
  obtain ⟨names, rfl⟩ := List.isSuffixOf_iff_suffix.mp (Bool.and_eq_true_iff.mp hbelow).1
  have hthere : (t.get? (names ++ p)).isSome := by
    rw [get?]
    split
    case isTrue => rfl
    case isFalse => exact isSome_lookup_of_mem hmem
  have habove := h.isSome_of_append names hthere
  rw [hvacant] at habove
  cases habove

/-- A directory that was missing has no directory in it if only files were made behind it. -/
theorem Closed.eq_or_not_suffix {made : Entry} {files : List (Place × Entry)} (ht : t.Closed)
    (hu : (t.extend ((p, made) :: files)).Closed) (hvacant : t.get? p = none)
    (hfiles : ∀ x ∈ files, x.2.isDir = false) (hmem : (name :: q, e) ∈ files) :
    q = p ∨ ¬ p <:+ q := by
  by_cases hsuffix : p <:+ q
  case neg => exact .inr hsuffix
  case pos =>
    obtain ⟨names, rfl⟩ := hsuffix
    refine .inl ?_
    obtain ⟨f, hf, hdir⟩ := isDirAt_eq_true.mp
      (hu name _ (isSome_get?_extend_of_mem (List.mem_cons_of_mem _ hmem)))
    cases hold : t.get? (names ++ p) with
    | some e =>
      have habove := ht.isSome_of_append names (by rw [hold]; rfl)
      rw [hvacant] at habove
      cases habove
    | none =>
      obtain heq | hlater := List.mem_cons.mp (mem_of_get?_extend hf hold)
      · exact congrArg Prod.fst heq
      · rw [hfiles _ hlater] at hdir
        cases hdir

end OperatorKit.Disk.Tree
