import OperatorKit.Proofs.Disk.Path
import OperatorKit.Proofs.Disk.Tree

/-!
# Paths behind a directory

A path that is joined to a directory leads on from there, unless it is absolute. The last of
its names is what stands behind its last slash. So paths that differ behind the last slash only
lie in one folder, which need not be the directory that they are joined to.
-/

namespace OperatorKit.Disk

namespace Path

/-! ## The last slash -/

/-- A path up to its last slash. -/
def front (p : String) : String := String.ofList (p.toList.reverse.dropWhile (· != '/')).reverse

/-- What stands behind the last slash of a path. -/
def label (p : String) : String := String.ofList (p.toList.reverse.takeWhile (· != '/')).reverse

theorem toList_front_append_label (p : String) :
    (front p).toList ++ (label p).toList = p.toList := by
  rw [front, label, String.toList_ofList, String.toList_ofList, ← List.reverse_append,
    List.takeWhile_append_dropWhile, List.reverse_reverse]

theorem slash_not_mem_label (p : String) : '/' ∉ (label p).toList := by
  intro hmem
  rw [label, String.toList_ofList, List.mem_reverse] at hmem
  have hne := List.all_eq_true.mp List.all_takeWhile _ hmem
  rw [bne_self_eq_false] at hne
  cases hne

theorem front_cases (p : String) :
    (front p).toList = [] ∨ ∃ cs, (front p).toList = cs ++ ['/'] := by
  rw [front, String.toList_ofList]
  obtain hnil | ⟨rest, hrest⟩ := dropWhile_cases p.toList.reverse
  · exact .inl (by rw [hnil, List.reverse_nil])
  · exact .inr ⟨rest.reverse, by rw [hrest, List.reverse_cons]⟩

/-- A path without a slash is its own label. -/
theorem front_of_name {p : String} (h : '/' ∉ p.toList) : front p = "" := by
  have hname : '/' ∉ p.toList.reverse := fun hmem => h (List.mem_reverse.mp hmem)
  have hdrop := dropWhile_name hname []
  rw [List.append_nil] at hdrop
  rw [front, hdrop]
  rfl

theorem label_of_name {p : String} (h : '/' ∉ p.toList) : label p = p := by
  have hparts := toList_front_append_label p
  rw [front_of_name h, String.toList_empty, List.nil_append] at hparts
  exact String.toList_inj.mp hparts

theorem isAbsolute_append (p : String) {suffix : String} (hslash : '/' ∉ suffix.toList) :
    isAbsolute (p ++ suffix) = isAbsolute p := by
  rw [isAbsolute, isAbsolute, String.toList_append]
  cases hp : p.toList with
  | cons c cs => rfl
  | nil =>
    cases hsuffix : suffix.toList with
    | nil => rfl
    | cons c cs =>
      have hc : c ≠ '/' := by
        rintro rfl
        exact hslash (hsuffix ▸ List.mem_cons_self)
      simpa using hc

/-! ## Names -/

/-- What is put behind a path goes to its last name. -/
theorem names_append (p : String) {suffix : String} (hslash : '/' ∉ suffix.toList)
    (hne : suffix.toList ≠ []) :
    names (p ++ suffix) = names (front p) ++ [label p ++ suffix] := by
  have hname : namesIn ((label p).toList ++ suffix.toList) = [(label p ++ suffix).toList] := by
    rw [String.toList_append]
    refine namesIn_of_name ?_ (List.append_ne_nil_of_right_ne_nil _ hne)
    exact fun hmem => (List.mem_append.mp hmem).elim (slash_not_mem_label p) hslash
  rw [names_eq_map, names_eq_map, String.toList_append, ← toList_front_append_label p,
    List.append_assoc]
  obtain hnil | ⟨cs, hcs⟩ := front_cases p
  · rw [hnil, List.nil_append, hname, List.map_singleton, String.ofList_toList]
    rfl
  · rw [hcs, List.append_assoc, List.singleton_append, namesIn_append_slash, namesIn_append_slash,
      hname, List.map_append, List.map_append, List.map_singleton, String.ofList_toList,
      List.append_assoc]
    rfl

end Path

/-! ## Places behind a directory -/

namespace Tree

variable {suffix : String}

theorem placeOf_append (t : Tree) {dir rest name : String} (hne : dir.toList ≠ [])
    (hnames : Path.names (dir ++ rest) = Path.names dir ++ Path.names name) :
    t.placeOf (dir ++ rest) = Place.along (t.placeOf dir) (Path.names name) := by
  have habsolute : Path.isAbsolute (dir ++ rest) = Path.isAbsolute dir := by
    obtain ⟨c, cs, hcs⟩ := List.exists_cons_of_ne_nil hne
    rw [Path.isAbsolute, Path.isAbsolute, String.toList_append, hcs]
    rfl
  rw [placeOf, placeOf, hnames, along_append, start, start, habsolute]

/-- A path behind a directory leads on from its place, unless it is absolute. -/
theorem placeOf_join (t : Tree) (dir name : String) :
    t.placeOf (Path.join dir name) =
      Place.along (if Path.isAbsolute name then [] else t.placeOf dir) (Path.names name) := by
  unfold Path.join
  split
  case isTrue habsolute => rw [placeOf, start, if_pos habsolute]
  case isFalse hrelative =>
    split
    case isTrue hempty =>
      have hdir : dir = "" := String.toList_eq_nil_iff.mp (List.isEmpty_iff.mp hempty)
      rw [hdir, placeOf, placeOf, start, if_neg hrelative]
      rfl
    case isFalse hne =>
      have hne : dir.toList ≠ [] := fun hnil => hne (List.isEmpty_iff.mpr hnil)
      split
      case isTrue hslash =>
        obtain ⟨cs, hcs⟩ := List.getLast?_eq_some_iff.mp (beq_iff_eq.mp hslash)
        refine t.placeOf_append hne ?_
        rw [Path.names_eq_map, Path.names_eq_map, Path.names_eq_map, String.toList_append, hcs,
          List.append_assoc, List.singleton_append, Path.namesIn_append_slash,
          Path.namesIn_append_slash, List.map_append, List.map_append, List.append_assoc]
        rfl
      case isFalse =>
        rw [String.append_assoc]
        refine t.placeOf_append hne ?_
        rw [Path.names_eq_map, Path.names_eq_map, Path.names_eq_map, String.toList_append,
          String.toList_append, ← List.map_append, ← Path.namesIn_append_slash]
        rfl

/-- The place that a name up to its last slash leads to from a directory. -/
def folderOf (t : Tree) (dir name : String) : Place :=
  Place.along (if Path.isAbsolute name then [] else t.placeOf dir) (Path.names (Path.front name))

/-- A name without a slash does not lead out of a directory. -/
theorem folderOf_of_name (t : Tree) (dir : String) {name : String} (h : '/' ∉ name.toList) :
    t.folderOf dir name = t.placeOf dir := by
  have hrelative : Path.isAbsolute name = false := by
    apply beq_eq_false_iff_ne.mpr
    intro hhead
    exact h (List.mem_of_mem_head? hhead)
  rw [folderOf, Path.front_of_name h, hrelative]
  rfl

/-- Names that differ behind their last slash only lead into one folder. -/
theorem placeOf_join_append (t : Tree) (dir name : String) (hslash : '/' ∉ suffix.toList)
    (hlong : 2 < suffix.toList.length) :
    t.placeOf (Path.join dir (name ++ suffix)) =
      (Path.label name ++ suffix) :: t.folderOf dir name := by
  have hlength : 2 < (Path.label name ++ suffix).toList.length := by
    rw [String.toList_append, List.length_append]
    exact Nat.lt_add_left _ hlong
  -- The last name is too long to be a `.` or `..`.
  have hdot : Path.label name ++ suffix ≠ "." := by
    intro heq
    rw [heq] at hlength
    exact absurd hlength (by decide)
  have hdots : Path.label name ++ suffix ≠ ".." := by
    intro heq
    rw [heq] at hlength
    exact absurd hlength (by decide)
  rw [placeOf_join, Path.isAbsolute_append name hslash,
    Path.names_append name hslash (List.ne_nil_of_length_pos (by omega)), along_append]
  simp only [Place.along, if_neg hdot, if_neg hdots, folderOf]

end Tree
end OperatorKit.Disk
