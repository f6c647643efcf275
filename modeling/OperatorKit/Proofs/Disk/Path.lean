import OperatorKit.Disk.Path
import OperatorKit.Proofs.Text.Split

/-!
# The directories above a path

The paths of the directories that a path is in are shorter than it, begin where it
begins, and have the first of its names.
-/

namespace OperatorKit.Disk.Path

/-! ## Names -/

/-- The names in a row of characters. -/
def namesIn (cs : List Char) : List (List Char) :=
  (Text.splitBy (· == '/') cs).filter (!·.isEmpty)

theorem names_eq_map (p : String) : names p = (namesIn p.toList).map String.ofList := rfl

theorem namesIn_append_slash (cs cs' : List Char) :
    namesIn (cs ++ '/' :: cs') = namesIn cs ++ namesIn cs' := by
  rw [namesIn, Text.splitBy_append_cons (p := (· == '/')) (beq_self_eq_true _),
    List.filter_append, namesIn, namesIn]

theorem namesIn_of_name {cs : List Char} (hslash : '/' ∉ cs) (hne : cs ≠ []) :
    namesIn cs = [cs] := by
  have hsplit : Text.splitBy (· == '/') cs = [cs] := by
    apply Text.splitBy_of_forall
    intro c hc
    apply beq_eq_false_iff_ne.mpr
    rintro rfl
    exact hslash hc
  rw [namesIn, hsplit]
  simp [hne]

theorem namesIn_trimEnd (r : List Char) :
    namesIn (trimEnd r).reverse <+: namesIn r.reverse := by
  -- What is trimmed away stands behind a slash, so the names before it stay whole.
  fun_induction trimEnd r with
  | case1 r ih =>
    rw [List.reverse_cons, namesIn_append_slash]
    exact ih.trans (List.prefix_append _ _)
  | case2 r ih =>
    rw [List.reverse_cons, List.reverse_cons, List.append_assoc, List.singleton_append,
      namesIn_append_slash]
    exact ih.trans (List.prefix_append _ _)
  | case3 r => exact List.prefix_rfl

/-- What is left when a name is dropped begins with a slash. -/
theorem dropWhile_cases (r : List Char) :
    r.dropWhile (· != '/') = [] ∨ ∃ rest, r.dropWhile (· != '/') = '/' :: rest := by
  cases hrest : r.dropWhile (· != '/') with
  | nil => exact .inl rfl
  | cons c rest =>
    have hne : r.dropWhile (· != '/') ≠ [] := hrest ▸ List.cons_ne_nil c rest
    have hhead := List.head_dropWhile_not (· != '/') hne
    have hc : c = '/' := by simpa [hrest] using hhead
    exact .inr ⟨rest, by rw [hc]⟩

theorem namesIn_cutLast (r : List Char) :
    namesIn (cutLast r).reverse <+: namesIn r.reverse := by
  refine (namesIn_trimEnd _).trans ?_
  obtain ⟨last, hsplit⟩ : ∃ last, r = last ++ r.dropWhile (· != '/') :=
    ⟨_, (List.takeWhile_append_dropWhile).symm⟩
  obtain hnil | ⟨rest, hrest⟩ := dropWhile_cases r
  · rw [hnil]
    exact List.nil_prefix
  · -- What was dropped stands behind a slash.
    rw [hrest] at hsplit ⊢
    rw [hsplit, List.reverse_append, List.reverse_cons, List.append_assoc,
      List.singleton_append, namesIn_append_slash, namesIn_append_slash]
    exact List.prefix_append_right_inj _ |>.mpr List.nil_prefix

/-! ## Ends of reversed paths -/

theorem trimEnd_suffix (r : List Char) : trimEnd r <:+ r := by
  fun_induction trimEnd r with
  | case1 r ih => exact ih.trans (List.suffix_cons _ _)
  | case2 r ih => exact ih.trans ((List.suffix_cons _ _).trans (List.suffix_cons _ _))
  | case3 r => exact List.suffix_rfl

theorem cutLast_suffix (r : List Char) : cutLast r <:+ r :=
  (trimEnd_suffix _).trans (List.dropWhile_suffix _)

/-! ## Paths above -/

/-- A path is shorter than another, begins where it begins, and has the first of its names. -/
structure Above (q p : String) : Prop where
  length_lt : q.toList.length < p.toList.length
  isAbsolute_eq : isAbsolute q = isAbsolute p
  names_prefix : names q <+: names p

theorem Above.trans {o p q : String} (h : Above q p) (h' : Above p o) : Above q o :=
  ⟨Nat.lt_trans h.length_lt h'.length_lt, h.isAbsolute_eq.trans h'.isAbsolute_eq,
    h.names_prefix.trans h'.names_prefix⟩

theorem Above.ne {p q : String} (h : Above q p) : q ≠ p := by
  rintro rfl
  exact Nat.lt_irrefl _ h.length_lt

theorem names_ofReversed (absolute : Bool) (r : List Char) :
    names (ofReversed absolute r) = (namesIn r.reverse).map String.ofList := by
  cases r with
  | nil => cases absolute <;> rfl
  | cons c r => rw [ofReversed, names_eq_map, List.isEmpty_cons, if_neg Bool.false_ne_true,
      String.toList_ofList]

theorem isAbsolute_eq_of_prefix {p : String} {c : Char} {cs : List Char}
    (h : c :: cs <+: p.toList) : isAbsolute (String.ofList (c :: cs)) = isAbsolute p := by
  obtain ⟨rest, hrest⟩ := h
  rw [isAbsolute, isAbsolute, String.toList_ofList, ← hrest, List.cons_append, List.head?_cons,
    List.head?_cons]

theorem length_of_isAbsolute {p : String} (h : isAbsolute p = true)
    (htrim : trimEnd p.toList.reverse ≠ []) : 1 < p.toList.length := by
  rw [isAbsolute, beq_iff_eq, List.head?_eq_some_iff] at h
  obtain ⟨rest, hrest⟩ := h
  rw [hrest] at htrim ⊢
  -- The root alone is trimmed away, so an absolute path has more than its slash.
  have hne : rest ≠ [] := by
    rintro rfl
    exact htrim rfl
  have hpos := List.length_pos_iff.mpr hne
  rw [List.length_cons]
  omega

theorem above_ofReversed {p : String} {r : List Char}
    (hlength : r.length < (trimEnd p.toList.reverse).length) (hsuffix : r <:+ p.toList.reverse)
    (hnames : namesIn r.reverse <+: namesIn p.toList) (hne : r ≠ [] ∨ isAbsolute p = true) :
    Above (ofReversed (isAbsolute p) r) p := by
  have htrim : trimEnd p.toList.reverse ≠ [] := by
    intro hempty
    rw [hempty] at hlength
    exact Nat.not_lt_zero _ hlength
  have hnames' : names (ofReversed (isAbsolute p) r) <+: names p := by
    rw [names_ofReversed, names_eq_map]
    exact hnames.map _
  cases hr : r with
  | nil =>
    -- Nothing is left of an absolute path only, and the root is above it.
    have habsolute : isAbsolute p = true := hne.resolve_left (absurd hr)
    rw [hr, habsolute] at hnames'
    rw [habsolute]
    exact ⟨length_of_isAbsolute habsolute htrim, habsolute.symm, hnames'⟩
  | cons c rest =>
    have hof : ofReversed (isAbsolute p) r = String.ofList r.reverse := by
      rw [hr, ofReversed, List.isEmpty_cons, if_neg Bool.false_ne_true]
    rw [hof] at hnames'
    rw [← hr, hof]
    have hprefix : r.reverse <+: p.toList := by
      have h := List.reverse_prefix.mpr hsuffix
      rwa [List.reverse_reverse] at h
    refine ⟨?_, ?_, hnames'⟩
    · have hle := length_trimEnd_le p.toList.reverse
      rw [List.length_reverse] at hle
      rw [String.toList_ofList, List.length_reverse]
      exact Nat.lt_of_lt_of_le hlength hle
    · cases hreverse : r.reverse with
      | nil =>
        rw [List.reverse_eq_nil_iff, hr] at hreverse
        exact absurd hreverse (List.cons_ne_nil _ _)
      | cons d ds => exact isAbsolute_eq_of_prefix (hreverse ▸ hprefix)

/-! ## Ancestors -/

theorem mem_chain {absolute : Bool} {r : List Char} {q : String} (h : q ∈ chain absolute r) :
    ∃ r', r' <:+ r ∧ namesIn r'.reverse <+: namesIn r.reverse ∧
      (r' ≠ [] ∨ absolute = true) ∧ q = ofReversed absolute r' := by
  -- Along the chain more and more of the last names are cut off.
  fun_induction chain absolute r with
  | case1 habsolute =>
    rw [List.mem_singleton] at h
    exact ⟨[], List.suffix_rfl, List.prefix_rfl, .inr habsolute, by rw [h, habsolute]; rfl⟩
  | case2 => exact absurd h List.not_mem_nil
  | case3 r hr ih =>
    obtain rfl | h := List.mem_cons.mp h
    · exact ⟨r, List.suffix_rfl, List.prefix_rfl, .inl hr, rfl⟩
    · obtain ⟨r', hsuffix, hnames, hne, hq⟩ := ih h
      exact ⟨r', hsuffix.trans (cutLast_suffix r), hnames.trans (namesIn_cutLast r), hne, hq⟩

theorem above_of_suffix_cutLast {p : String} {r : List Char}
    (htrim : trimEnd p.toList.reverse ≠ [])
    (hsuffix : r <:+ cutLast (trimEnd p.toList.reverse))
    (hnames : namesIn r.reverse <+: namesIn (cutLast (trimEnd p.toList.reverse)).reverse)
    (hne : r ≠ [] ∨ isAbsolute p = true) : Above (ofReversed (isAbsolute p) r) p := by
  refine above_ofReversed ?_ ?_ ?_ hne
  · exact Nat.lt_of_le_of_lt hsuffix.length_le (length_cutLast_lt htrim)
  · exact hsuffix.trans ((cutLast_suffix _).trans (trimEnd_suffix _))
  · have htrimmed := namesIn_trimEnd p.toList.reverse
    rw [List.reverse_reverse] at htrimmed
    exact hnames.trans ((namesIn_cutLast _).trans htrimmed)

theorem above_of_mem_ancestors {p q : String} (h : q ∈ ancestors p) : Above q p := by
  by_cases htrim : trimEnd p.toList.reverse = []
  · rw [ancestors, htrim, List.isEmpty_nil, if_pos rfl] at h
    exact absurd h List.not_mem_nil
  · rw [ancestors, List.isEmpty_eq_false_iff.mpr htrim, if_neg Bool.false_ne_true] at h
    obtain ⟨r, hsuffix, hnames, hne, rfl⟩ := mem_chain h
    exact above_of_suffix_cutLast htrim hsuffix hnames hne

theorem above_of_parent? {p q : String} (h : parent? p = some q) (hq : q.toList ≠ []) :
    Above q p := by
  by_cases htrim : trimEnd p.toList.reverse = []
  · rw [parent?, htrim, List.isEmpty_nil, if_pos rfl] at h
    exact absurd h (Option.some_ne_none _).symm
  · rw [parent?, List.isEmpty_eq_false_iff.mpr htrim, if_neg Bool.false_ne_true,
      Option.some_inj] at h
    subst h
    refine above_of_suffix_cutLast htrim List.suffix_rfl List.prefix_rfl ?_
    -- Of a relative path something has to be left, as the empty path is above none.
    by_cases hcut : cutLast (trimEnd p.toList.reverse) = []
    · rw [hcut] at hq
      cases habsolute : isAbsolute p with
      | true => exact .inr rfl
      | false =>
        rw [habsolute] at hq
        exact absurd rfl hq
    · exact .inl hcut

/-- The paths that lead to the directory of a path, without the empty one. -/
def above (p : String) : List String :=
  match parent? p with
  | none        => []
  | some parent => if parent.toList.isEmpty then [] else parent :: ancestors parent

theorem above_of_mem {p q : String} (h : q ∈ above p) : Above q p := by
  unfold above at h
  cases hparent : parent? p with
  | none =>
    rw [hparent] at h
    exact absurd h List.not_mem_nil
  | some parent =>
    simp only [hparent] at h
    by_cases hempty : parent.toList.isEmpty = true
    · rw [if_pos hempty] at h
      exact absurd h List.not_mem_nil
    · rw [if_neg hempty] at h
      have hparent' : Above parent p :=
        above_of_parent? hparent fun hnil => hempty (List.isEmpty_iff.mpr hnil)
      obtain rfl | h := List.mem_cons.mp h
      · exact hparent'
      · exact (above_of_mem_ancestors h).trans hparent'

/-! ## Steps

A name leads one step on, unless it is a `.` and stays where it is. The paths above a path
have the first of its steps and never the last one. -/

/-- The names of a path that lead on. -/
def steps (p : String) : List String := (names p).filter (· != ".")

/-- The names in a row of characters that lead on. -/
def stepsIn (cs : List Char) : List (List Char) := (namesIn cs).filter (· != ['.'])

theorem filter_map_namesIn (cs : List Char) :
    ((namesIn cs).map String.ofList).filter (· != ".") = (stepsIn cs).map String.ofList := by
  rw [List.filter_map, stepsIn]
  congr 2
  funext cs
  have hdot : String.ofList cs = "." ↔ cs = ['.'] := String.ofList_inj
  exact Bool.eq_iff_iff.mpr (by simp [hdot])

theorem steps_ofReversed (absolute : Bool) (r : List Char) :
    steps (ofReversed absolute r) = (stepsIn r.reverse).map String.ofList := by
  rw [steps, names_ofReversed, filter_map_namesIn]

theorem stepsIn_append_slash (cs cs' : List Char) :
    stepsIn (cs ++ '/' :: cs') = stepsIn cs ++ stepsIn cs' := by
  rw [stepsIn, namesIn_append_slash, List.filter_append, stepsIn, stepsIn]

/-- What is trimmed away leads nowhere. -/
theorem stepsIn_trimEnd (r : List Char) : stepsIn (trimEnd r).reverse = stepsIn r.reverse := by
  fun_induction trimEnd r with
  | case1 r ih =>
    rw [List.reverse_cons, stepsIn_append_slash, ih]
    exact (List.append_nil _).symm
  | case2 r ih =>
    rw [List.reverse_cons, List.reverse_cons, List.append_assoc, List.singleton_append,
      stepsIn_append_slash, ih]
    exact (List.append_nil _).symm
  | case3 r => rfl

/-- A trimmed path does not end in a slash, nor in a name that is a `.` behind one. -/
theorem trimEnd_ne (r cs : List Char) : trimEnd r ≠ '/' :: cs ∧ trimEnd r ≠ '.' :: '/' :: cs := by
  fun_induction trimEnd r with
  | case1 r ih => exact ih
  | case2 r ih => exact ih
  | case3 r hslash hdot => exact ⟨fun h => hslash cs h, fun h => hdot cs h⟩

theorem stepsIn_of_name {cs : List Char} (hslash : '/' ∉ cs) (hne : cs ≠ [])
    (hdot : cs ≠ ['.']) : stepsIn cs = [cs] := by
  rw [stepsIn, namesIn_of_name hslash hne]
  simp [hdot]

theorem dropWhile_name {name : List Char} (hname : '/' ∉ name) (rest : List Char) :
    (name ++ rest).dropWhile (· != '/') = rest.dropWhile (· != '/') := by
  apply List.dropWhile_append_of_pos
  intro c hc
  apply bne_iff_ne.mpr
  rintro rfl
  exact hname hc

theorem cutLast_append {last : List Char} (hlast : '/' ∉ last) (rest : List Char) :
    cutLast (last ++ '/' :: rest) = trimEnd rest := by
  rw [cutLast, dropWhile_name hlast]
  rfl

theorem cutLast_name {name : List Char} (hname : '/' ∉ name) : cutLast name = [] := by
  have hdrop := dropWhile_name hname []
  rw [List.append_nil] at hdrop
  rw [cutLast, hdrop]
  rfl

/-- Cutting the last name off a trimmed path takes the last step away. -/
theorem stepsIn_cutLast {p r : List Char} (htrim : trimEnd p = r) (hslash : '/' ∈ r) :
    ∃ n, stepsIn r.reverse = stepsIn (cutLast r).reverse ++ [n] := by
  obtain ⟨last, rest, rfl, hlast⟩ := List.eq_append_cons_of_mem hslash
  -- A trimmed path neither ends in a slash nor in a name that is a dot.
  obtain ⟨hends, hdot⟩ := trimEnd_ne p rest
  rw [htrim] at hends hdot
  have hname : stepsIn last.reverse = [last.reverse] := by
    apply stepsIn_of_name
    · intro hmem
      exact hlast (List.mem_reverse.mp hmem)
    · intro hempty
      rw [List.reverse_eq_nil_iff.mp hempty] at hends
      exact hends rfl
    · intro honly
      rw [List.reverse_eq_iff.mp honly] at hdot
      exact hdot rfl
  refine ⟨last.reverse, ?_⟩
  rw [cutLast_append hlast, stepsIn_trimEnd, List.reverse_append, List.reverse_cons,
    List.append_assoc, List.singleton_append, stepsIn_append_slash, hname]

theorem slash_mem_of_isAbsolute {p : String} {r : List Char} (h : isAbsolute p = true)
    (hsuffix : r <:+ p.toList.reverse) (hne : r ≠ []) : '/' ∈ r := by
  rw [isAbsolute, beq_iff_eq, List.head?_eq_some_iff] at h
  obtain ⟨rest, hrest⟩ := h
  have hprefix := List.reverse_prefix.mpr hsuffix
  rw [List.reverse_reverse, hrest] at hprefix
  cases hreverse : r.reverse with
  | nil => exact absurd (List.reverse_eq_nil_iff.mp hreverse) hne
  | cons c cs =>
    rw [hreverse, List.cons_prefix_cons] at hprefix
    rw [← List.mem_reverse, hreverse, hprefix.1]
    exact List.mem_cons_self

/-- The directory of a path has all of its steps but the last. -/
theorem steps_of_parent? {p q : String} (h : parent? p = some q) (hq : q.toList ≠ []) :
    ∃ n, steps p = steps q ++ [n] := by
  by_cases htrim : trimEnd p.toList.reverse = []
  · rw [parent?, htrim, List.isEmpty_nil, if_pos rfl] at h
    exact absurd h (Option.some_ne_none _).symm
  · rw [parent?, List.isEmpty_eq_false_iff.mpr htrim, if_neg Bool.false_ne_true,
      Option.some_inj] at h
    subst h
    have hslash : '/' ∈ trimEnd p.toList.reverse := by
      apply Classical.byContradiction
      intro hnone
      -- Without a slash the path is relative and a single name, and its directory has no text.
      rw [cutLast_name hnone] at hq
      cases habsolute : isAbsolute p with
      | true => exact hnone (slash_mem_of_isAbsolute habsolute (trimEnd_suffix _) htrim)
      | false =>
        rw [habsolute] at hq
        exact hq rfl
    obtain ⟨n, hn⟩ := stepsIn_cutLast rfl hslash
    rw [stepsIn_trimEnd, List.reverse_reverse] at hn
    refine ⟨String.ofList n, ?_⟩
    rw [steps_ofReversed, steps, names_eq_map, filter_map_namesIn, hn, List.map_append]
    rfl

/-- What is above a path has the first of its steps, and never the last. -/
theorem steps_of_mem_above {p q : String} (h : q ∈ above p) :
    ∃ front n, steps p = front ++ [n] ∧ steps q <+: front := by
  unfold above at h
  cases hparent : parent? p with
  | none =>
    rw [hparent] at h
    exact absurd h List.not_mem_nil
  | some parent =>
    simp only [hparent] at h
    by_cases hempty : parent.toList.isEmpty = true
    · rw [if_pos hempty] at h
      exact absurd h List.not_mem_nil
    · rw [if_neg hempty] at h
      obtain ⟨n, hn⟩ := steps_of_parent? hparent fun hnil => hempty (List.isEmpty_iff.mpr hnil)
      refine ⟨steps parent, n, hn, ?_⟩
      obtain rfl | h := List.mem_cons.mp h
      · exact List.prefix_rfl
      · have habove := above_of_mem_ancestors h
        exact List.IsPrefix.filter _ habove.names_prefix

end OperatorKit.Disk.Path
