import OperatorKit.Proofs.Disk.Fresh
import OperatorKit.Proofs.Disk.Join
import OperatorKit.Proofs.Key.Refused

/-!
# Where the files of a key go

The files of a key lie in one folder, the one that the name of the key leads to from the
directory that is issued to. That is the directory itself if the name has no slash. With a
slash it may be any directory that is there, and then the new directory stays empty.
-/

namespace OperatorKit.Key

open Disk OperatorKit.Key.Action OperatorKit.Key.Call

variable {t u : Tree} {cs later : List Call} {dir : String} {spec : KeySpec}
  {v : Except KeyProblem IssueOutcome}

/-! ## Calls one after the other -/

theorem Call.LeaveAll.of_append {cs' : List Call} (h : LeaveAll t (cs ++ cs') u) :
    ∃ w, LeaveAll t cs w ∧ LeaveAll w cs' u := by
  induction cs generalizing t with
  | nil => exact ⟨t, .nil t, h⟩
  | cons c cs ih =>
    cases h with
    | cons h hrest =>
      obtain ⟨w, hw, hu⟩ := ih hrest
      exact ⟨w, .cons h hw, hu⟩

/-! ## Places -/

/-- What is put behind the name of a key to name its files. -/
def KeyFiles.suffixes : List String := ["_private.json", "_public.json", ".pem"]

/-- The places of the files of a key, all in one folder. -/
def KeyFiles.places (t : Tree) (dir name : String) : List Place :=
  suffixes.map fun suffix => (Path.label name ++ suffix) :: t.folderOf dir name

namespace KeyFiles

/-- The paths of the files of a key. -/
def paths (files : KeyFiles) : List String :=
  [files.privateJwk, files.publicJwk, files.privatePem]

theorem map_placeOf_paths (t : Tree) (dir name : String) :
    (KeyFiles.of dir name).paths.map t.placeOf = places t dir name := by
  simp only [paths, KeyFiles.of, List.map_cons, List.map_nil]
  rw [t.placeOf_join_append dir name (by decide) (by decide),
    t.placeOf_join_append dir name (by decide) (by decide),
    t.placeOf_join_append dir name (by decide) (by decide)]
  rfl

theorem map_fst_entries (t : Tree) (dir name : String) (texts : KeyTexts) :
    ((KeyFiles.of dir name).entries t texts).map (·.1) = places t dir name :=
  map_placeOf_paths t dir name

theorem entries_of (t : Tree) (dir name : String) (texts : KeyTexts) :
    (KeyFiles.of dir name).entries t texts =
      [((Path.label name ++ "_private.json") :: t.folderOf dir name,
          .file (t.masked privateMode) (Text.bytes texts.privateJwk)),
        ((Path.label name ++ "_public.json") :: t.folderOf dir name,
          .file (t.masked publicMode) (Text.bytes texts.publicJwk)),
        ((Path.label name ++ ".pem") :: t.folderOf dir name,
          .file (t.masked privateMode) (Text.bytes texts.privatePem))] := by
  have hplaces := map_placeOf_paths t dir name
  simp only [paths, places, suffixes, List.map_cons, List.map_nil, List.cons.injEq] at hplaces
  obtain ⟨hprivate, hpublic, hpem, -⟩ := hplaces
  rw [entries, hprivate, hpublic, hpem]

theorem nodup_places (t : Tree) (dir name : String) : (places t dir name).Nodup := by
  have hsuffixes : suffixes.Nodup := by decide
  refine List.Pairwise.map _ ?_ hsuffixes
  intro s s' hne heq
  exact hne ((String.append_right_inj _).mp (List.cons.inj heq).1)

theorem isDir_of_mem_entries {files : KeyFiles} {texts : KeyTexts} {x : Place × Entry}
    (h : x ∈ files.entries t texts) : x.2.isDir = false := by
  simp only [entries, List.mem_cons, List.not_mem_nil, or_false] at h
  obtain rfl | rfl | rfl := h <;> rfl

/-- The files of a key lie below their folder with their names, and not below a directory that
the folder is not in. -/
theorem map_fst_listing (t : Tree) (dir name : String) (texts : KeyTexts) {p : Place}
    (hfolder : t.folderOf dir name = p ∨ ¬ p <:+ t.folderOf dir name) :
    (Tree.listing p ((KeyFiles.of dir name).entries t texts)).map (·.1) =
      if t.folderOf dir name = p then suffixes.map (Path.label name ++ ·) else [] := by
  rw [entries_of]
  split
  case isTrue hsame =>
    rw [hsame, Tree.listing_cons_file, Tree.listing_cons_file, Tree.listing_cons_file]
    rfl
  case isFalse hother =>
    have houtside := hfolder.resolve_left hother
    rw [Tree.listing_cons_of_not_suffix houtside, Tree.listing_cons_of_not_suffix houtside,
      Tree.listing_cons_of_not_suffix houtside]
    rfl

end KeyFiles

/-- An issue that creates files makes one key and stores its three forms. -/
theorem fill_calls {files : KeyFiles} (h : (fill dir spec).Ends cs (.ok (.created files))) :
    files = .of dir spec.name ∧ ∃ line k texts, KeyTexts.of k spec = .ok texts ∧
      cs = .log line :: .makeKey spec.bits (.ok k) :: files.calls texts := by
  cases fills_of_ends h with
  | @stores line k texts _ r _ htexts hstore hv =>
    cases r with
    | error e => cases hv
    | ok _ =>
      cases hv
      exact ⟨rfl, line, k, texts, htexts, by rw [(storeAll_ends hstore).2.2 rfl]⟩

/-! ## What is stored -/

/-- Between two trees, an issue with the given result has added directories and files. The files
lie in one folder, each under its own name. If there are any, the directory was made by the
issue, and the folder is that directory or not below it. -/
structure Storage (dir : String) (spec : KeySpec) (t : Tree) (v : Except KeyProblem IssueOutcome)
    (u : Tree) (dirs files : List (Place × Entry)) : Prop where
  tree_eq : u = t.extend (dirs ++ files)
  only_dirs : ∀ x ∈ dirs, x.2 = t.newDir
  only_files : ∀ x ∈ files, x.2.isDir = false
  in_folder : files.map (·.1) <+: KeyFiles.places t dir spec.name
  made : files ≠ [] →
    t.get? (t.placeOf dir) = none ∧ u.get? (t.placeOf dir) = some t.newDir ∧
      (t.folderOf dir spec.name = t.placeOf dir ∨
        ¬ t.placeOf dir <:+ t.folderOf dir spec.name)
  created : ∀ stored, v = .ok (.created stored) →
    stored = .of dir spec.name ∧ files.map (·.1) = KeyFiles.places t dir spec.name ∧
      (u.contents (t.placeOf dir)).map (·.1) =
        if t.folderOf dir spec.name = t.placeOf dir then
          KeyFiles.suffixes.map (Path.label spec.name ++ ·)
        else []

/-- An issue whose calls behind those for the directories above add nothing. -/
theorem storage_nil {rest : List Call} (hdirs : OnlyAbove dir cs) (hrest : addedBy t rest = [])
    (hleave : LeaveAll t (cs ++ rest) u) (hv : ∀ stored, v ≠ .ok (.created stored)) :
    Storage dir spec t v u (addedBy t cs) [] where
  tree_eq := by rw [hleave.tree_eq.1, addedBy_append, hrest]
  only_dirs x hx := by
    obtain ⟨q, -, rfl⟩ := added_of_onlyAbove hdirs hx
    rfl
  only_files x hx := absurd hx List.not_mem_nil
  in_folder := List.nil_prefix
  made hne := absurd rfl hne
  created stored hstored := absurd hstored (hv stored)

/-- Where an issue makes its directory nothing was, and what it stores is new behind that. -/
theorem tree_of_passes {parents : List Call}
    (hleave : LeaveAll t (parents ++ .makeDir dir (.ok ()) :: later) u) (ht : t.Closed) :
    ∃ w, w = t.extend (addedBy t parents) ∧ w.Closed ∧ w.get? (t.placeOf dir) = none ∧
      u = w.extend ((t.placeOf dir, t.newDir) :: addedBy t later) ∧ u.Closed := by
  obtain ⟨w, hparents, hrest⟩ := hleave.of_append
  obtain ⟨hw, -⟩ := hparents.tree_eq
  have hplace : w.placeOf dir = t.placeOf dir := by rw [hw]; rfl
  have hnew : w.newDir = t.newDir := by rw [hw]; rfl
  have hadded : addedBy w later = addedBy t later := by rw [hw, addedBy_extend]
  cases hrest with
  | cons hmade hlater =>
    cases hmade with
    | madeDir hmade =>
      obtain ⟨rfl, hvacant⟩ := Tree.makeDir_eq hmade
      obtain ⟨hu, -⟩ := hlater.tree_eq
      rw [addedBy_extend, hadded, hplace, hnew, Tree.extend_extend, List.singleton_append] at hu
      rw [hplace] at hvacant
      exact ⟨w, hw, hparents.closed ht, hvacant, hu, hleave.closed ht⟩

/-- What is stored are the first of the three files. -/
theorem stored_of_fill (hfill : (fill dir spec).Ends later v) (t : Tree) :
    (∀ x ∈ addedBy t later, x.2.isDir = false) ∧
      (addedBy t later).map (·.1) <+: KeyFiles.places t dir spec.name := by
  obtain hnone | ⟨k, texts, -, hwritten⟩ := (fill_ends hfill).1
  · rw [hnone t]
    exact ⟨fun x hx => absurd hx List.not_mem_nil, List.nil_prefix⟩
  · refine ⟨(hwritten t).isDir_eq_false fun x hx => KeyFiles.isDir_of_mem_entries hx, ?_⟩
    rw [← KeyFiles.map_fst_entries t dir spec.name texts]
    exact (hwritten t).map_fst_isPrefix

/-- An issue that has made its directory stores its files behind that. -/
theorem storage_of_passes {parents : List Call} (hdirs : OnlyAbove dir parents)
    (hfill : (fill dir spec).Ends later v) (ht : t.Closed)
    (hleave : LeaveAll t (parents ++ .makeDir dir (.ok ()) :: later) u) :
    Storage dir spec t v u (addedBy t parents ++ [(t.placeOf dir, t.newDir)])
      (addedBy t later) := by
  obtain ⟨w, hw, hclosed, hvacant, hu, huclosed⟩ := tree_of_passes hleave ht
  obtain ⟨honly, hfolder⟩ := stored_of_fill hfill t
  have hbeside : addedBy t later ≠ [] → t.folderOf dir spec.name = t.placeOf dir ∨
      ¬ t.placeOf dir <:+ t.folderOf dir spec.name := by
    intro hne
    obtain ⟨⟨p, e⟩, hx⟩ := List.exists_mem_of_ne_nil _ hne
    obtain ⟨suffix, -, rfl⟩ := List.mem_map.mp (hfolder.mem (List.mem_map_of_mem hx))
    exact hclosed.eq_or_not_suffix (hu ▸ huclosed) hvacant honly hx
  refine ⟨?_, ?_, honly, hfolder, fun hne => ⟨?_, ?_, hbeside hne⟩, fun stored hstored => ?_⟩
  · rw [hu, hw, Tree.extend_extend, List.append_assoc, List.singleton_append]
  · intro x hx
    obtain hx | hx := List.mem_append.mp hx
    · obtain ⟨q, -, rfl⟩ := added_of_onlyAbove hdirs hx
      rfl
    · rw [List.mem_singleton.mp hx]
  · rw [hw] at hvacant
    exact Tree.get?_eq_none_of_extend hvacant
  · rw [hu]
    exact Tree.get?_extend_cons hvacant _ _
  · rw [hstored] at hfill
    obtain ⟨hstored, line, k, texts, htexts, hcalls⟩ := fill_calls hfill
    have hentries : addedBy t later = (KeyFiles.of dir spec.name).entries t texts := by
      rw [hcalls, hstored]
      rfl
    have hcontents : u.contents (t.placeOf dir) = Tree.listing (t.placeOf dir)
        ((KeyFiles.of dir spec.name).entries t texts) := by
      rw [hu, Tree.contents_extend, hclosed.contents_eq_nil hvacant, List.nil_append,
        Tree.listing_cons_self, hentries]
    refine ⟨hstored, by rw [hentries, KeyFiles.map_fst_entries], ?_⟩
    rw [hcontents]
    exact KeyFiles.map_fst_listing t dir spec.name texts
      (hbeside (hentries ▸ List.cons_ne_nil _ _))

theorem Issues.storage (h : Issues dir spec cs v) (ht : t.Closed) (hleave : LeaveAll t cs u) :
    ∃ dirs files, Storage dir spec t v u dirs files := by
  cases h with
  | stopped hdirs e =>
    rw [← List.append_nil cs] at hleave
    exact ⟨_, _, storage_nil hdirs rfl hleave fun _ => nofun⟩
  | alreadyExists hdirs line => exact ⟨_, _, storage_nil hdirs rfl hleave fun _ => nofun⟩
  | refused hdirs he => exact ⟨_, _, storage_nil hdirs rfl hleave fun _ => nofun⟩
  | passes hdirs hfill => exact ⟨_, _, storage_of_passes hdirs hfill ht hleave⟩

/-- The files of a key that are stored lie in one folder, each under its own name, whatever the
disk answers. If the name of the key has no slash, the folder is the directory that was made for
them, and in the end they are all that is in it. Else it may be another directory, and then the
one that was made stays empty. -/
theorem files_lie_in_folder (dir : String) (spec : KeySpec) (t : Tree) (ht : t.Closed) :
    (KeyFiles.places t dir spec.name).Nodup ∧
    ('/' ∉ spec.name.toList →
      t.folderOf dir spec.name = t.placeOf dir ∧ Path.label spec.name = spec.name) ∧
    (∀ keys, ∃ dirs files, Storage dir spec t ((issue dir spec).run keys t).value
      ((issue dir spec).run keys t).tree dirs files) ∧
    ∀ cs v u, (issue dir spec).Ends cs v → LeaveAll t cs u →
      ∃ dirs files, Storage dir spec t v u dirs files := by
  have hall : ∀ cs v u, (issue dir spec).Ends cs v → LeaveAll t cs u →
      ∃ dirs files, Storage dir spec t v u dirs files := by
    intro cs v u hends hleave
    exact (issues_of_ends hends).storage ht hleave
  refine ⟨KeyFiles.nodup_places t dir spec.name, fun hname => ?_, fun keys => ?_, hall⟩
  · exact ⟨t.folderOf_of_name dir hname, Path.label_of_name hname⟩
  · obtain ⟨hends, hleave⟩ := ends_calls keys (issue dir spec) t
    exact hall _ _ _ hends hleave

/-- A maker that always makes the same key. -/
def smallKeys (_ : Nat) : Except RsaProblem RsaKey := .ok smallKey

theorem files_lie_in_fresh_directory :
    ∃ r, (issue "fresh" ⟨"okta", 12, "RS256"⟩).run smallKeys workTree = r ∧
      r.value = .ok (.created (.of "fresh" "okta")) ∧ workTree.get? ["fresh", "work"] = none ∧
      (r.tree.contents ["fresh", "work"]).map (·.1) =
        ["okta_private.json", "okta_public.json", "okta.pem"] := by
  have hvalue : ((issue "fresh" ⟨"okta", 12, "RS256"⟩).run smallKeys workTree).value =
      .ok (.created (.of "fresh" "okta")) := eq_ok_of_toOption (by decide +kernel)
  obtain ⟨-, -, hruns, -⟩ :=
    files_lie_in_folder "fresh" ⟨"okta", 12, "RS256"⟩ workTree closed_workTree
  obtain ⟨dirs, files, hstorage⟩ := hruns smallKeys
  obtain ⟨-, -, hcontents⟩ := hstorage.created _ hvalue
  exact ⟨_, rfl, hvalue, rfl, hcontents⟩

/-- With a name that leads back, the files are put next to the directory that was made for them,
and nothing is put in it. -/
theorem files_escape_fresh_directory :
    ∃ r, (issue "fresh" ⟨"../escaped", 12, "RS256"⟩).run smallKeys workTree = r ∧
      r.value = .ok (.created (.of "fresh" "../escaped")) ∧
      r.tree.get? ["fresh", "work"] = some .dir ∧
      r.tree.contents ["fresh", "work"] = [] ∧
      (r.tree.contents ["work"]).map (·.1) = ["keys/", "fresh/", "escaped_private.json",
        "escaped_public.json", "escaped.pem"] := by
  refine ⟨_, rfl, eq_ok_of_toOption ?_, ?_, ?_, ?_⟩
  all_goals decide +kernel

end OperatorKit.Key
