import OperatorKit.Proofs.Key.Folder

/-!
# Issues that come to their end

An issue that says that it has created the files of a key has stored all forms of one and the
same key in a directory that was not there before. Apart from them and the directories on the
way, the tree is what it was.
-/

namespace OperatorKit.Key

open Disk OperatorKit.Key.Action OperatorKit.Key.Call

variable {t u : Tree} {cs : List Call} {dir : String} {spec : KeySpec}

/-! ## Answers -/

/-- A file that a call has made is there behind all later calls. -/
theorem Call.LeaveAll.holds {path text : String} {mode : Nat} (h : LeaveAll t cs u)
    (hc : .createFile path mode text .stored ∈ cs) :
    u.Holds path (t.masked mode) (Text.bytes text) := by
  induction h with
  | nil t => exact absurd hc List.not_mem_nil
  | @cons t u w c cs h hrest ih =>
    obtain rfl | hc := List.mem_cons.mp hc
    · cases h with
      | createdFile h =>
        obtain ⟨rfl, -⟩ := hrest.tree_eq
        exact Tree.holds_of_createFile h _
    · obtain ⟨rfl, -⟩ := h.tree_eq
      exact ih hc

/-- Keys come from the maker that an action is carried out with. -/
theorem Action.eq_of_makeKey_mem {α : Type} {keys : Nat → Except RsaProblem RsaKey} {bits : Nat}
    {r : Except RsaProblem RsaKey} (a : Action α) (t : Tree)
    (h : .makeKey bits r ∈ a.calls keys t) : r = keys bits := by
  induction a, t using step_induction keys with
  | hdone x t => exact absurd h List.not_mem_nil
  | @hcall a t c hcall ih =>
    rw [calls_of_step hcall] at h
    obtain rfl | h := List.mem_cons.mp h
    · cases a with
      | makeKey =>
        cases hcall
        rfl
      | done | makeDir | isDir | createFile | fileText | log | print => cases hcall
    · exact ih h

/-! ## Forms of a key -/

theorem KeyTexts.of_eq_ok {k : RsaKey} {texts : KeyTexts} (h : KeyTexts.of k spec = .ok texts) :
    ∃ j pem, Jwk.ofPrivate k spec.name keyPurpose spec.alg = .ok j ∧ k.pem = .ok pem ∧
      texts = ⟨j.text, (Jwk.ofPublic k spec.name keyPurpose spec.alg).text, pem⟩ := by
  unfold KeyTexts.of at h
  split at h
  case h_1 => cases h
  case h_2 j hj =>
    split at h <;> cases h
    case h_2 pem hpem => exact ⟨j, pem, hj, hpem, rfl⟩

/-- A private JWK says what it was made for. -/
theorem Jwk.labels_of_ofPrivate {k : RsaKey} {kid purpose alg : String} {j : Jwk}
    (h : Jwk.ofPrivate k kid purpose alg = .ok j) :
    j.kid = kid ∧ j.purpose = purpose ∧ j.alg = alg := by
  unfold Jwk.ofPrivate at h
  split at h
  case h_1 =>
    split at h <;> cases h
    case h_2 => exact ⟨rfl, rfl, rfl⟩
  case h_2 => cases h

/-- A tree takes permissions away and adds none. -/
theorem masked_and_self (t : Tree) (mode : Nat) : t.masked mode &&& mode = t.masked mode := by
  rw [Tree.masked, Nat.and_comm, ← Nat.and_assoc, Nat.and_self]

/-! ## Complete issues -/

/-- Between two trees, the files of a key were stored in a new directory, in all forms of the
key, and nothing else was added but directories above that one. -/
structure Complete (dir : String) (spec : KeySpec) (t : Tree) (k : RsaKey) (files : KeyFiles)
    (u : Tree) : Prop where
  files_eq : files = .of dir spec.name
  vacant : t.get? (t.placeOf dir) = none
  made : u.get? (t.placeOf dir) = some t.newDir
  forms : ∃ j pem, Jwk.ofPrivate k spec.name keyPurpose spec.alg = .ok j ∧ k.pem = .ok pem ∧
    u.contents (t.placeOf dir) =
      [(spec.name ++ "_private.json", .file (t.masked privateMode) (Text.bytes j.text)),
        (spec.name ++ "_public.json", .file (t.masked publicMode)
          (Text.bytes (Jwk.ofPublic k spec.name keyPurpose spec.alg).text)),
        (spec.name ++ ".pem", .file (t.masked privateMode) (Text.bytes pem))] ∧
    u.fileText files.privateJwk = .ok j.text ∧
    u.fileText files.publicJwk = .ok (Jwk.ofPublic k spec.name keyPurpose spec.alg).text ∧
    u.fileText files.privatePem = .ok pem
  resolved : files.paths.map u.resolve =
    KeyFiles.suffixes.map fun suffix => .ok ((spec.name ++ suffix) :: t.placeOf dir)
  labels : ∀ j, Jwk.ofPrivate k spec.name keyPurpose spec.alg = .ok j ∨
      j = Jwk.ofPublic k spec.name keyPurpose spec.alg →
    j.kid = spec.name ∧ j.purpose = "sig" ∧ j.alg = spec.alg
  owner_only : ∀ path ∈ [files.privateJwk, files.privatePem],
    ∃ mode, u.fileMode? path = some mode ∧ mode &&& 0o600 = mode
  kept : ∀ p e, t.get? p = some e → u.get? p = some e
  others : ∀ p e, u.get? p = some e → t.get? p = none →
    p = t.placeOf dir ∨ p ∈ KeyFiles.places t dir spec.name ∨
      e = t.newDir ∧ ∃ q, Path.Above q dir ∧ p = t.placeOf q

theorem complete_of_passes {parents : List Call} {line : LogLine} {k : RsaKey} {texts : KeyTexts}
    (hname : '/' ∉ spec.name.toList) (ht : t.Closed) (hdirs : OnlyAbove dir parents)
    (htexts : KeyTexts.of k spec = .ok texts)
    (hleave : LeaveAll t (parents ++ .makeDir dir (.ok ()) :: .log line ::
      .makeKey spec.bits (.ok k) :: (KeyFiles.of dir spec.name).calls texts) u) :
    Complete dir spec t k (.of dir spec.name) u := by
  obtain ⟨w, hw, hclosed, hvacant, hu, -⟩ := tree_of_passes hleave ht
  have hadded : addedBy t (.log line :: .makeKey spec.bits (.ok k) ::
      (KeyFiles.of dir spec.name).calls texts) = (KeyFiles.of dir spec.name).entries t texts := rfl
  rw [hadded] at hu
  have hprivate : u.Holds (KeyFiles.of dir spec.name).privateJwk (t.masked privateMode)
      (Text.bytes texts.privateJwk) := hleave.holds (by simp [KeyFiles.calls])
  have hpublic : u.Holds (KeyFiles.of dir spec.name).publicJwk (t.masked publicMode)
      (Text.bytes texts.publicJwk) := hleave.holds (by simp [KeyFiles.calls])
  have hpem : u.Holds (KeyFiles.of dir spec.name).privatePem (t.masked privateMode)
      (Text.bytes texts.privatePem) := hleave.holds (by simp [KeyFiles.calls])
  have hcontents : u.contents (t.placeOf dir) =
      [(spec.name ++ "_private.json", .file (t.masked privateMode) (Text.bytes texts.privateJwk)),
        (spec.name ++ "_public.json", .file (t.masked publicMode) (Text.bytes texts.publicJwk)),
        (spec.name ++ ".pem", .file (t.masked privateMode) (Text.bytes texts.privatePem))] := by
    rw [hu, Tree.contents_extend, hclosed.contents_eq_nil hvacant, List.nil_append,
      Tree.listing_cons_self, KeyFiles.entries_of, t.folderOf_of_name dir hname,
      Path.label_of_name hname, Tree.listing_cons_file, Tree.listing_cons_file,
      Tree.listing_cons_file, Tree.listing_nil]
  obtain ⟨j, pem, hj, hkpem, rfl⟩ := KeyTexts.of_eq_ok htexts
  exact {
    files_eq := rfl
    vacant := by
      rw [hw] at hvacant
      exact Tree.get?_eq_none_of_extend hvacant
    made := by
      rw [hu]
      exact Tree.get?_extend_cons hvacant _ _
    forms := ⟨j, pem, hj, hkpem, hcontents, hprivate.fileText_eq, hpublic.fileText_eq,
      hpem.fileText_eq⟩
    resolved := by
      have hplace : u.placeOf = t.placeOf := by
        rw [hu, hw]
        rfl
      have hpaths : (KeyFiles.of dir spec.name).paths.map u.resolve =
          ((KeyFiles.of dir spec.name).paths.map t.placeOf).map .ok := by
        simp only [KeyFiles.paths, List.map_cons, List.map_nil, hprivate.resolved,
          hpublic.resolved, hpem.resolved, hplace]
      rw [hpaths, KeyFiles.map_placeOf_paths, KeyFiles.places, t.folderOf_of_name dir hname,
        Path.label_of_name hname, List.map_map]
      rfl
    labels := by
      rintro j' (hj' | rfl)
      · exact Jwk.labels_of_ofPrivate hj'
      · exact ⟨rfl, rfl, rfl⟩
    owner_only := by
      intro path hpath
      simp only [List.mem_cons, List.not_mem_nil, or_false] at hpath
      obtain rfl | rfl := hpath
      · exact ⟨_, hprivate.fileMode?_eq, masked_and_self t privateMode⟩
      · exact ⟨_, hpem.fileMode?_eq, masked_and_self t privateMode⟩
    kept := by
      intro p e hp
      rw [hu, hw, Tree.extend_extend]
      exact Tree.get?_extend hp
    others := by
      intro p e hp hnew
      rw [hu, hw, Tree.extend_extend] at hp
      obtain hparent | hmem := List.mem_append.mp (Tree.mem_of_get?_extend hp hnew)
      · obtain ⟨q, hq, heq⟩ := added_of_onlyAbove hdirs hparent
        cases heq
        exact .inr (.inr ⟨rfl, q, Path.above_of_mem hq, rfl⟩)
      · obtain heq | hfile := List.mem_cons.mp hmem
        · exact .inl (congrArg Prod.fst heq)
        · rw [← KeyFiles.map_fst_entries t dir spec.name _]
          exact .inr (.inl (List.mem_map_of_mem hfile)) }

/-- The calls of an issue that says that it has created files. -/
theorem Issues.of_created {files : KeyFiles} (h : Issues dir spec cs (.ok (.created files))) :
    files = .of dir spec.name ∧ ∃ parents line k texts, OnlyAbove dir parents ∧
      KeyTexts.of k spec = .ok texts ∧
      cs = parents ++ .makeDir dir (.ok ()) :: .log line ::
        .makeKey spec.bits (.ok k) :: files.calls texts := by
  cases h with
  | passes hdirs hfill =>
    obtain ⟨hfiles, line, k, texts, htexts, rfl⟩ := fill_calls hfill
    exact ⟨hfiles, _, line, k, texts, hdirs, htexts, rfl⟩

/-- If an issue with a name without a slash says that it has created files, its directory was
missing and has exactly these files in it, in all forms of the one key that was made. Whatever
else the disk had to say, nothing else was added but directories above that one. -/
theorem created_issue_is_complete (dir : String) (spec : KeySpec) (t : Tree) (ht : t.Closed)
    (hname : '/' ∉ spec.name.toList) :
    (∀ keys files, ((issue dir spec).run keys t).value = .ok (.created files) →
      ∃ k, keys spec.bits = .ok k ∧
        Complete dir spec t k files ((issue dir spec).run keys t).tree) ∧
    ∀ cs files u, (issue dir spec).Ends cs (.ok (.created files)) → LeaveAll t cs u →
      ∃ k, (∀ bits r, .makeKey bits r ∈ cs ↔ bits = spec.bits ∧ r = .ok k) ∧
        Complete dir spec t k files u := by
  have hall : ∀ cs files u, (issue dir spec).Ends cs (.ok (.created files)) → LeaveAll t cs u →
      ∃ k, (∀ bits r, .makeKey bits r ∈ cs ↔ bits = spec.bits ∧ r = .ok k) ∧
        Complete dir spec t k files u := by
    intro cs files u hends hleave
    obtain ⟨rfl, parents, line, k, texts, hdirs, htexts, rfl⟩ := (issues_of_ends hends).of_created
    refine ⟨k, fun bits r => ?_, complete_of_passes hname ht hdirs htexts hleave⟩
    have hparents : .makeKey bits r ∉ parents := by
      intro hmem
      cases hdirs.onDirs _ hmem
    simp [hparents, KeyFiles.calls]
  refine ⟨fun keys files hvalue => ?_, hall⟩
  obtain ⟨hends, hleave⟩ := ends_calls keys (issue dir spec) t
  rw [hvalue] at hends
  obtain ⟨k, hmade, hcomplete⟩ := hall _ _ _ hends hleave
  exact ⟨k, (eq_of_makeKey_mem _ _ ((hmade _ _).mpr ⟨rfl, rfl⟩)).symm, hcomplete⟩

theorem created_issue_in_fresh_directory :
    ∃ r j, (issue "fresh" ⟨"okta", 12, "RS256"⟩).run smallKeys workTree = r ∧
      r.value = .ok (.created (.of "fresh" "okta")) ∧
      Complete "fresh" ⟨"okta", 12, "RS256"⟩ workTree smallKey (.of "fresh" "okta") r.tree ∧
      Jwk.ofPrivate smallKey "okta" "sig" "RS256" = .ok j ∧
      r.tree.fileText "fresh/okta_private.json" = .ok j.text ∧
      r.tree.get? ["keys", "work"] = some .dir := by
  have hvalue : ((issue "fresh" ⟨"okta", 12, "RS256"⟩).run smallKeys workTree).value =
      .ok (.created (.of "fresh" "okta")) := eq_ok_of_toOption (by decide +kernel)
  obtain ⟨hruns, -⟩ := created_issue_is_complete "fresh" ⟨"okta", 12, "RS256"⟩ workTree
    closed_workTree (by decide)
  obtain ⟨k, hk, hcomplete⟩ := hruns smallKeys _ hvalue
  cases hk
  obtain ⟨j, pem, hj, -, -, htext, -⟩ := hcomplete.forms
  exact ⟨_, j, rfl, hvalue, hcomplete, hj, htext, hcomplete.kept _ _ rfl⟩

end OperatorKit.Key
