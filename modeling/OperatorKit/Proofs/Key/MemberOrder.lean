import Mathlib.Data.List.Nodup
import OperatorKit.Proofs.Json.Skipping
import OperatorKit.Proofs.Key.JwkText

/-!
# JWKs in any order

An object is read as a JWK whatever the order of its members, with blanks and escapes wherever
they may stand, with a null for a member that is not there, and with members of other names,
which may hold any value. A known member that comes again is refused as soon as its name is
read.
-/

namespace OperatorKit.Key.Jwk

open Json

/-! ## Texts of objects -/

/-- What a member of an object tells about a JWK. -/
inductive Part where
  /-- A member of a JWK with its value, or with null. -/
  | known (m : Member) (v : Option String)
  /-- A member of another name. -/
  | foreign

/-- The member of a JWK that a member of an object gives. -/
def Part.member? : Part → Option Member
  | .known m _ => some m
  | .foreign   => none

/-- No member of a JWK comes twice. -/
def Distinct (ps : List Part) : Prop := (ps.filterMap Part.member?).Nodup

instance (ps : List Part) : Decidable (Distinct ps) := inferInstanceAs (Decidable (List.Nodup _))

/-- The texts of a member. The value of a known member is a string, or null if the member is
not required; that of any other member is arbitrary. Every name is a string, so that no
surrogate stands alone in it, as one may in the values that are passed over. -/
inductive MemberText : Part → List Char → Prop where
  | string {m : Member} {v : String} {name a b cs : List Char}
      (hname : Spells name m.name.toList) (ha : Blanks a) (hb : Blanks b)
      (hv : Spells cs v.toList) :
      MemberText (.known m (some v))
        ('"' :: (name ++ '"' :: (a ++ ':' :: (b ++ '"' :: (cs ++ ['"'])))))
  | null {m : Member} {name a b : List Char} (hm : m ∈ Member.optional)
      (hname : Spells name m.name.toList) (ha : Blanks a) (hb : Blanks b) :
      MemberText (.known m none) ('"' :: (name ++ '"' :: (a ++ ':' :: (b ++ "null".toList))))
  | foreign {s : String} {name a b v : List Char} (hs : ∀ m : Member, s ≠ m.name)
      (hname : Spells name s.toList) (ha : Blanks a) (hb : Blanks b) (hv : Derives .value v) :
      MemberText .foreign ('"' :: (name ++ '"' :: (a ++ ':' :: (b ++ v))))

/-- The texts of members with a comma behind each of them. -/
inductive Leading : List Part → List Char → Prop where
  | nil : Leading [] []
  | cons {p : Part} {ps : List Part} {a cs b more : List Char} (ha : Blanks a)
      (hp : MemberText p cs) (hb : Blanks b) (hps : Leading ps more) :
      Leading (p :: ps) (a ++ (cs ++ (b ++ ',' :: more)))

/-- The texts of an object, with blanks around it. -/
inductive ObjectText : List Part → List Char → Prop where
  | intro {ps : List Part} {p : Part} {a cs b last c d : List Char} (ha : Blanks a)
      (hps : Leading ps cs) (hb : Blanks b) (hp : MemberText p last) (hc : Blanks c)
      (hd : Blanks d) :
      ObjectText (ps ++ [p]) (a ++ '\x7b' :: (cs ++ (b ++ (last ++ (c ++ '\x7d' :: d)))))

/-- The texts that begin with members of an object and then name one of them again. -/
inductive RepeatText : List Part → Member → List Char → Prop where
  | intro {ps : List Part} {m : Member} {v : Option String} {a cs b name rest : List Char}
      (ha : Blanks a) (hps : Leading ps cs) (hm : .known m v ∈ ps) (hb : Blanks b)
      (hname : Spells name m.name.toList) :
      RepeatText ps m (a ++ '\x7b' :: (cs ++ (b ++ '"' :: (name ++ '"' :: rest))))

/-- Members of an object are those of a JWK, each of them once. What the JWK lacks is null or
not there. -/
structure Describes (ps : List Part) (j : Jwk) : Prop where
  distinct : Distinct ps
  mem_iff (m : Member) (v : String) : .known m (some v) ∈ ps ↔ j.get? m = some v

variable {m : Member} {p : Part} {ps : List Part} {j : Jwk} {draft : Draft}
  {a b cs name rest : List Char} {v : String}

/-! ## Drafts -/

/-- What a member of an object adds to a draft. -/
def Part.added? : Part → Option (Member × Option String)
  | .known m v => some (m, v)
  | .foreign   => none

/-- What members of an object add to a draft. -/
def entries (ps : List Part) : Draft := ps.filterMap Part.added?

theorem map_fst_entries (ps : List Part) :
    (entries ps).map (·.1) = ps.filterMap Part.member? := by
  rw [entries, List.map_filterMap]
  refine List.filterMap_congr fun p _ => ?_
  cases p <;> rfl

theorem entries_cons (p : Part) (ps : List Part) :
    entries (p :: ps) = p.added?.toList ++ entries ps := by
  cases p <;> rfl

theorem entries_concat (ps : List Part) (p : Part) :
    entries (ps ++ [p]) = entries ps ++ p.added?.toList := by
  rw [entries, List.filterMap_append]
  cases p <;> rfl

theorem mem_entries {v : Option String} : (m, v) ∈ entries ps ↔ .known m v ∈ ps := by
  rw [entries, List.mem_filterMap]
  constructor
  · rintro ⟨p, hp, heq⟩
    cases p with
    | known m v =>
      cases heq
      exact hp
    | foreign => cases heq
  · exact fun hp => ⟨_, hp, rfl⟩

/-- Members that describe a JWK give its values. -/
theorem Describes.value?_eq (h : Describes ps j) (m : Member) :
    (entries ps).value? m = j.get? m := by
  have hnodup := h.distinct
  rw [Distinct, ← map_fst_entries] at hnodup
  rw [Draft.value?]
  cases hfind : (entries ps).find? (·.1 == m) with
  | none =>
    -- A value would be in the draft, where nothing is found.
    refine (Option.eq_none_iff_forall_ne_some.mpr fun v hv => ?_).symm
    have hmem := mem_entries.mpr ((h.mem_iff m v).mpr hv)
    exact List.find?_eq_none.mp hfind _ hmem (beq_self_eq_true m)
  | some x =>
    obtain ⟨m', v⟩ := x
    have hm := List.find?_some hfind
    obtain rfl : m' = m := beq_iff_eq.mp hm
    have hmem := List.mem_of_find?_eq_some hfind
    cases v with
    | some v => exact ((h.mem_iff m' v).mp (mem_entries.mp hmem)).symm
    | none =>
      -- The member has its one entry, which is null.
      refine (Option.eq_none_iff_forall_ne_some.mpr fun v hv => ?_).symm
      have hvalue := mem_entries.mpr ((h.mem_iff m' v).mpr hv)
      cases List.inj_on_of_nodup_map hnodup hmem hvalue rfl

/-! ## Single members -/

theorem Member.ofName?_eq_none {s : String} (h : ∀ m : Member, s ≠ m.name) :
    Member.ofName? s = none := by
  rw [Member.ofName?, List.find?_eq_none]
  intro m _ hm
  exact h m (beq_iff_eq.mp hm).symm

theorem readMemberValue_spelled (hb : Blanks b) (hv : Spells cs v.toList) (m : Member)
    (rest : List Char) :
    readMemberValue m (b ++ '"' :: (cs ++ '"' :: rest)) = .ok (some v, rest) := by
  have htext : readText ('"' :: (cs ++ '"' :: rest)) = .ok (v, rest) := hv.readString rest
  rw [readMemberValue, skipBlanks_append_cons hb rfl]
  split
  case h_1 heq => cases heq
  case h_2 =>
    rw [htext]
    rfl

theorem readMemberValue_null (hb : Blanks b) (hm : m ∈ Member.optional) (rest : List Char) :
    readMemberValue m (b ++ ("null".toList ++ rest)) = .ok (none, rest) := by
  have hnull : skipBlanks (b ++ ("null".toList ++ rest)) = "null".toList ++ rest :=
    skipBlanks_append_cons hb rfl _
  have hrequired : ∀ m ∈ Member.optional, m.isRequired = false := by decide
  rw [readMemberValue, hnull, hrequired m hm]
  rfl

/-- The beginning of every member is its name. -/
theorem MemberText.eq_cons (h : MemberText p cs) : ∃ ds, cs = '"' :: ds := by
  cases h <;> exact ⟨_, rfl⟩

/-- A member is read from each of its texts, if it was not read before. -/
theorem MemberText.readMember (h : MemberText p cs)
    (hnew : ∀ m, p.member? = some m → m ∉ draft.map (·.1)) (hrest : Ends rest) :
    readMember draft (cs ++ rest) = .ok (draft ++ p.added?.toList, rest) := by
  cases h with
  | string hname ha hb hv =>
    have hhas := Draft.has_eq_false_iff.mpr (hnew _ rfl)
    simp only [List.cons_append, List.append_assoc, List.nil_append, Jwk.readMember,
      hname.readString, Member.ofName?_name, hhas, readColon_append ha,
      readMemberValue_spelled hb hv]
    rfl
  | null hm hname ha hb =>
    have hhas := Draft.has_eq_false_iff.mpr (hnew _ rfl)
    simp only [List.cons_append, List.append_assoc, Jwk.readMember, hname.readString,
      Member.ofName?_name, hhas, readColon_append ha, readMemberValue_null hb hm]
    rfl
  | foreign hs hname ha hb hv =>
    simp only [List.cons_append, List.append_assoc, Jwk.readMember, hname.readString,
      Member.ofName?_eq_none hs, readColon_append ha, hv.skipValue_append hb hrest]
    rw [Part.added?, Option.toList_none, List.append_nil]
    rfl

/-- A member that was read before is refused behind its name. -/
theorem readMember_repeated (hname : Spells name m.name.toList) (hm : m ∈ draft.map (·.1))
    (rest : List Char) :
    readMember draft ('"' :: (name ++ '"' :: rest)) =
      .error (.unexpected ("duplicate field `" ++ m.name ++ "`")) := by
  have hhas : draft.has m = true := by
    rw [← Bool.not_eq_false, Draft.has_eq_false_iff]
    exact not_not_intro hm
  simp only [readMember, hname.readString, Member.ofName?_name, hhas, if_true]

/-! ## Members of an object -/

/-- Members with commas behind them go to the draft one after the other. -/
theorem Leading.readMembers (h : Leading ps cs) (draft : Draft)
    (hnodup : (draft.map (·.1) ++ ps.filterMap Part.member?).Nodup) (fuel : Nat)
    (rest : List Char) :
    readMembers (ps.length + fuel) draft (skipBlanks (cs ++ rest)) =
      readMembers fuel (draft ++ entries ps) (skipBlanks rest) := by
  -- A member moves from what is still to come to what the draft has, so all of them stay distinct.
  induction h generalizing draft with
  | nil => simp [entries]
  | @cons p ps a cs b more ha hp hb _ ih =>
    have hnew : ∀ m, p.member? = some m → m ∉ draft.map (·.1) := by
      intro m hm hmem
      refine (List.nodup_append.mp hnodup).2.2 m hmem m ?_ rfl
      rw [List.filterMap_cons_some hm]
      exact List.mem_cons_self
    have hread := hp.readMember hnew (ends_blanks_cons hb (c := ',') (by decide) (more ++ rest))
    obtain ⟨ds, rfl⟩ := hp.eq_cons
    have hlength : (p :: ps).length + fuel = ps.length + fuel + 1 := by
      rw [List.length_cons]
      omega
    simp only [List.append_assoc, List.cons_append] at hread ⊢
    rw [skipBlanks_append_cons ha rfl, hlength, Jwk.readMembers, hread]
    simp only [skipBlanks_append_cons (c := ',') hb rfl]
    have hnodup' : ((draft ++ p.added?.toList).map (·.1) ++ ps.filterMap Part.member?).Nodup := by
      cases p <;> simpa [Part.added?, Part.member?, List.filterMap_cons] using hnodup
    rw [ih _ hnodup', entries_cons, List.append_assoc]

theorem Leading.length_le (h : Leading ps cs) : ps.length ≤ cs.length := by
  induction h with
  | nil => exact Nat.le_refl _
  | cons _ _ _ _ ih =>
    simp only [List.length_append, List.length_cons]
    omega

/-- An object has fuel for all of its members. -/
theorem Leading.readObject (h : Leading ps cs) (hdistinct : Distinct ps)
    (hrest : ∃ ds, skipBlanks rest = '"' :: ds) :
    ∃ fuel, readObject (cs ++ rest) =
      Jwk.readMembers (fuel + 1) (entries ps) (skipBlanks rest) := by
  obtain ⟨ds, hbegin, hlength⟩ :
      ∃ ds, skipBlanks (cs ++ rest) = '"' :: ds ∧ ps.length ≤ ds.length + 1 := by
    cases h with
    | nil =>
      obtain ⟨ds, hds⟩ := hrest
      exact ⟨ds, hds, Nat.zero_le _⟩
    | cons ha hp hb hps =>
      obtain ⟨ds, rfl⟩ := hp.eq_cons
      have hlength := hps.length_le
      simp only [List.append_assoc, List.cons_append, skipBlanks_append_cons ha (c := '"') rfl]
      refine ⟨_, rfl, ?_⟩
      simp only [List.length_append, List.length_cons]
      omega
  obtain ⟨fuel, hfuel⟩ : ∃ fuel, ('"' :: ds).length + 1 = ps.length + (fuel + 1) :=
    ⟨ds.length + 1 - ps.length, by rw [List.length_cons]; omega⟩
  have hmembers := h.readMembers [] hdistinct (fuel + 1) rest
  rw [List.nil_append, hbegin, ← hfuel] at hmembers
  refine ⟨fuel, ?_⟩
  rw [← hmembers, Jwk.readObject, hbegin]
  rfl

/-! ## Whole texts -/

theorem readEnd_blanks (ha : Blanks a) : readEnd a = .ok () := by
  have hskip : skipBlanks a = [] := by
    rw [← List.append_nil a, skipBlanks_append ha]
    rfl
  rw [readEnd, hskip]
  rfl

theorem readJwk_object (ha : Blanks a) (cs : List Char) :
    readJwk (a ++ '\x7b' :: cs) =
      match readObject cs with
      | .error e        => .error e
      | .ok (draft, cs) => draft.toJwk.map fun j => (j, cs) := by
  rw [readJwk, skipBlanks_append_cons ha rfl]
  rfl

theorem ObjectText.readJwk (h : ObjectText ps cs) (hj : Describes ps j) :
    ∃ rest, Jwk.readJwk cs = .ok (j, rest) ∧ Blanks rest := by
  obtain @⟨ps, p, a, cs, b, last, c, d, ha, hps, hb, hp, hc, hd⟩ := h
  have hdistinct := hj.distinct
  rw [Distinct, List.filterMap_append] at hdistinct
  obtain ⟨hbefore, -, hdisjoint⟩ := List.nodup_append.mp hdistinct
  have hnew : ∀ m, p.member? = some m → m ∉ (entries ps).map (·.1) := by
    intro m hm hmem
    rw [map_fst_entries] at hmem
    refine hdisjoint m hmem m ?_ rfl
    rw [List.filterMap_cons_some hm]
    exact List.mem_cons_self
  have hread := hp.readMember hnew (ends_blanks_cons hc (c := '\x7d') (by decide) d)
  obtain ⟨ds, rfl⟩ := hp.eq_cons
  have hlast : skipBlanks (b ++ ('"' :: ds ++ (c ++ '\x7d' :: d))) =
      '"' :: ds ++ (c ++ '\x7d' :: d) := skipBlanks_append_cons hb rfl _
  obtain ⟨fuel, hobject⟩ := hps.readObject hbefore ⟨_, hlast⟩
  have hdraft := Draft.toJwk_of_value? hj.value?_eq
  rw [entries_concat] at hdraft
  rw [hlast, readMembers, hread] at hobject
  simp only [skipBlanks_append_cons (c := '\x7d') hc rfl] at hobject
  refine ⟨d, ?_, hd⟩
  rw [readJwk_object ha, hobject]
  simp only [hdraft]
  rfl

theorem ObjectText.ofText {s : String} (h : ObjectText ps s.toList) (hj : Describes ps j) :
    ofText s = .ok j := by
  obtain ⟨rest, hread, hblanks⟩ := h.readJwk hj
  simp only [Jwk.ofText, hread, readEnd_blanks hblanks]
  rfl

theorem RepeatText.readJwk (h : RepeatText ps m cs) (hdistinct : Distinct ps) :
    Jwk.readJwk cs = .error (.unexpected ("duplicate field `" ++ m.name ++ "`")) := by
  obtain @⟨v, a, cs, b, name, rest, ha, hps, hm, hb, hname⟩ := h
  have hmem : m ∈ (entries ps).map (·.1) :=
    List.mem_map.mpr ⟨(m, v), mem_entries.mpr hm, rfl⟩
  have hrest := skipBlanks_append_cons hb (c := '"') rfl (name ++ '"' :: rest)
  obtain ⟨fuel, hobject⟩ := hps.readObject hdistinct ⟨_, hrest⟩
  rw [hrest, readMembers, readMember_repeated hname hmem] at hobject
  rw [readJwk_object ha, hobject]

theorem RepeatText.ofText {s : String} (h : RepeatText ps m s.toList) (hdistinct : Distinct ps) :
    ofText s = .error (.unexpected ("duplicate field `" ++ m.name ++ "`")) := by
  simp only [Jwk.ofText, h.readJwk hdistinct]

/-- An object whose members are those of a JWK, among other members, is read as that JWK. If a
member comes again, and there is nothing wrong with the text before it, then that is the
complaint. -/
theorem ofText_in_any_order :
    (∀ ps j s, ObjectText ps s.toList → Describes ps j → ofText s = .ok j) ∧
    ∀ ps m s, RepeatText ps m s.toList → Distinct ps →
      ofText s = .error (.unexpected ("duplicate field `" ++ m.name ++ "`")) :=
  ⟨fun _ _ _ => ObjectText.ofText, fun _ _ _ => RepeatText.ofText⟩

/-- The beginning of an object: a member of another name, one with an escape, and a null. -/
def shuffled : String :=
  " \x7b\"x\" :[-1.5e+3,\x7b\"n\":\"\\ud800\"\x7d],\"use\":\"\\u0073ig\",\n\"kty\":\"RSA\"," ++
  "\"kid\":\"\",\"d\":null,\"alg\":\"RS256\",\"e\":\"AQAB\","

/-- The members of that text. -/
def shuffledParts : List Part :=
  [.foreign, .known .purpose "sig", .known .kty "RSA", .known .kid "", .known .d none,
    .known .alg "RS256", .known .e "AQAB"]

theorem exists_leading_shuffled :
    ∃ cs, shuffled.toList = [' ', '\x7b'] ++ cs ∧ Leading shuffledParts cs := by
  have hnone : Blanks [] := by decide
  have hplain : ∀ (m : Member) (v : String), AllPlain m.name.toList → AllPlain v.toList →
      MemberText (.known m (some v))
        ('"' :: (m.name.toList ++ '"' :: ([] ++ ':' :: ([] ++ '"' :: (v.toList ++ ['"']))))) :=
    fun m v hm hv => .string (spells_self hm) hnone hnone (spells_self hv)
  have hnumber : Derives .value (['-'] ++ (['1'] ++ (['.', '5'] ++ ['e', '+', '3']))) :=
    .number .minus (by decide) (.present (by decide)) (.signed (.inl rfl) (.inl rfl) (by decide))
  have hsurrogate : Raw ('\\' :: 'u' :: ("d800".toList ++ [])) :=
    .unit (v := 0xD800) (.intro (t := 13) (u := 8) (v := 0) (w := 0) (by decide) (by decide)
      (by decide) (by decide)) .nil
  have hobject : Derives .value ('\x7b' :: _) := .object (.lastMember hnone
    (.plain (c := 'n') (by decide) .nil) hnone hnone (.string hsurrogate) hnone)
  have harray : Derives .value ('[' :: _) :=
    .array (.item hnone hnumber hnone (.lastItem hnone hobject hnone))
  have hforeign := MemberText.foreign (s := "x") (by rintro (_ | _) <;> decide)
    (spells_self (by decide)) (a := [' ']) (by decide) hnone harray
  have hsig : Spells ('\\' :: 'u' :: "0073".toList ++ "ig".toList) "sig".toList :=
    .cons (.unit (.intro (t := 0) (u := 0) (v := 7) (w := 3) (by decide) (by decide) (by decide)
      (by decide))) (spells_self (by decide))
  have huse := MemberText.string (m := .purpose) (v := "sig") (spells_self (by decide)) hnone hnone
    hsig
  have hnull := MemberText.null (m := .d) (by decide) (spells_self (by decide)) hnone hnone
  have hleading := Leading.cons hnone hforeign hnone (.cons hnone huse hnone
    (.cons (a := ['\n']) (by decide) (hplain .kty "RSA" (by decide) (by decide)) hnone
    (.cons hnone (hplain .kid "" (by decide) (by decide)) hnone (.cons hnone hnull hnone
    (.cons hnone (hplain .alg "RS256" (by decide) (by decide)) hnone
    (.cons hnone (hplain .e "AQAB" (by decide) (by decide)) hnone .nil))))))
  refine ⟨_, ?_, hleading⟩
  decide +kernel

theorem ofText_in_any_order_of_shuffled :
    ofText (shuffled ++ "\"\\u006E\" : \"AQ\"\x7d\n") =
        .ok ⟨"RSA", "", "sig", "RS256", "AQ", "AQAB", none, none, none, none, none, none⟩ ∧
      ofText (shuffled ++ "\"kid\" and anything") =
        .error (.unexpected "duplicate field `kid`") := by
  obtain ⟨cs, hcs, hleading⟩ := exists_leading_shuffled
  have hnone : Blanks [] := by decide
  have hn : Spells ('\\' :: 'u' :: "006E".toList ++ []) "n".toList :=
    .cons (.unit (.intro (t := 0) (u := 0) (v := 6) (w := 14) (by decide) (by decide) (by decide)
      (by decide))) .nil
  have hlast := MemberText.string (m := .n) (v := "AQ") (a := [' ']) (b := [' ']) hn (by decide)
    (by decide) (spells_self (by decide))
  have hobject := ObjectText.intro (a := [' ']) (d := ['\n']) (by decide) hleading hnone
    hlast hnone (by decide)
  have hrepeat : RepeatText shuffledParts .kid
      ([' '] ++ '\x7b' :: (cs ++ ([] ++ '"' :: ("kid".toList ++ '"' :: " and anything".toList)))) :=
    .intro (v := some "") (by decide) hleading (by simp [shuffledParts]) hnone
      (spells_self (by decide))
  constructor
  · refine ofText_in_any_order.1 (shuffledParts ++ [.known .n (some "AQ")]) _ _
      (Eq.mp (congrArg _ ?_) hobject) ⟨?_, ?_⟩
    · rw [String.toList_append, hcs, List.append_assoc]
      simp
    · decide
    · intro m v
      cases m <;> simp [shuffledParts, get?, eq_comm]
  · refine ofText_in_any_order.2 shuffledParts .kid _ (Eq.mp (congrArg _ ?_) hrepeat) ?_
    · rw [String.toList_append, hcs, List.append_assoc]
      simp
    · decide

end OperatorKit.Key.Jwk
