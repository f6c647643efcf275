import OperatorKit.Key.Jwk.Reader
import OperatorKit.Proofs.Json.Quoted

/-!
# Reading back JWKs

The text of a JWK is read as that JWK, whichever of its members are there and whatever
they hold. So different JWKs have different texts, and a JWK that was read from any text
is read again from its own.
-/

namespace OperatorKit.Key.Jwk

open Json

variable {m : Member} {v : String} {draft : Draft} {ms : List (Member × String)}
  {rest : List Char} {j : Jwk}

/-! ## Members -/

theorem Member.ofName?_name (m : Member) : ofName? m.name = some m := by
  cases m <;> rfl

theorem skipBlanks_quote (s : String) (rest : List Char) :
    skipBlanks (quote s ++ rest) = quote s ++ rest := by
  rw [quote_append]
  rfl

theorem readText_quote (s : String) (rest : List Char) :
    readText (quote s ++ rest) = .ok (s, rest) := by
  rw [readText, skipBlanks_quote, quote_append]
  exact readString_quoted s rest

/-- A value in quotes is no null. -/
theorem readMemberValue_quote (m : Member) (v : String) (rest : List Char) :
    readMemberValue m (quote v ++ rest) = .ok (some v, rest) := by
  rw [readMemberValue, skipBlanks_quote]
  split
  case h_1 hnull =>
    rw [quote_append] at hnull
    cases hnull
  case h_2 =>
    rw [readText_quote]
    rfl

/-- A member that was not read before is added to those that were. -/
theorem readMember_quote (h : draft.has m = false) (v : String) (rest : List Char) :
    readMember draft (quote m.name ++ ':' :: (quote v ++ rest)) =
      .ok (draft ++ [(m, some v)], rest) := by
  have hcolon : readColon (':' :: (quote v ++ rest)) = .ok (quote v ++ rest) := rfl
  rw [quote_append, readMember]
  simp only [readString_quoted, Member.ofName?_name, h, Bool.false_eq_true, if_false, hcolon,
    readMemberValue_quote]
  rfl

/-! ## Drafts -/

/-- The draft of members with values. -/
def Draft.of (ms : List (Member × String)) : Draft := ms.map fun x => (x.1, some x.2)

theorem renderMembers_cons (m : Member) (v : String) (ms : List (Member × String))
    (rest : List Char) :
    renderMembers true ((m, v) :: ms) ++ rest =
      quote m.name ++ ':' :: (quote v ++ (renderMembers false ms ++ rest)) := by
  simp [renderMembers]

theorem renderMembers_false_cons (x : Member × String) (ms : List (Member × String)) :
    renderMembers false (x :: ms) = ',' :: renderMembers true (x :: ms) := by
  simp [renderMembers]

theorem length_le_renderMembers (first : Bool) (ms : List (Member × String)) :
    ms.length ≤ (renderMembers first ms).length := by
  induction ms generalizing first with
  | nil => exact Nat.zero_le _
  | cons x ms ih =>
    have := ih false
    simp only [renderMembers, List.length_append, List.length_cons]
    omega

theorem Draft.has_eq_false_iff : draft.has m = false ↔ m ∉ draft.map (·.1) := by
  rw [Draft.has, List.any_eq_false, List.mem_map, not_exists]
  refine forall_congr' fun x => ?_
  rw [beq_iff_eq, not_and]

theorem Draft.has_eq_false (h : ((draft ++ Draft.of ((m, v) :: ms)).map (·.1)).Nodup) :
    draft.has m = false := by
  rw [List.map_append, List.nodup_append] at h
  exact Draft.has_eq_false_iff.mpr fun hm => h.2.2 m hm m List.mem_cons_self rfl

/-- Members of different names are read back up to the brace behind them. -/
theorem readMembers_rendered (draft : Draft) {fuel : Nat} (hfuel : ms.length < fuel)
    (h : ((draft ++ Draft.of ((m, v) :: ms)).map (·.1)).Nodup) (rest : List Char) :
    readMembers fuel draft (renderMembers true ((m, v) :: ms) ++ '\x7d' :: rest) =
      .ok (draft ++ Draft.of ((m, v) :: ms), rest) := by
  -- Each member goes from the text to the draft, and both together stay the same.
  induction ms generalizing fuel draft m v with
  | nil =>
    obtain ⟨fuel, rfl⟩ := Nat.exists_eq_add_one_of_ne_zero (Nat.ne_zero_of_lt hfuel)
    rw [readMembers, renderMembers_cons, readMember_quote (Draft.has_eq_false h)]
    rfl
  | cons x ms ih =>
    obtain ⟨fuel, rfl⟩ := Nat.exists_eq_add_one_of_ne_zero (Nat.ne_zero_of_lt hfuel)
    have happend : draft ++ Draft.of ((m, v) :: x :: ms) =
        draft ++ [(m, some v)] ++ Draft.of (x :: ms) := by
      simp [Draft.of]
    have hmember := readMember_quote (Draft.has_eq_false h) v
      (',' :: (renderMembers true (x :: ms) ++ '\x7d' :: rest))
    rw [happend] at h ⊢
    have hblanks : skipBlanks (renderMembers true (x :: ms) ++ '\x7d' :: rest) =
        renderMembers true (x :: ms) ++ '\x7d' :: rest := by
      rw [renderMembers_cons, skipBlanks_quote]
    have hcomma : skipBlanks (',' :: (renderMembers true (x :: ms) ++ '\x7d' :: rest)) =
        ',' :: (renderMembers true (x :: ms) ++ '\x7d' :: rest) := rfl
    rw [readMembers, renderMembers_cons, renderMembers_false_cons, List.cons_append, hmember]
    simp only [hcomma, hblanks]
    exact ih _ (Nat.lt_of_succ_lt_succ hfuel) h

/-- An object with members of different names is read back. -/
theorem readObject_rendered (h : ((Draft.of ((m, v) :: ms)).map (·.1)).Nodup)
    (rest : List Char) :
    readObject (renderMembers true ((m, v) :: ms) ++ '\x7d' :: rest) =
      .ok (Draft.of ((m, v) :: ms), rest) := by
  have hfuel : ms.length <
      (renderMembers true ((m, v) :: ms) ++ '\x7d' :: rest).length + 1 := by
    have := length_le_renderMembers true ((m, v) :: ms)
    rw [List.length_cons] at this
    rw [List.length_append]
    omega
  have hmembers := readMembers_rendered [] hfuel h rest
  rw [List.nil_append] at hmembers
  rw [← hmembers, readObject, renderMembers_cons, skipBlanks_quote, quote_append]
  rfl

/-! ## The members of a JWK -/

section

variable {α β : Type}

/-- The keys that have values. -/
theorem map_fst_filterMap (f : α → Option β) (l : List α) :
    (l.filterMap fun a => (f a).map (a, ·)).map (·.1) = l.filter fun a => (f a).isSome := by
  induction l with
  | nil => rfl
  | cons a l ih => cases ha : f a <;> simp [ha, ih]

/-- The value of a key. -/
theorem find?_fst_filterMap [DecidableEq α] (f : α → Option β) (l : List α) (a : α) :
    ((l.filterMap fun b => (f b).map (b, ·)).find? (·.1 == a)).map (·.2) =
      if a ∈ l then f a else none := by
  induction l with
  | nil => rfl
  | cons b l ih =>
    by_cases hb : b = a
    · subst hb
      cases hf : f b with
      | none =>
        rw [List.filterMap_cons_none (by rw [hf]; rfl), ih, hf]
        simp
      | some v =>
        rw [List.filterMap_cons_some (by rw [hf]; rfl)]
        simp
    · have hmem : a ∈ b :: l ↔ a ∈ l := by
        simp [Ne.symm hb]
      simp only [hmem, ← ih]
      cases hf : f b with
      | none => rw [List.filterMap_cons_none (by rw [hf]; rfl)]
      | some v =>
        rw [List.filterMap_cons_some (by rw [hf]; rfl), List.find?_cons_of_neg]
        simpa using hb

end

theorem nodup_members (j : Jwk) : ((Draft.of j.members).map (·.1)).Nodup := by
  have hnames : (Draft.of j.members).map (·.1) = j.members.map (·.1) := by
    simp [Draft.of]
  rw [hnames, members, map_fst_filterMap]
  exact List.Pairwise.filter _ (by decide)

theorem value?_members (j : Jwk) (m : Member) : (Draft.of j.members).value? m = j.get? m := by
  have hvalue : (Draft.of j.members).value? m = (j.members.find? (·.1 == m)).map (·.2) := by
    have hfind : (Draft.of j.members).find? (·.1 == m) =
        (j.members.find? (·.1 == m)).map fun x => (x.1, some x.2) := List.find?_map
    rw [Draft.value?, hfind]
    cases j.members.find? (·.1 == m) <;> rfl
  have hmem : m ∈ Member.all := by
    cases m <;> decide
  rw [hvalue, members, find?_fst_filterMap, if_pos hmem]

/-- A draft with the values of a JWK is that JWK. -/
theorem Draft.toJwk_of_value? (h : ∀ m, draft.value? m = j.get? m) : draft.toJwk = .ok j := by
  have hneed : ∀ m v, j.get? m = some v → draft.need m = .ok v := by
    intro m v hm
    rw [Draft.need, h, hm]
  simp only [Draft.toJwk, h, hneed .kty j.kty rfl, hneed .kid j.kid rfl,
    hneed .purpose j.purpose rfl, hneed .alg j.alg rfl, hneed .n j.n rfl, hneed .e j.e rfl]
  rfl

/-! ## Texts -/

/-- The text of a JWK is read as that JWK. -/
theorem ofText_text (j : Jwk) : ofText j.text = .ok j := by
  obtain ⟨x, ms, hmembers⟩ : ∃ x ms, j.members = x :: ms := ⟨_, _, rfl⟩
  have hobject := readObject_rendered (hmembers ▸ nodup_members j) []
  have hdraft := Draft.toJwk_of_value? (value?_members j)
  rw [← hmembers] at hobject
  have hbrace : skipBlanks j.render = j.render := rfl
  have hread : readJwk j.render = .ok (j, []) := by
    rw [readJwk, hbrace, render, List.cons_append]
    simp only [hobject, hdraft]
    rfl
  rw [ofText, text, String.toList_ofList, hread]
  rfl

/-- The text of a JWK is read as that JWK. So JWKs of one text are equal; and what was read
from any text is written in a form that is read as the same JWK and written alike again. -/
theorem text_round_trip :
    (∀ j, ofText (text j) = .ok j) ∧ (∀ j j', text j = text j' → j = j') ∧
    ∀ t j, ofText t = .ok j →
      ofText (text j) = .ok j ∧ ∀ j', ofText (text j) = .ok j' → text j' = text j := by
  refine ⟨ofText_text, ?_, ?_⟩
  · intro j j' h
    have hread := ofText_text j
    rw [h, ofText_text j'] at hread
    cases hread
    rfl
  · intro t j _
    refine ⟨ofText_text j, fun j' hread => ?_⟩
    rw [ofText_text j] at hread
    cases hread
    rfl

/-- A JWK that is written with blanks, escapes, a null, a further member, and its members in
another order. -/
def loose : String :=
  "\x7b \"use\":\"\\u0073ig\", \"kid\" : \"\\\"\\/\\u0001\\ud83d\\ude00\",\n" ++
  "\"x\": [1, \x7b\x7d], \"d\": null, \"kty\":\"RSA\",\"n\":\"AQ\",\"alg\":\"RS256\",\"e\":\"AQAB\"\x7d"

theorem text_round_trip_of_loose :
    ∃ j, ofText loose = .ok j ∧ text j ≠ loose ∧ ofText (text j) = .ok j := by
  have hloose : (ofText loose).toOption = some ⟨"RSA", "\"/\x01😀", "sig", "RS256", "AQ", "AQAB",
      none, none, none, none, none, none⟩ := by decide +kernel
  obtain ⟨j, hread⟩ : ∃ j, ofText loose = .ok j := by
    cases hread : ofText loose with
    | error e =>
      rw [hread] at hloose
      cases hloose
    | ok j => exact ⟨j, rfl⟩
  rw [hread] at hloose
  cases hloose
  refine ⟨_, hread, by decide +kernel, ?_⟩
  exact (text_round_trip.2.2 _ _ hread).1

end OperatorKit.Key.Jwk
