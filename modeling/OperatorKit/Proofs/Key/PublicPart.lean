import OperatorKit.Proofs.Json.RoundTrip
import OperatorKit.Proofs.Key.Base64
import OperatorKit.Proofs.Key.JwkText

/-!
# The public part of a private JWK

A public JWK tells the modulus and the public exponent of a key and nothing else about it.
Its text is that of the private JWK up to the private exponent, whatever characters stand
in the strings that an operator gives.
-/

namespace OperatorKit.Key

open Json

/-! ## Numbers in quotes -/

/-- No letter of a number needs an escape. -/
theorem escape_of_mem_encodeNumber (n : Nat) : ∀ c ∈ (encodeNumber n).toList, escape c = [c] := by
  rw [encodeNumber, String.toList_ofList]
  exact Alphabet.forall_mem_encode (by decide) (by decide) (toBytes n)

theorem quote_of_forall_escape {s : String} (h : ∀ c ∈ s.toList, escape c = [c]) :
    quote s = '"' :: s.toList ++ ['"'] := by
  rw [quote, List.flatMap_congr h, List.flatMap_singleton']

namespace Jwk

variable {k : RsaKey} {kid purpose alg : String} {j : Jwk}

/-! ## Members as text -/

theorem Member.quote_name (m : Member) : quote m.name = '"' :: m.name.toList ++ ['"'] := by
  cases m <;> rfl

/-- A member as it stands behind others, with a value in which nothing needs an escape. -/
def memberText (name value : String) : String := ",\"" ++ name ++ "\":\"" ++ value ++ "\""

theorem renderMembers_cons_encodeNumber (m : Member) (n : Nat) (ms : List (Member × String)) :
    renderMembers false ((m, encodeNumber n) :: ms) =
      (memberText m.name (encodeNumber n)).toList ++ renderMembers false ms := by
  simp [renderMembers, memberText, m.quote_name,
    quote_of_forall_escape (escape_of_mem_encodeNumber n)]

theorem renderMembers_false_append (ms ms' : List (Member × String)) :
    renderMembers false (ms ++ ms') = renderMembers false ms ++ renderMembers false ms' := by
  induction ms with
  | nil => rfl
  | cons x ms ih => simp [renderMembers, ih]

/-- Only the first of all members has no comma in front. -/
theorem renderMembers_true_append {ms : List (Member × String)} (h : ms ≠ [])
    (ms' : List (Member × String)) :
    renderMembers true (ms ++ ms') = renderMembers true ms ++ renderMembers false ms' := by
  cases ms with
  | nil => exact absurd rfl h
  | cons x ms => simp [renderMembers, renderMembers_false_append]

/-! ## A JWK as a value -/

/-- Members as those of an object. -/
def stringMembers (ms : List (Member × String)) : List (String × Value) :=
  ms.map fun x => (x.1.name, .string x.2)

/-- A JWK is an object whose members are strings. -/
def value (j : Jwk) : Value := .object (stringMembers j.members)

theorem renderMembers_stringMembers (ms : List (Member × String)) :
    Value.renderMembers (stringMembers ms) = renderMembers true ms ++ ['\x7d'] := by
  induction ms with
  | nil => rfl
  | cons x ms ih =>
    cases ms with
    | nil => simp [stringMembers, renderMembers, Value.renderMembers, Value.render]
    | cons y ms =>
      have hcons : Value.renderMembers (stringMembers (x :: y :: ms)) =
          quote x.1.name ++ ':' :: quote x.2 ++
            ',' :: Value.renderMembers (stringMembers (y :: ms)) := by
        simp [stringMembers, Value.renderMembers, Value.render]
      rw [hcons, ih]
      simp [renderMembers]

theorem text_value (j : Jwk) : j.value.text = j.text := by
  rw [Value.text, value, Value.render, renderMembers_stringMembers, text, render,
    List.cons_append]

/-- The text of a JWK is read as an object with its members in the order of their names. -/
theorem value_ofText_text (j : Jwk) :
    Value.ofText j.text = .ok (.object (insertMembers [] (stringMembers j.members))) := by
  rw [← text_value, value]
  refine Value.ofText_object fun m hm => ?_
  obtain ⟨x, -, rfl⟩ := List.mem_map.mp hm
  exact .string _ x.2

/-- The public text is an object of exactly six members. -/
theorem value_ofText_ofPublic (k : RsaKey) (kid purpose alg : String) :
    Value.ofText (ofPublic k kid purpose alg).text = .ok (.object
      [("alg", .string alg), ("e", .string (encodeNumber k.e)), ("kid", .string kid),
        ("kty", .string keyType), ("n", .string (encodeNumber k.n)),
        ("use", .string purpose)]) := by
  have hmembers : stringMembers (ofPublic k kid purpose alg).members =
      [("kty", .string keyType), ("kid", .string kid), ("use", .string purpose),
        ("alg", .string alg), ("n", .string (encodeNumber k.n)),
        ("e", .string (encodeNumber k.e))] := rfl
  have hnames : ["alg", "e", "kid", "kty", "n", "use"].Pairwise (· < ·) := by decide
  rw [value_ofText_text, hmembers]
  congr 2
  -- Both lists are in order, so that they are compared name by name.
  refine (ascending_insertMembers .nil _).ext (List.pairwise_map.mp hnames) fun name => ?_
  simp only [insertMembers, insertMember, List.foldl, Sorted.find?_insert, Sorted.find?]
  grind

/-! ## The two forms of a key -/

/-- The members of a private JWK that its public form lacks. -/
def privateMembers (k : RsaKey) (p q : Nat) (crt : Crt) : List (Member × String) :=
  [(.d, encodeNumber k.d), (.p, encodeNumber p), (.q, encodeNumber q),
    (.dp, encodeNumber crt.dp), (.dq, encodeNumber crt.dq), (.qi, encodeNumber crt.qi)]

theorem members_of_ofPrivate (h : ofPrivate k kid purpose alg = .ok j) :
    ∃ p q crt, k.primes = [p, q] ∧ k.crt = some crt ∧
      j.members = (ofPublic k kid purpose alg).members ++ privateMembers k p q crt ∧
      j.isPrivate = true := by
  unfold ofPrivate at h
  split at h
  case h_1 p q hprimes =>
    split at h
    case h_1 => cases h
    case h_2 crt hcrt =>
      cases h
      exact ⟨p, q, crt, hprimes, hcrt, rfl, rfl⟩
  case h_2 => cases h

/-- What the text of a private JWK has in front of its closing brace and the public one lacks. -/
def privateText (k : RsaKey) (p q : Nat) (crt : Crt) : String :=
  memberText "d" (encodeNumber k.d) ++ memberText "p" (encodeNumber p) ++
    memberText "q" (encodeNumber q) ++ memberText "dp" (encodeNumber crt.dp) ++
    memberText "dq" (encodeNumber crt.dq) ++ memberText "qi" (encodeNumber crt.qi)

theorem renderMembers_privateMembers (k : RsaKey) (p q : Nat) (crt : Crt) :
    renderMembers false (privateMembers k p q crt) = (privateText k p q crt).toList := by
  have hend : renderMembers false [] = [] := rfl
  simp only [privateMembers, renderMembers_cons_encodeNumber, hend, List.append_nil, privateText,
    String.toList_append, List.append_assoc]
  rfl

/-- The texts of both forms are the same up to the brace that closes the public one. -/
theorem texts_of_ofPrivate (h : ofPrivate k kid purpose alg = .ok j) :
    ∃ shared p q crt, k.primes = [p, q] ∧ k.crt = some crt ∧
      (ofPublic k kid purpose alg).text = shared ++ "\x7d" ∧
      j.text = shared ++ privateText k p q crt ++ "\x7d" := by
  obtain ⟨p, q, crt, hprimes, hcrt, hmembers, -⟩ := members_of_ofPrivate h
  have hne : (ofPublic k kid purpose alg).members ≠ [] := List.cons_ne_nil _ _
  refine ⟨String.ofList ('\x7b' :: renderMembers true (ofPublic k kid purpose alg).members),
    p, q, crt, hprimes, hcrt, ?_, ?_⟩
  · refine String.toList_injective ?_
    simp [text, render]
  · refine String.toList_injective ?_
    rw [text, String.toList_ofList, render, hmembers, renderMembers_true_append hne,
      renderMembers_privateMembers]
    simp

/-- The text of a private JWK is that of the public one without its closing brace, followed by
the private numbers. The public text is an object of six members and is read as a JWK that is
not private. It depends on the modulus and on the public exponent of the key alone. -/
theorem public_part_of_ofPrivate (kid purpose alg : String) :
    (∀ k j, ofPrivate k kid purpose alg = .ok j →
      (∃ shared p q crt, k.primes = [p, q] ∧ k.crt = some crt ∧
        (ofPublic k kid purpose alg).text = shared ++ "\x7d" ∧
        j.text = shared ++ privateText k p q crt ++ "\x7d") ∧
      Value.ofText (ofPublic k kid purpose alg).text = .ok (.object
        [("alg", .string alg), ("e", .string (encodeNumber k.e)), ("kid", .string kid),
          ("kty", .string keyType), ("n", .string (encodeNumber k.n)),
          ("use", .string purpose)]) ∧
      (∃ i, ofText (ofPublic k kid purpose alg).text = .ok i ∧ i.isPrivate = false) ∧
      ∃ i, ofText j.text = .ok i ∧ i.isPrivate = true) ∧
    ∀ k k' : RsaKey, k.n = k'.n → k.e = k'.e →
      (ofPublic k kid purpose alg).text = (ofPublic k' kid purpose alg).text := by
  refine ⟨fun k j h => ⟨texts_of_ofPrivate h, value_ofText_ofPublic k kid purpose alg,
    ⟨_, ofText_text _, rfl⟩, ⟨j, ofText_text j, ?_⟩⟩, ?_⟩
  · obtain ⟨-, -, -, -, -, -, hprivate⟩ := members_of_ofPrivate h
    exact hprivate
  · intro k k' hn he
    rw [ofPublic, ofPublic, hn, he]

/-- The name of a key may look like the members that the public text lacks. -/
theorem public_part_of_misleading_name :
    ∃ k j shared more, RsaKey.ofComponents 3233 17 2753 [61, 53] = .ok k ∧
      ofPrivate k "okta\",\"d\":\"CsE" keyPurpose "RS256" = .ok j ∧
      (ofPublic k "okta\",\"d\":\"CsE" keyPurpose "RS256").text = shared ++ "\x7d" ∧
      j.text = shared ++ (memberText "d" "CsE" ++ more) ∧
      ∃ i, ofText (shared ++ "\x7d") = .ok i ∧ i.isPrivate = false := by
  have haccepted : RsaKey.ofComponents 3233 17 2753 [61, 53] =
      .ok ⟨3233, 17, 2753, [61, 53], some ⟨53, 49, 38⟩⟩ := by decide +kernel
  obtain ⟨k, hk, hd, j, hj⟩ : ∃ k, RsaKey.ofComponents 3233 17 2753 [61, 53] = .ok k ∧
      k.d = 2753 ∧ ∃ j, ofPrivate k "okta\",\"d\":\"CsE" keyPurpose "RS256" = .ok j :=
    ⟨_, haccepted, rfl, _, rfl⟩
  obtain ⟨⟨shared, p, q, crt, -, -, hpublic, hprivate⟩, -, hread, -⟩ :=
    (public_part_of_ofPrivate "okta\",\"d\":\"CsE" keyPurpose "RS256").1 k j hj
  have hexponent : encodeNumber 2753 = "CsE" := by decide +kernel
  simp only [privateText, hd, hexponent, String.append_assoc] at hprivate
  rw [hpublic] at hread
  exact ⟨k, j, shared, _, hk, hj, hpublic, hprivate, hread⟩

end Jwk
end OperatorKit.Key
