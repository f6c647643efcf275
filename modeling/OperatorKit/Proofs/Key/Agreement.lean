import OperatorKit.Key.Jwk
import OperatorKit.Proofs.Key.PrivateKeyInfo

/-!
# The two private forms of a key

A key of two factors has a PKCS#8 text if and only if it has a private JWK. Both
hold the same numbers: those that are read from the configuration that the text is
put into are those that are read from the members of the JWK.
-/

namespace OperatorKit.Key

/-! ## Numbers of a JWK -/

theorem decodeNumber?_encodeNumber (n : Nat) : decodeNumber? (encodeNumber n) = some n := by
  rw [decodeNumber?, encodeNumber, String.toList_ofList, Alphabet.lawful_url.decode?_encode,
    Option.map_some, ofBytes_toBytes]

/-- The number that a member of a JWK stands for. -/
def Jwk.number? (j : Jwk) (m : Member) : Option Nat := (j.get? m).bind decodeNumber?

/-- The numbers of a private JWK. -/
def PrivateNumbers.ofJwk? (j : Jwk) : Option PrivateNumbers := do
  some ⟨← j.number? .n, ← j.number? .e, ← j.number? .d, ← j.number? .p, ← j.number? .q,
    ← j.number? .dp, ← j.number? .dq, ← j.number? .qi⟩

/-! ## Numbers of a configuration -/

/-- What follows the first occurrence of a mark. -/
def behind? (mark : List Char) : List Char → Option (List Char)
  | []      => if mark.isEmpty then some [] else none
  | c :: cs =>
    if mark.isPrefixOf (c :: cs) then some ((c :: cs).drop mark.length) else behind? mark cs

/-- What stands before the first occurrence of a mark. -/
def before? (mark : List Char) : List Char → Option (List Char)
  | []      => if mark.isEmpty then some [] else none
  | c :: cs => if mark.isPrefixOf (c :: cs) then some [] else (before? mark cs).map (c :: ·)

/-- The text of several lines that a configuration holds: it begins below three
quotes and ends at the next three. -/
def multilineText? (s : String) : Option (List Char) :=
  (behind? "\"\"\"\n".toList s.toList).bind (before? "\"\"\"".toList)

/-- The numbers of the private key in a configuration. -/
def PrivateNumbers.ofConfig? (s : String) : Option PrivateNumbers := do
  ofBytes? (← Pem.decode? (← multilineText? s))

theorem before?_append {c : Char} {mark cs : List Char} (h : ∀ d ∈ cs, d ≠ c)
    (rest : List Char) : before? (c :: mark) (cs ++ (c :: mark ++ rest)) = some cs := by
  induction cs with
  | nil =>
    have hmark : (c :: mark).isPrefixOf (c :: mark ++ rest) = true :=
      List.isPrefixOf_iff_prefix.mpr (List.prefix_append _ _)
    exact if_pos hmark
  | cons d ds ih =>
    obtain ⟨hd, hds⟩ := List.forall_mem_cons.mp h
    have hmark : ¬ (c :: mark).isPrefixOf (d :: (ds ++ (c :: mark ++ rest))) = true := by
      intro hprefix
      exact hd (List.cons_prefix_cons.mp (List.isPrefixOf_iff_prefix.mp hprefix)).1.symm
    rw [List.cons_append, before?, if_neg hmark, ih hds, Option.map_some]

theorem Pem.forall_mem_wrap {P : Char → Prop} {width : Nat} (hend : P '\n') {cs : List Char}
    (h : ∀ c ∈ cs, P c) : ∀ c ∈ wrap width cs, P c := by
  fun_induction wrap width cs with
  | case1 => exact fun c hc => absurd hc List.not_mem_nil
  | case2 cs _ ih =>
    refine List.forall_mem_append.mpr ⟨fun c hc => h c (List.mem_of_mem_take hc), ?_⟩
    exact List.forall_mem_cons.mpr ⟨hend, ih fun c hc => h c (List.mem_of_mem_drop hc)⟩

/-- No quote stands in the text of a key, so that it cannot end the text around it. -/
theorem Pem.ne_quote_of_mem_encode {bytes : List UInt8} : ∀ c ∈ Pem.encode bytes, c ≠ '"' := by
  have hletters : ∀ c ∈ Alphabet.standard.encode bytes, c ≠ '"' :=
    Alphabet.forall_mem_encode (by decide) (by decide) bytes
  simp only [encode, List.forall_mem_append, List.forall_mem_cons]
  refine ⟨⟨⟨?_, by decide, forall_mem_wrap (by decide) hletters⟩, ?_⟩, ?_⟩
  · simp [header]
  · simp [footer]
  · simp

theorem multilineText?_configSnippet {pem : String} (h : ∀ c ∈ pem.toList, c ≠ '"') :
    multilineText? (configSnippet pem) = some pem.toList := by
  have hbehind : ∀ cs, behind? "\"\"\"\n".toList (snippetHead.toList ++ cs) = some cs :=
    fun _ => rfl
  have hbefore : before? "\"\"\"".toList (pem.toList ++ snippetTail.toList) = some pem.toList :=
    before?_append h ['\n']
  rw [multilineText?, configSnippet, String.toList_append, String.toList_append,
    List.append_assoc, hbehind, Option.bind_some, hbefore]

/-- What is written into a configuration is read from it. -/
theorem PrivateNumbers.ofConfig?_configSnippet (k : PrivateNumbers) :
    ofConfig? (configSnippet (String.ofList (Pem.encode k.toBytes))) = some k := by
  have hquote : ∀ c ∈ (String.ofList (Pem.encode k.toBytes)).toList, c ≠ '"' := by
    rw [String.toList_ofList]
    exact Pem.ne_quote_of_mem_encode
  rw [ofConfig?, multilineText?_configSnippet hquote, String.toList_ofList, Option.bind_eq_bind,
    Option.bind_some, Pem.decode?_encode, Option.bind_eq_bind, Option.bind_some, ofBytes?_toBytes]

/-! ## Keys of two factors -/

namespace RsaKey

variable {n e d : Nat} {primes : List Nat} {k : RsaKey} {p q : Nat}

/-- A key that is accepted carries the values that follow from its factors. -/
theorem crt_of_ofComponents (h : ofComponents n e d primes = .ok k) :
    k.crt = crtOf? k.d k.primes := by
  unfold ofComponents at h
  split at h
  · cases h
  split at h
  · cases h
  split at h
  · cases h
  · cases h
    rfl

/-- The numbers of a key with the factors `p` and `q`, of which `q` has the inverse `qi`. -/
def numbers (k : RsaKey) (p q qi : Nat) : PrivateNumbers :=
  ⟨k.n, k.e, k.d, p, q, k.d % (p - 1), k.d % (q - 1), qi⟩

theorem pem_of_primes (h : k.primes = [p, q]) :
    k.pem = (inverse? q p).elim (.error .notPkcs8)
      fun qi => .ok (String.ofList (Pem.encode (k.numbers p q qi).toBytes)) := by
  simp only [pem, PrivateNumbers.ofKey, h]
  cases inverse? q p <;> rfl

/-- The private JWK of a key needs the inverse of the second factor, as its text does,
and holds the numbers of the key. -/
theorem ofPrivate_of_primes (h : k.primes = [p, q]) (hcrt : k.crt = crtOf? k.d k.primes)
    (kid purpose alg : String) :
    (inverse? q p = none ∧
      Jwk.ofPrivate k kid purpose alg = .error (.missingComponent "dp")) ∨
    ∃ qi j, inverse? q p = some qi ∧ Jwk.ofPrivate k kid purpose alg = .ok j ∧
      PrivateNumbers.ofJwk? j = some (k.numbers p q qi) := by
  rw [h, crtOf?, Crt.of?] at hcrt
  cases hinverse : inverse? q p with
  | none =>
    rw [hinverse] at hcrt
    exact .inl ⟨rfl, by simp only [Jwk.ofPrivate, h, hcrt, Option.map_none]⟩
  | some qi =>
    rw [hinverse] at hcrt
    simp only [Jwk.ofPrivate, h, hcrt, Option.map_some]
    refine .inr ⟨qi, _, rfl, rfl, ?_⟩
    simp [PrivateNumbers.ofJwk?, Jwk.number?, Jwk.get?, Jwk.ofPublic, decodeNumber?_encodeNumber,
      numbers]

/-- An accepted key of two factors has both private forms or neither. The configuration
with the one and the members of the other give the same numbers, those of the key. -/
theorem pem_agrees_with_jwk (h : ofComponents n e d primes = .ok k) (hprimes : k.primes = [p, q])
    (kid purpose alg : String) :
    ((∃ pem, k.pem = .ok pem) ↔ ∃ j, Jwk.ofPrivate k kid purpose alg = .ok j) ∧
    ∀ pem j, k.pem = .ok pem → Jwk.ofPrivate k kid purpose alg = .ok j →
      ∃ numbers, PrivateNumbers.ofConfig? (configSnippet pem) = some numbers ∧
        PrivateNumbers.ofJwk? j = some numbers ∧
        numbers.n = k.n ∧ numbers.e = k.e ∧ numbers.d = k.d ∧
        numbers.p = p ∧ numbers.q = q := by
  have hpem := pem_of_primes hprimes
  obtain ⟨hinverse, hjwk⟩ | ⟨qi, j, hinverse, hjwk, hnumbers⟩ :=
    ofPrivate_of_primes hprimes (crt_of_ofComponents h) kid purpose alg
  · rw [hinverse, Option.elim_none] at hpem
    simp [hpem, hjwk]
  · rw [hinverse, Option.elim_some] at hpem
    refine ⟨⟨fun _ => ⟨j, hjwk⟩, fun _ => ⟨_, hpem⟩⟩, ?_⟩
    intro pem' j' hpem' hjwk'
    cases hpem.symm.trans hpem'
    cases hjwk.symm.trans hjwk'
    exact ⟨k.numbers p q qi, PrivateNumbers.ofConfig?_configSnippet _, hnumbers, rfl, rfl, rfl,
      rfl, rfl⟩

/-- The key of the factors 61 and 53 has both forms, and they agree. -/
theorem pem_agrees_with_jwk_of_small_factors :
    ∃ k pem j, ofComponents 3233 17 2753 [61, 53] = .ok k ∧ k.primes = [61, 53] ∧
      k.pem = .ok pem ∧ Jwk.ofPrivate k "okta" keyPurpose "RS256" = .ok j ∧
      PrivateNumbers.ofConfig? (configSnippet pem) = PrivateNumbers.ofJwk? j := by
  have haccepted : ofComponents 3233 17 2753 [61, 53] =
      .ok ⟨3233, 17, 2753, [61, 53], crtOf? 2753 [61, 53]⟩ := rfl
  have hinverse : inverse? 53 61 = some 38 := by decide +kernel
  obtain ⟨hboth, hagree⟩ := pem_agrees_with_jwk haccepted rfl "okta" keyPurpose "RS256"
  have hpem := pem_of_primes (k := ⟨3233, 17, 2753, [61, 53], crtOf? 2753 [61, 53]⟩) rfl
  rw [hinverse, Option.elim_some] at hpem
  obtain ⟨j, hj⟩ := hboth.mp ⟨_, hpem⟩
  obtain ⟨numbers, hconfig, hjwk, -⟩ := hagree _ j hpem hj
  exact ⟨_, _, j, haccepted, rfl, hpem, hj, hconfig.trans hjwk.symm⟩

end RsaKey
end OperatorKit.Key
