import Mathlib.Data.List.Basic
import OperatorKit.Proofs.Key.Agreement
import OperatorKit.Proofs.Key.Modular

/-!
# The numbers of a private JWK

What numbers have to satisfy to be accepted as a key, and what follows from it for the
numbers of its private JWK: they are an RSA key with the values for the Chinese remainder
theorem. It makes no difference whether the factors were given or computed, or are prime.
-/

namespace OperatorKit.Key

/-- Numbers that fit together as a private key: the exponents undo each other modulo each
factor less one, and `qi` undoes `q` modulo `p`. -/
structure PrivateNumbers.Consistent (k : PrivateNumbers) : Prop where
  modulus : k.n = k.p * k.q
  dp : k.dp = k.d % (k.p - 1)
  dq : k.dq = k.d % (k.q - 1)
  exponent_dp : k.e * k.dp ≡ 1 [MOD k.p - 1]
  exponent_dq : k.e * k.dq ≡ 1 [MOD k.q - 1]
  qi_lt : k.qi < k.p
  qi : k.qi * k.q ≡ 1 [MOD k.p]

namespace RsaKey

variable {n e d : Nat} {primes ps : List Nat} {k : RsaKey} {p q : Nat}

/-! ## Acceptance -/

/-- A key whose numbers were accepted: they are those that were given, and so are its
factors if any were. -/
structure Accepted (n e d : Nat) (primes : List Nat) (k : RsaKey) : Prop where
  n_eq : k.n = n
  e_eq : k.e = e
  d_eq : k.d = d
  primes_eq : primes ≠ [] → k.primes = primes
  modulus : product k.primes = n
  factor_gt : ∀ p ∈ k.primes, 1 < p
  exponents : ∀ p ∈ k.primes, d * e % (p - 1) = 1

theorem factors_eq (h : factors n e d primes = .ok ps) (hne : primes ≠ []) : ps = primes := by
  unfold factors at h
  split at h
  case h_1 => exact absurd rfl hne
  case h_2 => cases h
  case h_3 =>
    cases h
    rfl

theorem checkPrivate_eq_ok (h : checkPrivate n e d ps = .ok ()) :
    product ps = n ∧ (∀ p ∈ ps, 1 < p) ∧ ∀ p ∈ ps, d * e % (p - 1) = 1 := by
  unfold checkPrivate at h
  split at h
  case isTrue => cases h
  case isFalse hfactors =>
    split at h
    case isTrue => cases h
    case isFalse hproduct =>
      split at h
      case isTrue => cases h
      case isFalse hexponents =>
        refine ⟨not_not.mp hproduct, ?_, ?_⟩
        · simpa using hfactors
        · simpa using hexponents

theorem accepted_of_ofComponents (h : ofComponents n e d primes = .ok k) :
    Accepted n e d primes k := by
  unfold ofComponents at h
  split at h
  case h_1 => cases h
  case h_2 ps hfactors =>
    split at h
    case h_1 => cases h
    case h_2 =>
      split at h
      case h_1 => cases h
      case h_2 hprivate =>
        cases h
        obtain ⟨hproduct, hgt, hexponents⟩ := checkPrivate_eq_ok hprivate
        exact ⟨rfl, rfl, rfl, factors_eq hfactors, hproduct, hgt, hexponents⟩

/-! ## Keys of two factors -/

theorem modEq_reduced (h : d * e % (p - 1) = 1) : e * (d % (p - 1)) ≡ 1 [MOD p - 1] := by
  have hreduced : e * (d % (p - 1)) ≡ e * d [MOD p - 1] := (Nat.mod_modEq _ _).mul_left e
  apply hreduced.trans
  rw [Nat.mul_comm]
  -- A remainder of one leaves only moduli of at least two.
  have hone := Nat.mod_mod (d * e) (p - 1)
  rw [h] at hone
  exact h.trans hone.symm

/-- The numbers of an accepted key fit together, with an inverse of its second factor. -/
theorem Accepted.consistent {qi : Nat} (h : Accepted n e d primes k) (hprimes : k.primes = [p, q])
    (hqi : inverse? q p = some qi) : (k.numbers p q qi).Consistent := by
  have hmodulus := h.modulus
  have hgt := h.factor_gt
  have hexponents := h.exponents
  rw [hprimes] at hmodulus hgt hexponents
  have hp : 0 < p := Nat.lt_trans Nat.one_pos (hgt p List.mem_cons_self)
  obtain ⟨hlt, hinverse⟩ := inverse?_eq_some hp hqi
  have hmul : q * qi = qi * q := Nat.mul_comm q qi
  refine ⟨?_, rfl, rfl, ?_, ?_, hlt, hmul ▸ hinverse⟩
  · simpa [numbers, product, h.n_eq] using hmodulus.symm
  · simpa [numbers, h.e_eq, h.d_eq] using modEq_reduced (hexponents p (by simp))
  · simpa [numbers, h.e_eq, h.d_eq] using modEq_reduced (hexponents q (by simp))

/-! ## Private JWKs -/

/-- A key has a private JWK only if it has two factors. -/
theorem ofPrivate_of_length_ne (h : k.primes.length ≠ 2) (kid purpose alg : String) :
    Jwk.ofPrivate k kid purpose alg = .error (.primeCount k.primes.length) := by
  unfold Jwk.ofPrivate
  split
  case h_1 hprimes =>
    rw [hprimes] at h
    exact absurd rfl h
  case h_2 => rfl

/-- A private JWK has the modulus and the exponent of the public one. -/
theorem public_of_ofPrivate {kid purpose alg : String} {j : Jwk}
    (h : Jwk.ofPrivate k kid purpose alg = .ok j) :
    j.n = (Jwk.ofPublic k kid purpose alg).n ∧ j.e = (Jwk.ofPublic k kid purpose alg).e := by
  unfold Jwk.ofPrivate at h
  split at h
  case h_1 =>
    split at h
    case h_1 => cases h
    case h_2 =>
      cases h
      exact ⟨rfl, rfl⟩
  case h_2 => cases h

/-- What becomes of the private JWK of an accepted key with two factors: it depends on
whether the second factor is invertible modulo the first. -/
theorem Accepted.ofPrivate_cases (h : Accepted n e d primes k) (hprimes : k.primes = [p, q])
    (hcrt : k.crt = crtOf? k.d k.primes) (kid purpose alg : String) :
    ((¬ ∃ x, q * x ≡ 1 [MOD p]) ∧
      Jwk.ofPrivate k kid purpose alg = .error (.missingComponent "dp")) ∨
    (∃ x, q * x ≡ 1 [MOD p]) ∧ ∃ qi j, Jwk.ofPrivate k kid purpose alg = .ok j ∧
      PrivateNumbers.ofJwk? j = some (k.numbers p q qi) ∧ (k.numbers p q qi).Consistent := by
  have hp : 0 < p := by
    have := h.factor_gt p (by simp [hprimes])
    omega
  obtain ⟨hnone, hjwk⟩ | ⟨qi, j, hqi, hjwk, hnumbers⟩ :=
    ofPrivate_of_primes hprimes hcrt kid purpose alg
  · exact .inl ⟨(inverse?_eq_none_iff hp).mp hnone, hjwk⟩
  · refine .inr ⟨⟨qi, (inverse?_eq_some hp hqi).2⟩, qi, j, hjwk, hnumbers, ?_⟩
    exact h.consistent hprimes hqi

/-- An accepted key has a private JWK if and only if it has two factors, the second of
which is invertible modulo the first; else it is known what is missing. The members of the
JWK are numbers that fit together, those of the key and of its public JWK. -/
theorem ofPrivate_consistent (h : ofComponents n e d primes = .ok k) (kid purpose alg : String) :
    (k.n = n ∧ k.e = e ∧ k.d = d ∧ (primes ≠ [] → k.primes = primes)) ∧
    ((∃ j, Jwk.ofPrivate k kid purpose alg = .ok j) ↔
      ∃ p q, k.primes = [p, q] ∧ ∃ x, q * x ≡ 1 [MOD p]) ∧
    (k.primes.length ≠ 2 →
      Jwk.ofPrivate k kid purpose alg = .error (.primeCount k.primes.length)) ∧
    (∀ p q, k.primes = [p, q] → (¬ ∃ x, q * x ≡ 1 [MOD p]) →
      Jwk.ofPrivate k kid purpose alg = .error (.missingComponent "dp")) ∧
    ∀ j, Jwk.ofPrivate k kid purpose alg = .ok j →
      j.n = (Jwk.ofPublic k kid purpose alg).n ∧ j.e = (Jwk.ofPublic k kid purpose alg).e ∧
      ∃ numbers, PrivateNumbers.ofJwk? j = some numbers ∧ numbers.Consistent ∧
        numbers.n = n ∧ numbers.e = e ∧ numbers.d = d ∧ k.primes = [numbers.p, numbers.q] := by
  have haccepted := accepted_of_ofComponents h
  have hcases := fun p q hprimes =>
    haccepted.ofPrivate_cases (p := p) (q := q) hprimes (crt_of_ofComponents h) kid purpose alg
  have htwo : ∀ j, Jwk.ofPrivate k kid purpose alg = .ok j → ∃ p q, k.primes = [p, q] := by
    intro j hj
    by_cases hlength : k.primes.length = 2
    case pos => exact List.length_eq_two.mp hlength
    case neg =>
      rw [ofPrivate_of_length_ne hlength] at hj
      cases hj
  refine ⟨⟨haccepted.n_eq, haccepted.e_eq, haccepted.d_eq, haccepted.primes_eq⟩, ⟨?_, ?_⟩,
    fun hlength => ofPrivate_of_length_ne hlength kid purpose alg, ?_, ?_⟩
  · rintro ⟨j, hj⟩
    obtain ⟨p, q, hprimes⟩ := htwo j hj
    obtain ⟨-, hfail⟩ | ⟨hx, -⟩ := hcases p q hprimes
    · rw [hfail] at hj
      cases hj
    · exact ⟨p, q, hprimes, hx⟩
  · rintro ⟨p, q, hprimes, hx⟩
    obtain ⟨hnot, -⟩ | ⟨-, qi, j, hj, -⟩ := hcases p q hprimes
    · exact absurd hx hnot
    · exact ⟨j, hj⟩
  · intro p q hprimes hnot
    obtain ⟨-, hfail⟩ | ⟨hx, -⟩ := hcases p q hprimes
    · exact hfail
    · exact absurd hx hnot
  · intro j hj
    obtain ⟨hn, he⟩ := public_of_ofPrivate hj
    obtain ⟨p, q, hprimes⟩ := htwo j hj
    obtain ⟨-, hfail⟩ | ⟨-, qi, j', hj', hnumbers, hconsistent⟩ := hcases p q hprimes
    · rw [hfail] at hj
      cases hj
    · rw [hj'] at hj
      cases hj
      exact ⟨hn, he, _, hnumbers, hconsistent, haccepted.n_eq, haccepted.e_eq, haccepted.d_eq,
        hprimes⟩

/-- The factors 659 and 563 are computed from the exponents, and fit together with them. -/
theorem ofPrivate_consistent_of_computed_factors :
    ∃ k j numbers, ofComponents 371017 65537 663 [] = .ok k ∧ k.primes = [659, 563] ∧
      Jwk.ofPrivate k "okta" keyPurpose "RS256" = .ok j ∧
      PrivateNumbers.ofJwk? j = some numbers ∧ numbers.Consistent := by
  have haccepted : ofComponents 371017 65537 663 [] =
      .ok ⟨371017, 65537, 663, [659, 563], crtOf? 663 [659, 563]⟩ := by decide +kernel
  obtain ⟨-, hiff, -, -, hnumbers⟩ :=
    ofPrivate_consistent haccepted "okta" keyPurpose "RS256"
  obtain ⟨j, hj⟩ := hiff.mpr ⟨659, 563, rfl, 405, by decide⟩
  obtain ⟨-, -, numbers, hnumbers, hconsistent, -⟩ := hnumbers j hj
  exact ⟨_, j, numbers, haccepted, rfl, hj, hnumbers, hconsistent⟩

end RsaKey
end OperatorKit.Key
