import OperatorKit.Decimal.Natural

/-!
# Reading back decimal numbers

The digits of a number denote that number, and they do not begin with a zero, unless they are
nothing but one. Below a limit, exactly the numbers that digits denote are read.
-/

namespace OperatorKit.Decimal

variable {c : Char} {cs ds : List Char} {d n limit acc : Nat}

/-! ## Single digits -/

theorem digitValue_digitChar : ∀ d < 10, digitValue (digitChar d) = d := by decide

theorem isDigit_digitChar : ∀ d < 10, (digitChar d).isDigit = true := by decide

theorem digitChar_ne_zero : ∀ d < 10, d ≠ 0 → digitChar d ≠ '0' := by decide

/-! ## Sequences of digits -/

theorem valueFrom_singleton (acc : Nat) (c : Char) : valueFrom acc [c] = acc * 10 + digitValue c :=
  rfl

theorem valueFrom_append (acc : Nat) (cs ds : List Char) :
    valueFrom acc (cs ++ ds) = valueFrom (valueFrom acc cs) ds := by
  induction cs generalizing acc with
  | nil => rfl
  | cons c cs ih => exact ih _

/-- A number is read back from its digits. -/
theorem value_digits (n : Nat) : value (digits n) = n := by
  fun_induction digits n with
  | case1 n hlt =>
    rw [value, valueFrom_singleton, digitValue_digitChar n hlt, Nat.zero_mul, Nat.zero_add]
  | case2 n hge ih =>
    rw [value] at ih ⊢
    rw [valueFrom_append, ih, valueFrom_singleton,
      digitValue_digitChar _ (Nat.mod_lt n (by decide)), Nat.div_add_mod']

theorem isDigit_of_mem_digits (h : c ∈ digits n) : c.isDigit = true := by
  fun_induction digits n with
  | case1 n hlt => exact List.mem_singleton.mp h ▸ isDigit_digitChar n hlt
  | case2 n hge ih =>
    obtain h | h := List.mem_append.mp h
    · exact ih h
    · exact List.mem_singleton.mp h ▸ isDigit_digitChar _ (Nat.mod_lt n (by decide))

/-- Every number has a digit, and only zero has a zero in front. -/
theorem digits_eq_cons (n : Nat) : ∃ c cs, digits n = c :: cs ∧ (c = '0' → cs = []) := by
  -- The first digit is that of the number without its last digit, which is not zero then.
  suffices h : ∃ c cs, digits n = c :: cs ∧ (n ≠ 0 → c ≠ '0') ∧ (n = 0 → cs = []) by
    obtain ⟨c, cs, hdigits, hfirst, hzero⟩ := h
    exact ⟨c, cs, hdigits, fun hc => hzero (Decidable.byContradiction fun hn => hfirst hn hc)⟩
  fun_induction digits n with
  | case1 n hlt => exact ⟨digitChar n, [], rfl, digitChar_ne_zero n hlt, fun _ => rfl⟩
  | case2 n hge ih =>
    obtain ⟨c, cs, hdigits, hfirst, -⟩ := ih
    refine ⟨c, cs ++ [digitChar (n % 10)], by rw [hdigits]; rfl, fun _ => hfirst (by omega), ?_⟩
    rintro rfl
    exact absurd (by decide) hge

/-! ## Reading below a limit -/

/-- One or more digits. -/
structure Numeral where
  digits : List Char
  ne_nil : digits ≠ []
  isDigit : ∀ c ∈ digits, c.isDigit = true

/-- The number that a numeral denotes. -/
def Numeral.value (k : Numeral) : Nat := Decimal.value k.digits

theorem valueFrom_cons (acc : Nat) (c : Char) (cs : List Char) :
    valueFrom acc (c :: cs) = valueFrom (acc * 10 + digitValue c) cs := by
  rw [← List.singleton_append, valueFrom_append, valueFrom_singleton]

theorem readDigits_cons (limit acc : Nat) (c : Char) (cs : List Char) :
    readDigits limit acc (c :: cs) =
      if !c.isDigit then .error .invalidDigit
      else if acc * 10 + digitValue c < limit then readDigits limit (acc * 10 + digitValue c) cs
      else .error .tooLarge := rfl

theorem le_valueFrom (acc : Nat) (cs : List Char) : acc ≤ valueFrom acc cs := by
  induction cs generalizing acc with
  | nil => exact Nat.le_refl acc
  | cons c cs ih =>
    have := ih (acc * 10 + digitValue c)
    rw [valueFrom_cons]
    omega

theorem readDigits_eq_ok_iff (hacc : acc < limit) :
    readDigits limit acc cs = .ok n ↔
      (∀ c ∈ cs, c.isDigit = true) ∧ valueFrom acc cs = n ∧ n < limit := by
  induction cs generalizing acc with
  | nil =>
    constructor
    · intro h
      cases h
      exact ⟨List.forall_mem_nil _, rfl, hacc⟩
    · rintro ⟨-, rfl, -⟩
      rfl
  | cons c cs ih =>
    simp only [readDigits_cons, valueFrom_cons, List.forall_mem_cons, Bool.not_eq_true']
    split
    case isTrue hc => simp [hc]
    case isFalse hc =>
      split
      case isTrue hlt => simp [ih hlt, hc]
      case isFalse hge =>
        -- A number that has reached the limit does not come below it again.
        have := le_valueFrom (acc * 10 + digitValue c) cs
        simp only [reduceCtorEq, false_iff]
        omega

/-- What is read is a numeral, with or without a plus sign in front. -/
theorem read_eq_ok_iff (hlimit : 0 < limit) :
    read limit cs = .ok n ↔
      ∃ k : Numeral, (cs = k.digits ∨ cs = '+' :: k.digits) ∧ k.value = n ∧ n < limit := by
  constructor
  · intro h
    unfold read at h
    split at h
    case h_1 => cases h
    case h_2 => cases h
    case h_3 cs hcs =>
      obtain ⟨hdigits, hvalue, hn⟩ := (readDigits_eq_ok_iff hlimit).mp h
      exact ⟨⟨cs, fun hnil => hcs (hnil ▸ rfl), hdigits⟩, .inr rfl, hvalue, hn⟩
    case h_4 hnil _ _ =>
      obtain ⟨hdigits, hvalue, hn⟩ := (readDigits_eq_ok_iff hlimit).mp h
      exact ⟨⟨cs, hnil, hdigits⟩, .inl rfl, hvalue, hn⟩
  · rintro ⟨⟨ds, hnil, hdigits⟩, hcs, hvalue, hn⟩
    have hread := (readDigits_eq_ok_iff hlimit).mpr ⟨hdigits, hvalue, hn⟩
    obtain ⟨d, ds, rfl⟩ := List.exists_cons_of_ne_nil hnil
    rcases hcs with rfl | rfl
    · have hplus : d ≠ '+' := by
        rintro rfl
        exact absurd (hdigits '+' List.mem_cons_self) (by decide)
      simpa [read, hplus] using hread
    · simpa [read] using hread

namespace Numeral

theorem ne_plus (k : Numeral) (ds : List Char) : k.digits ≠ '+' :: ds := by
  intro h
  exact absurd (k.isDigit '+' (h ▸ List.mem_cons_self)) (by decide)

/-- A numeral is read as the number that it denotes if that is below the limit. -/
theorem read_eq_ok (k : Numeral) (h : k.value < limit) : read limit k.digits = .ok k.value :=
  (read_eq_ok_iff (Nat.zero_lt_of_lt h)).mpr ⟨k, .inl rfl, rfl, h⟩

theorem read_eq_error (k : Numeral) (hlimit : 0 < limit) (h : limit ≤ k.value) :
    ∃ e, read limit k.digits = .error e := by
  cases hread : read limit k.digits with
  | error e => exact ⟨e, rfl⟩
  | ok n =>
    obtain ⟨k', hk' | hk', hvalue, hn⟩ := (read_eq_ok_iff hlimit).mp hread
    · rw [value, ← hk'] at hvalue
      exact absurd hn (Nat.not_lt.mpr (hvalue ▸ h))
    · exact absurd hk' (k.ne_plus k'.digits)

end Numeral
end OperatorKit.Decimal
