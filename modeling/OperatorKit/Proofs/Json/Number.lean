import OperatorKit.Json.Number
import OperatorKit.Proofs.Decimal.Natural

/-!
# Reading back whole numbers

A whole number that fits in 64 bits, with a sign or without, is read back from its digits. No
other whole number is ever read: what does not fit becomes a double.
-/

namespace OperatorKit.Json

open Decimal (digits)

variable {c : Char} {cs ds rest : List Char} {m : Nat} {n : Int} {negative : Bool}

/-! ## Ends -/

/-- A text does not go on with a number that stands before it. -/
def Ends (rest : List Char) : Prop :=
  ∀ c, rest.head? = some c → c.isDigit = false ∧ c ≠ '.' ∧ c ≠ 'e' ∧ c ≠ 'E'

theorem ends_nil : Ends [] := fun _ h => by cases h

theorem ends_cons (h : c.isDigit = false ∧ c ≠ '.' ∧ c ≠ 'e' ∧ c ≠ 'E') : Ends (c :: cs) := by
  intro d hd
  cases hd
  exact h

/-! ## Parts -/

/-- One or more digits. -/
def Digits (ds : List Char) : Prop := ds ≠ [] ∧ ∀ c ∈ ds, c.isDigit = true

/-- The digits of a whole number, which begin with a zero only if they are one. -/
def WholeDigits (ds : List Char) : Prop := Digits ds ∧ (ds.head? = some '0' → ds = ['0'])

instance (ds : List Char) : Decidable (Digits ds) :=
  @instDecidableAnd _ _ _ (List.decidableBAll _ ds)

instance (ds : List Char) : Decidable (WholeDigits ds) := inferInstanceAs (Decidable (_ ∧ _))

theorem spanDigits_append (hds : ∀ c ∈ ds, c.isDigit = true)
    (hrest : ∀ c, rest.head? = some c → c.isDigit = false) :
    spanDigits (ds ++ rest) = (ds, rest) := by
  rw [spanDigits, List.takeWhile_append_of_pos hds, List.dropWhile_append_of_pos hds]
  cases rest with
  | nil => simp
  | cons c rest => simp [hrest c rfl]

theorem readDigits_append (hds : Digits ds) (hrest : ∀ c, rest.head? = some c → c.isDigit = false) :
    readDigits (ds ++ rest) = .ok (ds, rest) := by
  obtain ⟨hne, hds⟩ := hds
  obtain ⟨c, cs, rfl⟩ := List.exists_cons_of_ne_nil hne
  rw [readDigits, spanDigits_append hds hrest]

theorem readWhole_append (hds : WholeDigits ds)
    (hrest : ∀ c, rest.head? = some c → c.isDigit = false) :
    readWhole (ds ++ rest) = .ok (ds, rest) := by
  obtain ⟨hdigits, hzero⟩ := hds
  rw [readWhole, readDigits_append hdigits hrest]
  split
  case h_1 heq =>
    cases heq
    cases hzero rfl
  case h_2 => rfl

theorem wholeDigits_digits (m : Nat) : WholeDigits (digits m) := by
  obtain ⟨c, cs, hdigits, hzero⟩ := Decimal.digits_eq_cons m
  refine ⟨⟨by simp [hdigits], fun c => Decimal.isDigit_of_mem_digits⟩, fun hhead => ?_⟩
  rw [hdigits] at hhead ⊢
  cases hhead
  rw [hzero rfl]

theorem readWhole_digits (m : Nat) (hrest : Ends rest) :
    readWhole (digits m ++ rest) = .ok (digits m, rest) :=
  readWhole_append (wholeDigits_digits m) fun c hc => (hrest c hc).1

theorem readFraction_of_ends (hrest : Ends rest) : readFraction rest = .ok (none, rest) := by
  cases rest with
  | nil => rfl
  | cons c rest =>
    obtain ⟨-, hpoint, -⟩ := hrest c rfl
    simp [readFraction, hpoint]

theorem readExponent_of_ends (hrest : Ends rest) : readExponent rest = .ok (none, rest) := by
  cases rest with
  | nil => rfl
  | cons c rest =>
    obtain ⟨-, -, hsmall, hlarge⟩ := hrest c rfl
    simp [readExponent, hsmall, hlarge]

theorem readUnsigned_digits (negative : Bool) (m : Nat) (hrest : Ends rest) :
    readUnsigned negative (digits m ++ rest) = .ok (⟨negative, digits m, none, none⟩, rest) := by
  simp only [readUnsigned, readWhole_digits m hrest, readFraction_of_ends hrest,
    readExponent_of_ends hrest]

/-! ## Numbers -/

/-- A whole number fits in 64 bits, with a sign or without. -/
def Number.Fits : Number → Prop
  | .integer n => (-n).toNat ≤ 2 ^ 63 ∧ n.toNat < 2 ^ 64
  | .float _   => True

theorem number_of_positive (h : m < 2 ^ 64) :
    (⟨false, digits m, none, none⟩ : Numeral).number = .ok (.integer m) := by
  simp only [Numeral.number, Decimal.value_digits]
  exact if_pos (by simpa using h)

theorem number_of_negative (h : 0 < m ∧ m ≤ 2 ^ 63) :
    (⟨true, digits m, none, none⟩ : Numeral).number = .ok (.integer (-m)) := by
  simp only [Numeral.number, Decimal.value_digits]
  rw [if_neg (by simp)]
  exact if_pos (by simpa using h)

/-- A whole number that fits is read back from its text. -/
theorem readNumber_integerText (h : (Number.integer n).Fits) (hrest : Ends rest) :
    readNumber (integerText n ++ rest) = .ok (.integer n, rest) := by
  obtain ⟨hlow, hhigh⟩ := h
  rw [integerText]
  split
  case isTrue hneg =>
    have hnumeral : readNumeral ('-' :: (digits n.natAbs ++ rest)) =
        .ok (⟨true, digits n.natAbs, none, none⟩, rest) := readUnsigned_digits true _ hrest
    have habs : -(n.natAbs : Int) = n := by omega
    simp only [readNumber, List.cons_append, hnumeral,
      number_of_negative (m := n.natAbs) (by omega), habs]
  case isFalse hpos =>
    obtain ⟨c, cs, hdigits, -⟩ := Decimal.digits_eq_cons n.natAbs
    have hminus : c ≠ '-' := by
      rintro rfl
      exact absurd (Decimal.isDigit_of_mem_digits (hdigits ▸ List.mem_cons_self)) (by decide)
    have hnumeral : readNumeral (digits n.natAbs ++ rest) =
        .ok (⟨false, digits n.natAbs, none, none⟩, rest) := by
      rw [← readUnsigned_digits false _ hrest, hdigits, List.cons_append]
      simp [readNumeral, hminus]
    have habs : (n.natAbs : Int) = n := by omega
    simp only [readNumber, hnumeral, number_of_positive (m := n.natAbs) (by omega), habs]

/-- Every whole number that is read fits. -/
theorem fits_of_readNumber {x : Number} (h : readNumber cs = .ok (x, rest)) : x.Fits := by
  simp only [readNumber] at h
  split at h
  case h_1 => cases h
  case h_2 numeral rest _ =>
    split at h
    case h_1 => cases h
    case h_2 hnumber =>
      cases h
      simp only [Numeral.number] at hnumber
      split at hnumber
      case isTrue hpos =>
        cases hnumber
        simp only [Bool.and_eq_true, decide_eq_true_eq] at hpos
        show _ ∧ _
        omega
      case isFalse =>
        split at hnumber
        case isTrue hneg =>
          cases hnumber
          simp only [Bool.and_eq_true, decide_eq_true_eq] at hneg
          show _ ∧ _
          omega
        case isFalse =>
          split at hnumber <;> cases hnumber
          trivial

/-- The text of a whole number begins with a sign or with a digit. -/
theorem integerText_eq_cons (n : Int) :
    ∃ c cs, integerText n = c :: cs ∧ (c == '-' || c.isDigit) = true := by
  rw [integerText]
  split
  case isTrue => exact ⟨'-', _, rfl, rfl⟩
  case isFalse =>
    obtain ⟨c, cs, hdigits, -⟩ := Decimal.digits_eq_cons n.natAbs
    refine ⟨c, cs, hdigits, ?_⟩
    rw [Decimal.isDigit_of_mem_digits (hdigits ▸ List.mem_cons_self), Bool.or_true]

end OperatorKit.Json
