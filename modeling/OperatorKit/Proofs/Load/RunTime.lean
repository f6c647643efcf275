import Mathlib.Algebra.GroupWithZero.Nat
import OperatorKit.Load.RunTime
import OperatorKit.Proofs.Decimal.Natural

/-!
# The language of run times

A text is a run time exactly if it is a whole number of seconds or a row of segments, less than
`2 ^ 64` seconds in all. Reading adds up a row segment by segment, and it stops where the sum
would leave 64 bits, so every sum that it goes on with is exact.
-/

namespace OperatorKit.Load.RunTime

open OperatorKit.Decimal

/-! ## Segments -/

/-- The units that a segment can be given in. -/
inductive TimeUnit where
  | second
  | minute
  | hour
  | day

namespace TimeUnit

def letter : TimeUnit → Char
  | second => 's'
  | minute => 'm'
  | hour   => 'h'
  | day    => 'd'

def seconds : TimeUnit → Nat
  | second => 1
  | minute => 60
  | hour   => 60 * 60
  | day    => 24 * 60 * 60

theorem isDigit_letter (u : TimeUnit) : u.letter.isDigit = false := by
  cases u <;> rfl

theorem seconds_pos (u : TimeUnit) : 0 < u.seconds := by
  cases u <;> decide

end TimeUnit

theorem unitSeconds?_eq_some_iff {c : Char} {n : Nat} :
    unitSeconds? c = some n ↔ ∃ u : TimeUnit, u.letter = c ∧ u.seconds = n := by
  constructor
  · intro h
    simp only [unitSeconds?] at h
    split at h
    case h_1 => exact ⟨.second, rfl, Option.some.inj h⟩
    case h_2 => exact ⟨.minute, rfl, Option.some.inj h⟩
    case h_3 => exact ⟨.hour, rfl, Option.some.inj h⟩
    case h_4 => exact ⟨.day, rfl, Option.some.inj h⟩
    case h_5 => cases h
  · rintro ⟨u, rfl, rfl⟩
    cases u <;> rfl

/-- A number and a unit, such as `30m`. -/
structure Segment where
  number : Numeral
  unit : TimeUnit

namespace Segment

def text (p : Segment) : List Char := p.number.digits ++ [p.unit.letter]

def seconds (p : Segment) : Nat := p.number.value * p.unit.seconds

theorem value_le_seconds (p : Segment) : p.number.value ≤ p.seconds :=
  Nat.le_mul_of_pos_right _ p.unit.seconds_pos

end Segment

/-- Segments one behind the other. -/
def textOf (row : List Segment) : List Char := row.flatMap Segment.text

/-- The seconds of all segments of a row. -/
def secondsIn (row : List Segment) : Nat := (row.map Segment.seconds).sum

theorem textOf_cons (p : Segment) (row : List Segment) :
    textOf (p :: row) = p.text ++ textOf row := List.flatMap_cons

theorem secondsIn_cons (p : Segment) (row : List Segment) :
    secondsIn (p :: row) = p.seconds + secondsIn row := List.sum_cons

/-- The number of seconds that a text denotes: as a numeral, which may have a plus sign in
front, or as a row of segments. -/
inductive Denotes : List Char → Nat → Prop where
  | whole (k : Numeral) : Denotes k.digits k.value
  | signed (k : Numeral) : Denotes ('+' :: k.digits) k.value
  | row (p : Segment) (row : List Segment) : Denotes (textOf (p :: row)) (secondsIn (p :: row))

/-! ## Reading segments -/

variable {whole : String} {total n : Nat} {digits cs : List Char} {row : List Segment}

theorem limit_pos : 0 < limit := by decide

theorem segments_append_digits {ds : List Char} (hds : ∀ c ∈ ds, c.isDigit = true) :
    segments whole total digits (ds ++ cs) = segments whole total (digits ++ ds) cs := by
  induction ds generalizing digits with
  | nil => rw [List.nil_append, List.append_nil]
  | cons d ds ih =>
    obtain ⟨hd, hds⟩ := List.forall_mem_cons.mp hds
    rw [List.cons_append, segments, if_pos hd, ih hds, List.append_assoc, List.singleton_append]

/-- A segment is added to the sum of those before it, unless its number or the new sum comes to
the limit. -/
theorem segments_text_append (p : Segment) (rest : List Char) :
    segments whole total [] (p.text ++ rest) =
      if p.number.value < limit then
        if total + p.seconds < limit then segments whole (total + p.seconds) [] rest
        else .error (.tooLong whole)
      else .error (.malformed whole) := by
  have hletter : ¬ p.unit.letter.isDigit = true := Bool.eq_false_iff.mp p.unit.isDigit_letter
  have hunit : unitSeconds? p.unit.letter = some p.unit.seconds :=
    unitSeconds?_eq_some_iff.mpr ⟨p.unit, rfl, rfl⟩
  rw [Segment.text, List.append_assoc, segments_append_digits p.number.isDigit, List.nil_append,
    List.singleton_append, segments, if_neg hletter]
  split
  case h_1 e hread =>
    rw [if_neg fun h => by simp [p.number.read_eq_ok h] at hread]
  case h_2 n hread =>
    have hvalue : p.number.value < limit := Nat.not_le.mp fun h => by
      obtain ⟨e, he⟩ := p.number.read_eq_error limit_pos h
      rw [he] at hread
      cases hread
    rw [p.number.read_eq_ok hvalue] at hread
    cases hread
    simp only [hunit, hvalue, if_true]
    rfl

theorem segments_textOf_append {rest : List Char} (h : total + secondsIn row < limit) :
    segments whole total [] (textOf row ++ rest) =
      segments whole (total + secondsIn row) [] rest := by
  induction row generalizing total with
  | nil => rfl
  | cons p row ih =>
    have hvalue := p.value_le_seconds
    rw [secondsIn_cons] at h ⊢
    rw [textOf_cons, List.append_assoc, segments_text_append, if_pos (by omega),
      if_pos (by omega), ih (by omega), Nat.add_assoc]

/-- A row that comes to the limit is refused, whatever follows it. -/
theorem segments_textOf_append_eq_error {rest : List Char} (htotal : total < limit)
    (h : limit ≤ total + secondsIn row) :
    ∃ e, segments whole total [] (textOf row ++ rest) = .error e := by
  induction row generalizing total with
  | nil => exact absurd htotal (Nat.not_lt.mpr h)
  | cons p row ih =>
    rw [secondsIn_cons, ← Nat.add_assoc] at h
    rw [textOf_cons, List.append_assoc, segments_text_append]
    split
    case isFalse => exact ⟨_, rfl⟩
    case isTrue =>
      split
      case isFalse => exact ⟨_, rfl⟩
      case isTrue hfits => exact ih hfits h

/-- What segments are read from is a row of them, and the number that is read is their sum. -/
theorem exists_row_of_segments (hdigits : ∀ c ∈ digits, c.isDigit = true) (htotal : total < limit)
    (h : segments whole total digits cs = .ok n) :
    ∃ row, digits ++ cs = textOf row ∧ total + secondsIn row = n ∧ n < limit := by
  induction cs generalizing total digits with
  | nil =>
    simp only [segments] at h
    split at h
    case isTrue hnil =>
      cases h
      rw [List.isEmpty_iff.mp hnil]
      exact ⟨[], rfl, rfl, htotal⟩
    case isFalse => cases h
  | cons c cs ih =>
    simp only [segments] at h
    split at h
    case isTrue hc =>
      -- A digit joins those that were read before it.
      have hmore : ∀ d ∈ digits ++ [c], d.isDigit = true :=
        List.forall_mem_append.mpr ⟨hdigits, List.forall_mem_singleton.mpr hc⟩
      simpa using ih hmore htotal h
    case isFalse hc =>
      split at h
      case h_1 => cases h
      case h_2 m hread =>
        split at h
        case h_1 => cases h
        case h_2 unit hunit =>
          split at h
          case isFalse => cases h
          case isTrue hfits =>
            obtain ⟨row, hrow, hsum, hn⟩ := ih (List.forall_mem_nil _) hfits h
            obtain ⟨u, rfl, rfl⟩ := unitSeconds?_eq_some_iff.mp hunit
            obtain ⟨k, rfl | rfl, rfl, -⟩ := (read_eq_ok_iff limit_pos).mp hread
            · refine ⟨⟨k, u⟩ :: row, ?_, ?_, hn⟩
              · rw [textOf_cons, ← hrow, Segment.text, List.append_assoc]
                rfl
              · rw [secondsIn_cons, ← Nat.add_assoc]
                exact hsum
            · exact absurd (hdigits '+' List.mem_cons_self) (by decide)

/-! ## Reading run times -/

/-- A row of segments is no number: its units are neither digits nor a sign. -/
theorem read_textOf_append (p : Segment) (row : List Segment) (rest : List Char) :
    ∃ e, Decimal.read limit (textOf (p :: row) ++ rest) = .error e := by
  have hdigit : ¬ p.unit.letter.isDigit = true := Bool.eq_false_iff.mp p.unit.isDigit_letter
  have hletter : p.unit.letter ∈ textOf (p :: row) ++ rest := by simp [textOf_cons, Segment.text]
  cases hread : Decimal.read limit (textOf (p :: row) ++ rest) with
  | error e => exact ⟨e, rfl⟩
  | ok n =>
    obtain ⟨k, hk | hk, -, -⟩ := (read_eq_ok_iff limit_pos).mp hread
    · rw [hk] at hletter
      exact absurd (k.isDigit _ hletter) hdigit
    · rw [hk, List.mem_cons] at hletter
      rcases hletter with hplus | hk
      · cases hunit : p.unit <;> simp [hunit, TimeUnit.letter] at hplus
      · exact absurd (k.isDigit _ hk) hdigit

variable {t s : String} {d : Span}

theorem secondsOf_of_row {p : Segment} {rest : List Char}
    (h : t.toList = textOf (p :: row) ++ rest) : secondsOf t = segments t 0 [] t.toList := by
  obtain ⟨e, he⟩ := read_textOf_append p row rest
  have hcons : t.toList.isEmpty = false := by simp [h, textOf_cons, Segment.text]
  rw [← h] at he
  simp [secondsOf, hcons, he]

theorem secondsOf_eq_ok_iff : secondsOf t = .ok n ↔ Denotes t.toList n ∧ n < limit := by
  constructor
  · intro h
    simp only [secondsOf] at h
    split at h
    case isTrue => cases h
    case isFalse hcons =>
      split at h
      case h_1 m hread =>
        cases h
        obtain ⟨k, hk | hk, rfl, hn⟩ := (read_eq_ok_iff limit_pos).mp hread
        · exact ⟨hk ▸ .whole k, hn⟩
        · exact ⟨hk ▸ .signed k, hn⟩
      case h_2 =>
        obtain ⟨row, hrow, hsum, hn⟩ := exists_row_of_segments (List.forall_mem_nil _) limit_pos h
        rw [List.nil_append] at hrow
        rw [Nat.zero_add] at hsum
        cases row with
        | nil => exact absurd (List.isEmpty_iff.mpr hrow) hcons
        | cons p row => exact ⟨hrow ▸ hsum ▸ .row p row, hn⟩
  · rintro ⟨h, hn⟩
    generalize hcs : t.toList = cs at h
    cases h with
    | whole k =>
      have hcons : t.toList.isEmpty = false := by
        rw [hcs, List.isEmpty_eq_false_iff]
        exact k.ne_nil
      have hread : Decimal.read limit t.toList = .ok k.value := hcs ▸ k.read_eq_ok hn
      simp [secondsOf, hcons, hread]
    | signed k =>
      have hcons : t.toList.isEmpty = false := by simp [hcs]
      have hread : Decimal.read limit t.toList = .ok k.value :=
        (read_eq_ok_iff limit_pos).mpr ⟨k, .inr hcs, rfl, hn⟩
      simp [secondsOf, hcons, hread]
    | row p row =>
      rw [← List.append_nil (textOf (p :: row))] at hcs
      rw [← Nat.zero_add (secondsIn (p :: row))] at hn ⊢
      rw [secondsOf_of_row hcs, hcs, segments_textOf_append hn]
      rfl

theorem ofSeconds?_toNat (n : UInt64) : Span.ofSeconds? n.toNat = some (Span.ofWord n) := by
  rw [Span.ofSeconds?, Span.ofNanos?_eq_some, Nat.mul_comm, Span.ofWord]

theorem ofText_eq_ok_iff_secondsOf :
    ofText s = .ok d ↔ ∃ n, secondsOf (Text.trim s) = .ok n ∧ Span.ofSeconds? n = some d := by
  cases hseconds : secondsOf (Text.trim s) with
  | error e => simp [ofText, hseconds]
  | ok n => cases hspan : Span.ofSeconds? n <;> simp [ofText, hseconds, hspan]

/-- A text is a run time exactly if, without the blanks around it, it denotes a number of seconds
that fits in 64 bits, and it is that many seconds long. However many segments a text begins with,
reading goes on behind them with their exact sum, which fits in 64 bits, or the text is refused. -/
theorem ofText_eq_ok_iff (s : String) :
    (∀ d, ofText s = .ok d ↔
      ∃ n : UInt64, Denotes (Text.trim s).toList n.toNat ∧ d = Span.ofWord n) ∧
    ∀ row rest, (Text.trim s).toList = textOf row ++ rest →
      (secondsIn row < 2 ^ 64 ∧
        segments (Text.trim s) 0 [] (Text.trim s).toList =
          segments (Text.trim s) (secondsIn row) [] rest) ∨
      (2 ^ 64 ≤ secondsIn row ∧ ∃ e, ofText s = .error e) := by
  constructor
  · intro d
    rw [ofText_eq_ok_iff_secondsOf]
    constructor
    · rintro ⟨n, hn, hspan⟩
      obtain ⟨hdenotes, hlt⟩ := secondsOf_eq_ok_iff.mp hn
      have hword : (UInt64.ofNat n).toNat = n := UInt64.toNat_ofNat_of_lt' hlt
      rw [← hword, ofSeconds?_toNat] at hspan
      exact ⟨UInt64.ofNat n, by rwa [hword], (Option.some.inj hspan).symm⟩
    · rintro ⟨n, hdenotes, rfl⟩
      exact ⟨n.toNat, secondsOf_eq_ok_iff.mpr ⟨hdenotes, n.toNat_lt⟩, ofSeconds?_toNat n⟩
  · intro row rest hrow
    rcases Nat.lt_or_ge (secondsIn row) limit with hlt | hge
    · have hsum : 0 + secondsIn row < limit := by rwa [Nat.zero_add]
      refine .inl ⟨hlt, ?_⟩
      rw [hrow, segments_textOf_append hsum, Nat.zero_add]
    · refine .inr ⟨hge, ?_⟩
      cases row with
      | nil => exact absurd hge (by decide)
      | cons p row =>
        have hsum : limit ≤ 0 + secondsIn (p :: row) := by rwa [Nat.zero_add]
        obtain ⟨e, he⟩ := segments_textOf_append_eq_error limit_pos hsum
        rw [← hrow, ← secondsOf_of_row hrow] at he
        exact ⟨e, by simp only [ofText, he]⟩

theorem ofText_of_two_segments :
    ofText " 2m30s" = .ok (.ofWord 150) ∧
      segments "2m30s" 0 [] "2m30s".toList = segments "2m30s" 120 [] "30s".toList := by
  have htrim : Text.trim " 2m30s" = "2m30s" := by decide +kernel
  let two : Numeral := ⟨['2'], by simp, by simp⟩
  let thirty : Numeral := ⟨['3', '0'], by simp, by simp⟩
  obtain ⟨hread, hsums⟩ := ofText_eq_ok_iff " 2m30s"
  rw [htrim] at hread hsums
  refine ⟨(hread _).mpr ⟨150, ?_, rfl⟩, ?_⟩
  · exact .row ⟨two, .minute⟩ [⟨thirty, .second⟩]
  · obtain ⟨-, hsum⟩ | ⟨hlarge, -⟩ := hsums [⟨two, .minute⟩] "30s".toList rfl
    · exact hsum
    · exact absurd hlarge (by decide)

end OperatorKit.Load.RunTime
