import OperatorKit.Proofs.Load.RunTime

/-!
# What is reported about a text that is no run time

Every text is a row of pieces, digits with the character that ends them, and then some more digits
or none. A piece without a flaw is a segment. The first piece that has a flaw decides what is
reported, whatever follows it, and only if none has one the digits at the end count.
-/

namespace OperatorKit.Load.RunTime

open OperatorKit.Decimal

variable {t whole s : String} {total n : Nat} {rest : List Char} {row : List Segment}
  {e : RunTimeProblem}

/-! ## Pieces -/

/-- Digits, if any, and the character behind them. -/
structure Piece where
  digits : List Char
  isDigit : ∀ c ∈ digits, c.isDigit = true
  mark : Char
  isDigit_mark : mark.isDigit = false

/-- What can be wrong with a piece. -/
inductive Flaw where
  | malformed
  | unknownUnit (unit : Char)
  | tooLong
  deriving DecidableEq, Repr

/-- What is reported about the text `t` with a flaw. -/
def Flaw.problem (t : String) : Flaw → RunTimeProblem
  | malformed     => .malformed t
  | unknownUnit c => .unknownUnit c
  | tooLong       => .tooLong t

namespace Piece

def text (p : Piece) : List Char := p.digits ++ [p.mark]

/-- The number that the digits denote. -/
def value (p : Piece) : Nat := Decimal.value p.digits

/-- A piece that starts with one more digit. -/
def withDigit (c : Char) (hc : c.isDigit = true) (p : Piece) : Piece :=
  { p with digits := c :: p.digits, isDigit := List.forall_mem_cons.mpr ⟨hc, p.isDigit⟩ }

/-- The flaw of a piece behind `total` seconds. Its number comes first, then its unit, and the sum
only if both are right. -/
inductive Has (total : Nat) (p : Piece) : Flaw → Prop where
  | malformed (hnumber : p.digits = [] ∨ 2 ^ 64 ≤ p.value) : Has total p .malformed
  | unknownUnit (hdigits : p.digits ≠ []) (hvalue : p.value < 2 ^ 64)
      (hmark : ∀ u : TimeUnit, u.letter ≠ p.mark) : Has total p (.unknownUnit p.mark)
  | tooLong (hdigits : p.digits ≠ []) (hvalue : p.value < 2 ^ 64) (u : TimeUnit)
      (hmark : u.letter = p.mark) (htotal : 2 ^ 64 ≤ total + p.value * u.seconds) :
      Has total p .tooLong

/-- A piece without a flaw is a segment with which the seconds still fit. -/
theorem has_or_exists_segment (total : Nat) (p : Piece) :
    (∃ flaw, p.Has total flaw) ∨ ∃ q : Segment, q.text = p.text ∧ total + q.seconds < limit := by
  by_cases hdigits : p.digits = []
  · exact .inl ⟨_, .malformed (.inl hdigits)⟩
  rcases Nat.lt_or_ge p.value limit with hvalue | hvalue
  · by_cases hmark : ∃ u : TimeUnit, u.letter = p.mark
    · obtain ⟨u, hu⟩ := hmark
      rcases Nat.lt_or_ge (total + p.value * u.seconds) limit with htotal | htotal
      · refine .inr ⟨⟨⟨p.digits, hdigits, p.isDigit⟩, u⟩, ?_, htotal⟩
        rw [Segment.text, text, hu]
      · exact .inl ⟨_, .tooLong hdigits hvalue u hu htotal⟩
    · exact .inl ⟨_, .unknownUnit hdigits hvalue fun u hu => hmark ⟨u, hu⟩⟩
  · exact .inl ⟨_, .malformed (.inr hvalue)⟩

theorem read_eq_ok (p : Piece) (hdigits : p.digits ≠ []) (hvalue : p.value < limit) :
    Decimal.read limit p.digits = .ok p.value :=
  Numeral.read_eq_ok ⟨p.digits, hdigits, p.isDigit⟩ hvalue

theorem read_eq_error (p : Piece) (hnumber : p.digits = [] ∨ limit ≤ p.value) :
    ∃ problem, Decimal.read limit p.digits = .error problem := by
  by_cases hdigits : p.digits = []
  · exact ⟨.empty, by rw [hdigits]; rfl⟩
  · have hvalue := hnumber.resolve_left hdigits
    exact Numeral.read_eq_error ⟨p.digits, hdigits, p.isDigit⟩ limit_pos hvalue

end Piece

/-- A piece with a flaw is where reading stops, whatever follows it. -/
theorem Piece.Has.segments_eq {p : Piece} {flaw : Flaw} (h : p.Has total flaw) :
    segments whole total [] (p.text ++ rest) = .error (flaw.problem whole) := by
  have hmark : ¬ p.mark.isDigit = true := Bool.eq_false_iff.mp p.isDigit_mark
  rw [text, List.append_assoc, segments_append_digits p.isDigit, List.nil_append,
    List.singleton_append, segments, if_neg hmark]
  cases h with
  | malformed hnumber =>
    obtain ⟨problem, hread⟩ := p.read_eq_error hnumber
    rw [hread]
    rfl
  | unknownUnit hdigits hvalue hmark =>
    have hunit : unitSeconds? p.mark = none := by
      refine Option.eq_none_iff_forall_ne_some.mpr fun n hn => ?_
      obtain ⟨u, hu, -⟩ := unitSeconds?_eq_some_iff.mp hn
      exact hmark u hu
    rw [p.read_eq_ok hdigits hvalue]
    simp only [hunit]
    rfl
  | tooLong hdigits hvalue u hu htotal =>
    have hunit : unitSeconds? p.mark = some u.seconds := unitSeconds?_eq_some_iff.mpr ⟨u, hu, rfl⟩
    rw [p.read_eq_ok hdigits hvalue]
    simp only [hunit, if_neg (Nat.not_lt.mpr htotal)]
    rfl

theorem segments_numeral (k : Numeral) :
    segments whole total [] k.digits = .error (.missingUnit (String.ofList k.digits) whole) := by
  have hcons : k.digits.isEmpty = false := List.isEmpty_eq_false_iff.mpr k.ne_nil
  rw [← List.append_nil k.digits, segments_append_digits k.isDigit, List.nil_append,
    List.append_nil, segments, if_neg (by simp [hcons])]

/-! ## The pieces of a text -/

/-- Every text is a row of pieces with digits, if any, behind them. -/
theorem exists_pieces (cs : List Char) :
    ∃ (pieces : List Piece) (digits : List Char),
      cs = pieces.flatMap Piece.text ++ digits ∧ ∀ c ∈ digits, c.isDigit = true := by
  induction cs with
  | nil => exact ⟨[], [], rfl, List.forall_mem_nil _⟩
  | cons c cs ih =>
    obtain ⟨pieces, digits, rfl, hdigits⟩ := ih
    cases hc : c.isDigit with
    | false => exact ⟨⟨[], List.forall_mem_nil _, c, hc⟩ :: pieces, digits, rfl, hdigits⟩
    | true =>
      -- A digit belongs to what comes behind it.
      cases pieces with
      | nil => exact ⟨[], c :: digits, rfl, List.forall_mem_cons.mpr ⟨hc, hdigits⟩⟩
      | cons p pieces => exact ⟨p.withDigit c hc :: pieces, digits, rfl, hdigits⟩

/-- What is wrong with the text `t`, at the first place where something is. -/
inductive LeftmostProblem (t : String) : RunTimeProblem → Prop where
  | empty (htext : t = "") : LeftmostProblem t .empty
  | faulty {row : List Segment} {p : Piece} {rest : List Char} {flaw : Flaw}
      (htext : t.toList = textOf row ++ (p.text ++ rest)) (hrow : secondsIn row < 2 ^ 64)
      (hflaw : p.Has (secondsIn row) flaw) : LeftmostProblem t (flaw.problem t)
  | unfinished {row : List Segment} {k : Numeral} (htext : t.toList = textOf row ++ k.digits)
      (hrow : secondsIn row < 2 ^ 64) :
      LeftmostProblem t (.missingUnit (String.ofList k.digits) t)

/-- Behind the segments that a text begins with, and that fit, it is at its end, or only digits are
left, or there is a piece with a flaw. -/
theorem exists_row (htotal : total < limit) (cs : List Char) :
    ∃ row, total + secondsIn row < limit ∧
      (cs = textOf row ∨ (∃ k : Numeral, cs = textOf row ++ k.digits) ∨
        ∃ (p : Piece) (flaw : Flaw) (rest : List Char),
          cs = textOf row ++ (p.text ++ rest) ∧ p.Has (total + secondsIn row) flaw) := by
  obtain ⟨pieces, digits, rfl, hdigits⟩ := exists_pieces cs
  -- The row goes on as long as pieces are segments and ends at the first that has a flaw.
  induction pieces generalizing total with
  | nil =>
    by_cases hnil : digits = []
    · exact ⟨[], htotal, .inl hnil⟩
    · exact ⟨[], htotal, .inr (.inl ⟨⟨digits, hnil, hdigits⟩, rfl⟩)⟩
  | cons p pieces ih =>
    rw [List.flatMap_cons, List.append_assoc]
    obtain ⟨flaw, hflaw⟩ | ⟨q, hq, hfits⟩ := p.has_or_exists_segment total
    · exact ⟨[], htotal, .inr (.inr ⟨p, flaw, _, rfl, hflaw⟩)⟩
    · obtain ⟨row, hrow, hend⟩ := ih hfits
      refine ⟨q :: row, ?_⟩
      rw [secondsIn_cons, textOf_cons, ← Nat.add_assoc, ← hq]
      simp only [List.append_assoc, List.append_cancel_left_eq]
      exact ⟨hrow, hend⟩

/-! ## Reports -/

theorem secondsOf_empty : secondsOf "" = .error .empty := rfl

/-- A text that is no number is read segment by segment, and behind those that fit reading goes on
with their sum. -/
theorem secondsOf_of_rejected (hrejected : ∀ n, secondsOf t ≠ .ok n) (hne : t ≠ "")
    (htext : t.toList = textOf row ++ rest) (hrow : secondsIn row < limit) :
    secondsOf t = segments t (secondsIn row) [] rest := by
  have hcons : ¬ t.toList.isEmpty = true := by simpa using hne
  have hsegments : secondsOf t = segments t 0 [] t.toList := by
    cases hread : Decimal.read limit t.toList with
    | ok n => exact absurd (by simp [secondsOf, hcons, hread]) (hrejected n)
    | error problem => simp [secondsOf, hcons, hread]
  rw [hsegments, htext, segments_textOf_append (by omega), Nat.zero_add]

theorem ne_empty_of_toList (htext : t.toList = textOf row ++ rest) (hrest : rest ≠ []) : t ≠ "" := by
  rintro rfl
  rw [String.toList_empty] at htext
  exact hrest (List.append_eq_nil_iff.mp htext.symm).2

theorem LeftmostProblem.secondsOf_eq (h : LeftmostProblem t e)
    (hrejected : ∀ n, secondsOf t ≠ .ok n) : secondsOf t = .error e := by
  cases h with
  | empty htext => rw [htext, secondsOf_empty]
  | faulty htext hrow hflaw =>
    have hne := ne_empty_of_toList htext (by simp [Piece.text])
    rw [secondsOf_of_rejected hrejected hne htext hrow, hflaw.segments_eq]
  | @unfinished row k htext hrow =>
    have hne := ne_empty_of_toList htext k.ne_nil
    rw [secondsOf_of_rejected hrejected hne htext hrow, segments_numeral]

theorem exists_leftmostProblem (hrejected : ∀ n, secondsOf t ≠ .ok n) :
    ∃ e, LeftmostProblem t e := by
  by_cases hne : t = ""
  · exact ⟨.empty, .empty hne⟩
  obtain ⟨row, hrow, hend⟩ := exists_row limit_pos t.toList
  rw [Nat.zero_add] at hrow hend
  obtain htext | ⟨k, htext⟩ | ⟨p, flaw, rest, htext, hflaw⟩ := hend
  · -- A row of segments that fits is not refused.
    rw [← List.append_nil (textOf row)] at htext
    exact absurd (secondsOf_of_rejected hrejected hne htext hrow) (hrejected (secondsIn row))
  · exact ⟨_, .unfinished htext hrow⟩
  · exact ⟨_, .faulty htext hrow hflaw⟩

/-- Exactly one thing is reported about a text that is refused. -/
theorem secondsOf_eq_error_iff :
    secondsOf t = .error e ↔ (∀ n, secondsOf t ≠ .ok n) ∧ LeftmostProblem t e := by
  constructor
  · intro h
    have hrejected : ∀ n, secondsOf t ≠ .ok n := fun n hn => by
      rw [h] at hn
      cases hn
    -- There is some problem, and since that is reported it is the one that was.
    obtain ⟨e', he'⟩ := exists_leftmostProblem hrejected
    cases h.symm.trans (he'.secondsOf_eq hrejected)
    exact ⟨hrejected, he'⟩
  · rintro ⟨hrejected, he⟩
    exact he.secondsOf_eq hrejected

/-- Whatever number of seconds is read, there is a span of that length. -/
theorem exists_span_of_secondsOf (h : secondsOf t = .ok n) : ∃ d, Span.ofSeconds? n = some d := by
  have hword : (UInt64.ofNat n).toNat = n := UInt64.toNat_ofNat_of_lt' (secondsOf_eq_ok_iff.mp h).2
  exact ⟨_, hword ▸ ofSeconds?_toNat (UInt64.ofNat n)⟩

theorem ofText_eq_error_iff_secondsOf : ofText s = .error e ↔ secondsOf (Text.trim s) = .error e := by
  cases hseconds : secondsOf (Text.trim s) with
  | error e => simp [ofText, hseconds]
  | ok n =>
    obtain ⟨d, hspan⟩ := exists_span_of_secondsOf hseconds
    simp [ofText, hseconds, hspan]

theorem ofText_ne_ok_iff :
    (∀ d, ofText s ≠ .ok d) ↔ ∀ n, secondsOf (Text.trim s) ≠ .ok n := by
  constructor
  · intro h n hn
    obtain ⟨d, hspan⟩ := exists_span_of_secondsOf hn
    exact h d (ofText_eq_ok_iff_secondsOf.mpr ⟨n, hn, hspan⟩)
  · intro h d hd
    obtain ⟨n, hn, -⟩ := ofText_eq_ok_iff_secondsOf.mp hd
    exact h n hn

theorem ofText_eq_error_iff :
    ofText s = .error e ↔ (∀ d, ofText s ≠ .ok d) ∧ LeftmostProblem (Text.trim s) e := by
  rw [ofText_eq_error_iff_secondsOf, secondsOf_eq_error_iff, ofText_ne_ok_iff]

/-- What is reported about a text that is refused is its leftmost problem: that it is empty, or the
flaw of the first piece that has one, or, if none has one, the digits at the end. So if two texts
that are refused agree up to and including such a piece, the same flaw is reported about both. -/
theorem leftmost_problem_is_reported (s : String) :
    (∀ e, ofText s = .error e ↔ (∀ d, ofText s ≠ .ok d) ∧ LeftmostProblem (Text.trim s) e) ∧
    ∀ (s' : String) (row : List Segment) (p : Piece) (flaw : Flaw) (rest rest' : List Char),
      secondsIn row < 2 ^ 64 → p.Has (secondsIn row) flaw →
      (Text.trim s).toList = textOf row ++ (p.text ++ rest) →
      (Text.trim s').toList = textOf row ++ (p.text ++ rest') →
      (∀ d, ofText s ≠ .ok d) → (∀ d, ofText s' ≠ .ok d) →
      ofText s = .error (flaw.problem (Text.trim s)) ∧
        ofText s' = .error (flaw.problem (Text.trim s')) := by
  refine ⟨fun e => ofText_eq_error_iff, ?_⟩
  intro s' row p flaw rest rest' hrow hflaw htext htext' hrejected hrejected'
  exact ⟨ofText_eq_error_iff.mpr ⟨hrejected, .faulty htext hrow hflaw⟩,
    ofText_eq_error_iff.mpr ⟨hrejected', .faulty htext' hrow hflaw⟩⟩

theorem leftmost_problem_is_reported_of_unknown_unit :
    ofText " 1h5x" = .error (.unknownUnit 'x') ∧ ofText "1h5x9" = .error (.unknownUnit 'x') := by
  have htrim : (Text.trim " 1h5x").toList = ['1', 'h', '5', 'x'] := by decide +kernel
  have htrim' : (Text.trim "1h5x9").toList = ['1', 'h', '5', 'x', '9'] := by decide +kernel
  have hrejected : ∀ s ∈ [" 1h5x", "1h5x9"], ∀ d, ofText s ≠ .ok d := by
    have hnone : ∀ s ∈ [" 1h5x", "1h5x9"], (ofText s).toOption = none := by decide +kernel
    intro s hs d hd
    have hs := hnone s hs
    rw [hd] at hs
    cases hs
  let hour : Segment := ⟨⟨['1'], by simp, by simp⟩, .hour⟩
  let five : Piece := ⟨['5'], by simp, 'x', rfl⟩
  have hflaw : five.Has (secondsIn [hour]) (.unknownUnit 'x') :=
    .unknownUnit (List.cons_ne_nil _ _) (by decide) fun u => by cases u <;> decide
  obtain ⟨-, hagree⟩ := leftmost_problem_is_reported " 1h5x"
  exact hagree "1h5x9" [hour] five _ [] ['9'] (by decide) hflaw htrim htrim'
    (hrejected _ (by simp)) (hrejected _ (by simp))

end OperatorKit.Load.RunTime
