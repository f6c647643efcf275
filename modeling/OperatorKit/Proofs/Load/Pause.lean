import OperatorKit.Load.Pause
import OperatorKit.Proofs.Random.Retry

/-!
# Pauses stay in their range

Whichever way a pause is drawn, it lies between the shortest and the longest span
of its range, and no number on the way to it leaves its word.
-/

namespace OperatorKit.Load.PauseRange

open OperatorKit.Random

variable {r : PauseRange} {words rest : List UInt32} {span : Span} {s n : Nat}

theorem ofSeconds?_eq_some_iff {min max : Float} :
    ofSeconds? min max = some r ↔
      Span.ofFloat? min = some r.shortest ∧ Span.ofFloat? max = some r.longest := by
  constructor
  · intro h
    simp only [ofSeconds?] at h
    split at h
    case h_1 hmin hmax =>
      split at h
      case isTrue =>
        cases h
        exact ⟨hmin, hmax⟩
      case isFalse => cases h
    case h_2 => cases h
  · rintro ⟨hmin, hmax⟩
    simp only [ofSeconds?, hmin, hmax, dif_pos r.ordered]

/-! ## Modes -/

namespace Mode

/-- The least number of nanoseconds that a mode draws. -/
def first : Mode → Nat
  | subsecond s low _      => s * nanosPerSecond + low
  | nanos low _            => low
  | seconds low _ offset _ => low * nanosPerSecond + offset

/-- The greatest number of nanoseconds that a mode draws. -/
def last : Mode → Nat
  | subsecond s _ high         => s * nanosPerSecond + high
  | nanos _ high               => high
  | seconds _ high offset room => high * nanosPerSecond + (offset + room)

/-- The first number that is too large for the word in which a mode draws its nanoseconds: 32
bits, or 64 if the seconds are drawn with them. -/
def nanosLimit : Mode → Nat
  | subsecond .. => 2 ^ 32
  | nanos ..     => 2 ^ 64
  | seconds ..   => 2 ^ 32

/-- The numbers of a mode are in order and fit in the words that they are held in:
seconds and all nanoseconds at once in 64 bits, nanoseconds of their own in 32. -/
def Fits : Mode → Prop
  | subsecond s low high         => s < 2 ^ 64 ∧ low ≤ high ∧ high < 2 ^ 32
  | nanos low high               => low ≤ high ∧ high < 2 ^ 64
  | seconds low high offset room =>
    low ≤ high ∧ high < 2 ^ 64 ∧ offset + nanosPerSecond ≤ 2 ^ 32 ∧ room < nanosPerSecond

end Mode

/-- The upper end of a range, with at least the nanoseconds that the lower end has
beyond its seconds. -/
theorem upper_spec (r : PauseRange) :
    ∃ seconds nanos,
      (if r.longest.subsecond < r.shortest.subsecond then
        (r.longest.seconds - 1, r.longest.subsecond + nanosPerSecond)
      else (r.longest.seconds, r.longest.subsecond)) = (seconds, nanos) ∧
      seconds * nanosPerSecond + nanos = r.longest.nanos ∧ r.shortest.seconds ≤ seconds ∧
      r.shortest.subsecond ≤ nanos ∧ nanos < r.shortest.subsecond + nanosPerSecond ∧
      seconds < 2 ^ 64 := by
  have hordered : r.shortest.nanos ≤ r.longest.nanos := r.ordered
  have hlimit := r.longest.nanos_lt
  have hshortest := r.shortest.nanos_eq
  have hlongest := r.longest.nanos_eq
  have hlower := r.shortest.subsecond_lt
  have hupper := r.longest.subsecond_lt
  simp only [Span.limit, nanosPerSecond] at *
  split
  case isTrue => exact ⟨_, _, rfl, by omega, by omega, by omega, by omega, by omega⟩
  case isFalse => exact ⟨_, _, rfl, by omega, by omega, by omega, by omega, by omega⟩

/-- The numbers of the mode of a range fit, and it draws from its shortest span to its
longest. -/
theorem mode_spec (r : PauseRange) :
    r.mode.Fits ∧ r.mode.first = r.shortest.nanos ∧ r.mode.last = r.longest.nanos := by
  obtain ⟨seconds, nanos, hupper, hlongest, hseconds, hnanos, hroom, hfits⟩ := r.upper_spec
  have hordered : r.shortest.nanos ≤ r.longest.nanos := r.ordered
  have hshortest := r.shortest.nanos_eq
  have hlower := r.shortest.subsecond_lt
  simp only [mode, hupper]
  clear hupper
  split
  case isTrue hsame =>
    -- Less than two seconds of nanoseconds fit in 32 bits.
    simp only [Mode.Fits, Mode.first, Mode.last, hsame, nanosPerSecond] at *
    exact ⟨⟨hfits, hnanos, by omega⟩, hshortest.symm, hlongest⟩
  case isFalse hdiff =>
    split
    case isTrue hsmall =>
      simp only [Mode.Fits, Mode.first, Mode.last, nanosPerSecond] at *
      exact ⟨⟨by omega, hsmall⟩, hshortest.symm, hlongest⟩
    case isFalse =>
      simp only [Mode.Fits, Mode.first, Mode.last, nanosPerSecond] at *
      exact ⟨⟨hseconds, hfits, by omega, by omega⟩, hshortest.symm, by omega⟩

/-! ## Seconds and nanoseconds apart -/

section

variable {low high room : Nat}

/-- Seconds from `low` to `high` and nanoseconds of one second. -/
def pair (low high : Nat) : Draw (Nat × Nat) :=
  (between64 low high).bind fun s =>
    (between32 0 (nanosPerSecond - 1)).bind fun n => .pure (s, n)

theorem drawPair_eq_retry (tries : Nat) :
    drawPair low high room tries =
      (pair low high).retry (fun p => fits high room p.1 p.2) tries := by
  induction tries with
  | zero => rfl
  | succ tries ih =>
    funext words
    simp only [drawPair, Draw.retry, pair, Draw.bind, Draw.pure, ih]
    cases between64 low high words with
    | error e => rfl
    | ok result =>
      simp only
      cases between32 0 (nanosPerSecond - 1) result.2 with
      | error e => rfl
      | ok result => rfl

theorem nanos_lt_two_pow : nanosPerSecond - 1 < 2 ^ 32 := by decide

theorem reliable_pair (hle : low ≤ high) (hhigh : high < 2 ^ 64) :
    (pair low high).Reliable fun p => low ≤ p.1 ∧ p.1 ≤ high ∧ p.2 < nanosPerSecond := by
  refine (reliable_between64 hle hhigh).bind fun s hs => ?_
  refine (reliable_between32 (Nat.zero_le _) nanos_lt_two_pow).bind fun n hn => ?_
  refine Draw.reliable_pure ⟨hs.1, hs.2, ?_⟩
  simp only [nanosPerSecond] at *
  omega

theorem length_of_pair {words rest : List UInt32} {p : Nat × Nat}
    (h : pair low high words = .ok (p, rest)) : rest.length < words.length := by
  simp only [pair, Draw.bind, Draw.pure] at h
  split at h
  case h_1 => cases h
  case h_2 hs =>
    split at h
    case h_1 => cases h
    case h_2 hn =>
      cases h
      rw [between64_eq_firstWide] at hs
      exact (length_of_between32 hn).trans (length_of_firstWide hs)

/-- Zeros behind words that run out draw no nanoseconds, and those fit behind any second. -/
theorem pair_append_zeros (hle : low ≤ high) (hhigh : high < 2 ^ 64) {words : List UInt32}
    {e : Fault} (h : pair low high words = .error e) :
    ∃ more p rest, pair low high (words ++ more) = .ok (p, rest) ∧
      fits high room p.1 p.2 = true := by
  have hfits (s : Nat) : fits high room s 0 = true := by simp [fits]
  simp only [pair, Draw.bind, Draw.pure] at h
  split at h
  case h_1 hs =>
    rw [between64_eq_firstWide] at hs
    obtain ⟨more, s, hmore⟩ := firstWide_append_zeros (acceptBetween_zero hle hhigh) hs
    -- The zeros that end the draw of the seconds are followed by one for the nanoseconds.
    have hdrawn := (reliable_between64 hle hhigh).extend [0]
      (by rw [between64_eq_firstWide]; exact hmore)
    refine ⟨more ++ [0], (s, 0), [], ?_, hfits s⟩
    rw [← List.append_assoc]
    have hnil : between32 0 (nanosPerSecond - 1) [] = .error .starved := rfl
    simp only [pair, Draw.bind, hdrawn]
    rw [between32_append_zero (Nat.zero_le _) nanos_lt_two_pow hnil]
    rfl
  case h_2 s rest hs =>
    split at h
    case h_2 => cases h
    case h_1 hn =>
      have hdrawn := (reliable_between64 hle hhigh).extend [0] hs
      refine ⟨[0], (s, 0), [], ?_, hfits s⟩
      simp only [pair, Draw.bind, hdrawn]
      rw [between32_append_zero (Nat.zero_le _) nanos_lt_two_pow hn]
      rfl

theorem reliable_drawPair (hle : low ≤ high) (hhigh : high < 2 ^ 64) :
    Draw.Reliable (fun words => drawPair low high room words.length words)
      fun p => (low ≤ p.1 ∧ p.1 ≤ high ∧ p.2 < nanosPerSecond) ∧ fits high room p.1 p.2 = true := by
  simp only [drawPair_eq_retry]
  exact (reliable_pair hle hhigh).retry length_of_pair (pair_append_zeros hle hhigh)

end

/-! ## Pauses -/

namespace Mode

theorem draw_subsecond (s low high : Nat) :
    (subsecond s low high).draw = (between32 low high).bind fun n => .pure (s, n) := by
  funext words
  simp only [draw, Draw.bind, Draw.pure]
  cases between32 low high words <;> rfl

theorem draw_nanos (low high : Nat) :
    (nanos low high).draw = (between64 low high).bind fun n => .pure (0, n) := by
  funext words
  simp only [draw, Draw.bind, Draw.pure]
  cases between64 low high words <;> rfl

theorem draw_seconds (low high offset room : Nat) :
    (seconds low high offset room).draw =
      Draw.bind (fun words => drawPair low high room words.length words)
        fun p => .pure (p.1, offset + p.2) := by
  funext words
  simp only [draw, Draw.bind, Draw.pure]
  cases drawPair low high room words.length words <;> rfl

theorem reliable_draw {m : Mode} (h : m.Fits) :
    m.draw.Reliable fun p =>
      (m.first ≤ p.1 * nanosPerSecond + p.2 ∧ p.1 * nanosPerSecond + p.2 ≤ m.last) ∧
        p.2 < m.nanosLimit := by
  cases m with
  | subsecond s low high =>
    obtain ⟨-, hle, hhigh⟩ := h
    rw [draw_subsecond]
    refine (reliable_between32 hle hhigh).bind fun n hn => Draw.reliable_pure ⟨?_, ?_⟩
    · exact ⟨Nat.add_le_add_left hn.1 _, Nat.add_le_add_left hn.2 _⟩
    · exact Nat.lt_of_le_of_lt hn.2 hhigh
  | nanos low high =>
    obtain ⟨hle, hhigh⟩ := h
    rw [draw_nanos]
    refine (reliable_between64 hle hhigh).bind fun n hn => Draw.reliable_pure ⟨?_, ?_⟩
    · simpa [first, last] using hn
    · exact Nat.lt_of_le_of_lt hn.2 hhigh
  | seconds low high offset room =>
    obtain ⟨hle, hhigh, hoffset, hroom⟩ := h
    rw [draw_seconds]
    refine (reliable_drawPair hle hhigh).bind ?_
    rintro ⟨s, n⟩ ⟨⟨hlow, hhigh, hn⟩, hfits⟩
    refine Draw.reliable_pure ?_
    -- Below the highest second there is room for any nanoseconds.
    have hlast : s ≠ high ∨ n ≤ room := by simpa [fits] using hfits
    simp only [first, last, nanosLimit, nanosPerSecond] at *
    omega

end Mode

theorem spanOf_eq_ok {s n m : Nat} (hm : s * nanosPerSecond + n = m) (h : m < Span.limit) :
    spanOf s n = .ok ⟨m, h⟩ := by
  have hspan : Span.ofNanos? m = some ⟨m, h⟩ := Span.ofNanos?_eq_some.mpr rfl
  rw [Nat.mul_comm] at hm
  rw [spanOf, hm, hspan]

/-- A range of more than one span draws in its mode. -/
theorem draw_eq_bind (hne : r.shortest ≠ r.longest) :
    r.draw = r.mode.draw.bind fun p => Draw.ofExcept (spanOf p.1 p.2) := by
  funext words
  simp only [draw, hne, if_false, Draw.bind]
  cases r.mode.draw words with
  | error e => rfl
  | ok result =>
    simp only
    cases spanOf result.1.1 result.1.2 <;> rfl

/-- A pause is drawn reliably, and it lies in its range. -/
theorem reliable_draw (r : PauseRange) :
    r.draw.Reliable fun span => r.shortest ≤ span ∧ span ≤ r.longest := by
  by_cases hsame : r.shortest = r.longest
  · have hdraw : r.draw = Draw.pure r.shortest := by
      funext words
      simp [draw, hsame, Draw.pure]
    rw [hdraw]
    exact Draw.reliable_pure ⟨Nat.le_refl _, r.ordered⟩
  · obtain ⟨hfits, hfirst, hlast⟩ := r.mode_spec
    rw [draw_eq_bind hsame]
    refine (Mode.reliable_draw hfits).bind ?_
    rintro ⟨s, n⟩ ⟨⟨hlow, hhigh⟩, -⟩
    rw [hfirst] at hlow
    rw [hlast] at hhigh
    obtain ⟨m, hm⟩ : ∃ m, s * nanosPerSecond + n = m := ⟨_, rfl⟩
    rw [hm] at hlow hhigh
    simp only [spanOf_eq_ok hm (Nat.lt_of_le_of_lt hhigh r.longest.nanos_lt)]
    exact Draw.reliable_pure ⟨hlow, hhigh⟩

/-! ## Carrying nanoseconds over into seconds -/

theorem draw_of_ne (hne : r.shortest ≠ r.longest) (h : r.draw words = .ok (span, rest)) :
    ∃ s n, r.mode.draw words = .ok ((s, n), rest) ∧ spanOf s n = .ok span := by
  simp only [draw, if_neg hne] at h
  split at h
  case h_1 => cases h
  case h_2 hdraw =>
    split at h
    case h_1 => cases h
    case h_2 hspan =>
      cases h
      exact ⟨_, _, hdraw, hspan⟩

/-- Whole seconds of the nanoseconds are seconds of the span. -/
theorem carry_of_spanOf (h : spanOf s n = .ok span) :
    span.seconds = s + n / nanosPerSecond ∧ span.subsecond = n % nanosPerSecond := by
  simp only [spanOf] at h
  split at h
  case h_1 hspan =>
    cases h
    have hnanos := Span.ofNanos?_eq_some.mp hspan
    rw [Span.seconds, Span.subsecond, ← hnanos]
    exact ⟨Nat.mul_add_div (by decide) s n, Nat.mul_add_mod _ s n⟩
  case h_2 => cases h

/-- Of every range that is accepted, the numbers of its mode are in order, fit in their words and
reach from its shortest span to its longest. All that can happen to a draw is that the words run
out. What is drawn lies in the range, and where seconds and nanoseconds are drawn, carrying
between them ends in a span of fewer than `2 ^ 64` seconds and less than a second more. -/
theorem draws_stay_in_range {min max : Float} {r : PauseRange}
    (h : ofSeconds? min max = some r) :
    Span.ofFloat? min = some r.shortest ∧ Span.ofFloat? max = some r.longest ∧
      (r.longest.subsecond < r.shortest.subsecond →
        r.shortest.seconds < r.longest.seconds ∧
          r.longest.subsecond + nanosPerSecond < 2 ^ 32) ∧
      r.mode.Fits ∧ r.mode.first = r.shortest.nanos ∧ r.mode.last = r.longest.nanos ∧
      (∀ words e, r.draw words = .error e → e = .starved) ∧
      ∀ words span rest, r.draw words = .ok (span, rest) →
        r.shortest ≤ span ∧ span ≤ r.longest ∧ span.seconds < 2 ^ 64 ∧
        span.subsecond < nanosPerSecond ∧
        (r.shortest = r.longest → span = r.shortest ∧ rest = words) ∧
        (r.shortest ≠ r.longest → ∃ s n, r.mode.draw words = .ok ((s, n), rest) ∧
          n < r.mode.nanosLimit ∧ span.seconds = s + n / nanosPerSecond ∧
          span.subsecond = n % nanosPerSecond) := by
  obtain ⟨hmin, hmax⟩ := ofSeconds?_eq_some_iff.mp h
  obtain ⟨hfits, hfirst, hlast⟩ := r.mode_spec
  refine ⟨hmin, hmax, fun hborrow => ?_, hfits, hfirst, hlast,
    fun words e => r.reliable_draw.starved, fun words span rest hdraw => ?_⟩
  · have hordered : r.shortest.nanos ≤ r.longest.nanos := r.ordered
    have hshortest := r.shortest.nanos_eq
    have hlongest := r.longest.nanos_eq
    have hupper := r.longest.subsecond_lt
    simp only [nanosPerSecond] at *
    omega
  · obtain ⟨hlow, hhigh⟩ := r.reliable_draw.sound hdraw
    refine ⟨hlow, hhigh, span.seconds_lt, span.subsecond_lt, fun hsame => ?_, fun hne => ?_⟩
    · simp only [draw, if_pos hsame] at hdraw
      cases hdraw
      exact ⟨rfl, rfl⟩
    · obtain ⟨s, n, hmode, hspan⟩ := draw_of_ne hne hdraw
      exact ⟨s, n, hmode, ((Mode.reliable_draw hfits).sound hmode).2, carry_of_spanOf hspan⟩

/-- From three quarters of a second to `10 ^ 11` seconds, whose nanoseconds do not fit in 64 bits. A
second is borrowed for the upper end, and one is carried for the draw. -/
theorem borrowing_draw_stays_in_range :
    ∃ r span, ofSeconds? 0.75 100000000000 = some r ∧
      r.mode = .seconds 0 99999999999 750000000 250000000 ∧ r.mode.Fits ∧
      r.draw [1, 2, 3000000001] = .ok (span, []) ∧ r.shortest ≤ span ∧ span ≤ r.longest ∧
      ∃ s n, r.mode.draw [1, 2, 3000000001] = .ok ((s, n), []) ∧ nanosPerSecond ≤ n ∧
        n < 2 ^ 32 ∧ span.seconds = s + n / nanosPerSecond ∧
        span.subsecond = n % nanosPerSecond := by
  let r : PauseRange :=
    ⟨⟨750000000, by decide⟩, ⟨100000000000000000000, by decide⟩, by decide⟩
  have hrange : ofSeconds? 0.75 100000000000 = some r := by decide +kernel
  have hmode : r.mode = .seconds 0 99999999999 750000000 250000000 := by decide +kernel
  have hwords : r.mode.draw [1, 2, 3000000001] = .ok ((46, 1448491931), []) := by decide +kernel
  have hdraw : r.draw [1, 2, 3000000001] = .ok (⟨47448491931, by decide⟩, []) := by decide +kernel
  obtain ⟨-, -, -, hfits, -, -, -, hdraws⟩ := draws_stay_in_range hrange
  obtain ⟨hlow, hhigh, -, -, -, hcarry⟩ := hdraws _ _ _ hdraw
  obtain ⟨s, n, hpair, hlimit, hseconds, hsubsecond⟩ := hcarry (by decide)
  have hn : n = 1448491931 := by
    rw [hwords] at hpair
    cases hpair
    rfl
  rw [hmode] at hlimit
  exact ⟨r, _, hrange, hmode, hfits, hdraw, hlow, hhigh, s, n, hpair, by rw [hn]; decide, hlimit,
    hseconds, hsubsecond⟩

end OperatorKit.Load.PauseRange
