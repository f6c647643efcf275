import OperatorKit.Proofs.Load.Pause
import OperatorKit.Proofs.Random.Rows

/-!
# Every pause is equally likely

The words of one try either decide a pause or are passed over. In each mode the rows of words that
decide can be told from the nanoseconds of the pause, and equally many of them decide for every
span of the range.
-/

namespace OperatorKit.Load.PauseRange

open OperatorKit.Random

variable {r : PauseRange}

namespace Mode

variable {m : Mode} {nanoseconds : Nat}

/-- The words of one try: one for nanoseconds in 32 bits, two for a number in 64 bits, and both for
seconds and nanoseconds. -/
def width : Mode → Nat
  | subsecond .. => 1
  | nanos ..     => 2
  | seconds ..   => 3

/-- How many rows of words decide for one span. -/
def share : Mode → Nat
  | subsecond _ low high => 2 ^ 32 / (high - low + 1)
  | nanos low high       => 2 ^ 64 / (high - low + 1)
  | seconds low high _ _ => 2 ^ 64 / (high - low + 1) * (2 ^ 32 / nanosPerSecond)

theorem share_pos (h : m.Fits) : 0 < m.share := by
  cases m with
  | subsecond s low high =>
    obtain ⟨-, hle, hhigh⟩ := h
    exact Random.share_pos hle hhigh
  | nanos low high =>
    obtain ⟨hle, hhigh⟩ := h
    exact Random.share_pos hle hhigh
  | seconds low high offset room =>
    obtain ⟨hle, hhigh, -⟩ := h
    exact Nat.mul_pos (Random.share_pos hle hhigh) (by decide)

/-! ## Seconds and nanoseconds apart -/

section

variable {low high room s n : Nat} {raw : List UInt32}

theorem decidedBy_pair (hle : low ≤ high) (hhigh : high < 2 ^ 64) : (pair low high).DecidedBy 3 :=
  Draw.DecidedBy.both (reliable_between64 hle hhigh) (decidedBy_between64 low high)
    (decidedBy_between32 0 (nanosPerSecond - 1))

theorem ncard_rows_pair (hle : low ≤ high) (hhigh : high < 2 ^ 64) (hlow : low ≤ s) (hs : s ≤ high)
    (hn : n < nanosPerSecond) :
    ((pair low high).rows 3 (s, n)).ncard =
      2 ^ 64 / (high - low + 1) * (2 ^ 32 / nanosPerSecond) := by
  have hrows := Draw.ncard_rows_both (reliable_between64 hle hhigh) (decidedBy_between64 low high)
    (decidedBy_between32 0 (nanosPerSecond - 1)) s n
  rw [ncard_rows_between64 hle hhigh hlow hs,
    ncard_rows_between32 (Nat.zero_le _) nanos_lt_two_pow (Nat.zero_le n) (by omega)] at hrows
  exact hrows

theorem decidedBy_drawPair (hle : low ≤ high) (hhigh : high < 2 ^ 64) :
    Draw.DecidedBy (fun words => drawPair low high room words.length words) 3 := by
  simp only [drawPair_eq_retry]
  exact (decidedBy_pair hle hhigh).retry (by decide)

theorem mem_rows_drawPair (hle : low ≤ high) (hhigh : high < 2 ^ 64) :
    raw ∈ Draw.rows (fun words => drawPair low high room words.length words) 3 (s, n) ↔
      fits high room s n = true ∧ raw ∈ (pair low high).rows 3 (s, n) := by
  simp only [drawPair_eq_retry]
  exact Draw.mem_rows_retry (decidedBy_pair hle hhigh) (by decide)

/-- Every number of nanoseconds from the first one on comes from one pair of seconds and nanoseconds,
and that pair fits. -/
theorem exists_pair {offset x : Nat} (hroom : room < nanosPerSecond)
    (hfirst : low * nanosPerSecond + offset ≤ x)
    (hlast : x ≤ high * nanosPerSecond + (offset + room)) :
    ∃ s n, low ≤ s ∧ s ≤ high ∧ n < nanosPerSecond ∧ fits high room s n = true ∧
      s * nanosPerSecond + (offset + n) = x ∧
      ∀ s' n', n' < nanosPerSecond → s' * nanosPerSecond + (offset + n') = x → s' = s ∧ n' = n := by
  have hfits (s n : Nat) : fits high room s n = true ↔ s ≠ high ∨ n ≤ room := by simp [fits]
  refine ⟨(x - offset) / nanosPerSecond, (x - offset) % nanosPerSecond, ?_⟩
  simp only [hfits, nanosPerSecond] at *
  refine ⟨by omega, by omega, by omega, by omega, by omega, fun s' n' hn' hsum => ?_⟩
  omega

end

/-! ## All modes -/

theorem decidedBy_draw (h : m.Fits) : m.draw.DecidedBy m.width := by
  cases m with
  | subsecond s low high =>
    rw [draw_subsecond]
    exact (decidedBy_between32 low high).pure
  | nanos low high =>
    rw [draw_nanos]
    exact (decidedBy_between64 low high).pure
  | seconds low high offset room =>
    obtain ⟨hle, hhigh, -⟩ := h
    rw [draw_seconds]
    exact (decidedBy_drawPair hle hhigh).pure

/-- The rows that decide for a number of nanoseconds, in seconds and nanoseconds of any split. -/
def rowsOf (m : Mode) (nanoseconds : Nat) : Set (List UInt32) :=
  {raw | ∃ p, p.1 * nanosPerSecond + p.2 = nanoseconds ∧ raw ∈ m.draw.rows m.width p}

theorem mem_rowsOf {raw : List UInt32} :
    raw ∈ m.rowsOf nanoseconds ↔
      ∃ p, p.1 * nanosPerSecond + p.2 = nanoseconds ∧ raw ∈ m.draw.rows m.width p :=
  Iff.rfl

/-- The mode only says how the nanoseconds of a span are drawn, not how often. -/
theorem ncard_rowsOf (h : m.Fits) (hfirst : m.first ≤ nanoseconds) (hlast : nanoseconds ≤ m.last) :
    (m.rowsOf nanoseconds).ncard = m.share := by
  cases m with
  | subsecond s low high =>
    obtain ⟨-, hle, hhigh⟩ := h
    simp only [first, last] at hfirst hlast
    have hrows : (subsecond s low high).rowsOf nanoseconds =
        (between32 low high).rows 1 (nanoseconds - s * nanosPerSecond) := by
      ext raw
      simp only [mem_rowsOf, draw_subsecond, width, Draw.mem_rows_pure, Prod.exists, Prod.mk.injEq]
      constructor
      · rintro ⟨_, _, hsum, n, ⟨rfl, rfl⟩, hraw⟩
        rwa [← hsum, Nat.add_sub_cancel_left]
      · intro hraw
        exact ⟨s, _, by omega, _, ⟨rfl, rfl⟩, hraw⟩
    rw [hrows, share, ncard_rows_between32 hle hhigh (by omega) (by omega)]
  | nanos low high =>
    obtain ⟨hle, hhigh⟩ := h
    have hrows : (nanos low high).rowsOf nanoseconds = (between64 low high).rows 2 nanoseconds := by
      ext raw
      simp only [mem_rowsOf, draw_nanos, width, Draw.mem_rows_pure, Prod.exists, Prod.mk.injEq]
      constructor
      · rintro ⟨_, _, hsum, n, ⟨rfl, rfl⟩, hraw⟩
        rwa [← hsum, Nat.zero_mul, Nat.zero_add]
      · intro hraw
        exact ⟨0, _, by omega, _, ⟨rfl, rfl⟩, hraw⟩
    rw [hrows, share, ncard_rows_between64 hle hhigh hfirst hlast]
  | seconds low high offset room =>
    obtain ⟨hle, hhigh, -, hroom⟩ := h
    simp only [first, last] at hfirst hlast
    obtain ⟨s, n, hlow, hs, hn, hfits, hsum, hunique⟩ := exists_pair hroom hfirst hlast
    have hrows : (seconds low high offset room).rowsOf nanoseconds =
        (pair low high).rows 3 (s, n) := by
      ext raw
      simp only [mem_rowsOf, draw_seconds, width, Draw.mem_rows_pure, Prod.exists, Prod.mk.injEq,
        mem_rows_drawPair hle hhigh]
      constructor
      · rintro ⟨_, _, hsum', s', n', ⟨rfl, rfl⟩, -, hraw⟩
        obtain ⟨-, -, hn'⟩ := (reliable_pair hle hhigh).sound hraw.2
        obtain ⟨rfl, rfl⟩ := hunique s' n' hn' hsum'
        exact hraw
      · intro hraw
        exact ⟨s, offset + n, hsum, s, n, ⟨rfl, rfl⟩, hfits, hraw⟩
    rw [hrows, share, ncard_rows_pair hle hhigh hlow hs hn]

end Mode

theorem spanOf_eq_ok_iff {s n : Nat} {span : Span} :
    spanOf s n = .ok span ↔ s * nanosPerSecond + n = span.nanos := by
  constructor
  · intro h
    obtain ⟨hseconds, hsubsecond⟩ := carry_of_spanOf h
    rw [span.nanos_eq, hseconds, hsubsecond, Nat.add_mul, Nat.add_assoc, Nat.div_add_mod']
  · intro h
    exact spanOf_eq_ok h span.nanos_lt

/-- A row decides for a span exactly if it decides for its nanoseconds. -/
theorem rows_draw (hne : r.shortest ≠ r.longest) (span : Span) :
    r.draw.rows r.mode.width span = r.mode.rowsOf span.nanos := by
  ext raw
  rw [draw_eq_bind hne, Draw.mem_rows_ofExcept, Mode.mem_rowsOf]
  simp only [spanOf_eq_ok_iff]

/-- In a range of more than one span, every span has the same number of rows of words that decide
for it, and that number is positive. Rows have the words of one try in the mode of the range. They
decide for no other spans, and every draw is decided by one such row among the words that it uses
up, with the words that are left behind it. -/
theorem draws_are_uniform (r : PauseRange) (h : r.shortest < r.longest) :
    0 < r.mode.share ∧
    (∀ span, r.shortest ≤ span → span ≤ r.longest →
      (r.draw.rows r.mode.width span).ncard = r.mode.share) ∧
    (∀ span raw, raw ∈ r.draw.rows r.mode.width span → r.shortest ≤ span ∧ span ≤ r.longest) ∧
    r.draw.DecidedBy r.mode.width := by
  have hne : r.shortest ≠ r.longest := by
    intro hsame
    rw [hsame] at h
    exact Nat.lt_irrefl _ h
  obtain ⟨hfits, hfirst, hlast⟩ := r.mode_spec
  refine ⟨Mode.share_pos hfits, fun span hlow hhigh => ?_, fun span raw hraw => ?_, ?_⟩
  · rw [rows_draw hne]
    exact Mode.ncard_rowsOf hfits (hfirst ▸ hlow) (hlast ▸ hhigh)
  · exact r.reliable_draw.sound hraw.2
  · rw [draw_eq_bind hne]
    exact (Mode.decidedBy_draw hfits).ofExcept

/-- From three quarters of a second to `10 ^ 11` seconds, `2 ^ 64 / 10 ^ 11` numbers of 64 bits stand
for each second and `2 ^ 32 / 10 ^ 9` words for each nanosecond of a second. -/
theorem draws_are_uniform_of_borrowing :
    ∃ r : PauseRange, r.shortest.nanos = 750000000 ∧ r.longest.nanos = 10 ^ 20 ∧
      r.shortest < r.longest ∧ ∀ span, r.shortest ≤ span → span ≤ r.longest →
        {raw | raw.length = 3 ∧ r.draw raw = .ok (span, [])}.ncard = 184467440 * 4 := by
  let r : PauseRange :=
    ⟨⟨750000000, by decide⟩, ⟨100000000000000000000, by decide⟩, by decide⟩
  have hlt : r.shortest < r.longest := by decide
  have hmode : r.mode = .seconds 0 99999999999 750000000 250000000 := by decide +kernel
  obtain ⟨-, hshare, -⟩ := draws_are_uniform r hlt
  rw [hmode] at hshare
  exact ⟨r, rfl, rfl, hlt, hshare⟩

end OperatorKit.Load.PauseRange
