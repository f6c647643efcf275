import Mathlib.Data.Set.Card
import OperatorKit.Proofs.Random.Retry

/-!
# How many rows of words stand for a value

A draw passes over words until a row of them, always of the same width, decides it. Counting the
rows that decide for a value tells how likely the value is. A draw between two bounds has equally
many rows for every number, and two draws one behind the other have the rows of the first in front
of the rows of the second.
-/

namespace OperatorKit.Random

namespace Draw

variable {α β : Type} {d : Draw α} {e : Draw β} {width width' : Nat} {raw : List UInt32}

/-- The rows of `width` words that a draw uses up for a value. -/
def rows (d : Draw α) (width : Nat) (a : α) : Set (List UInt32) :=
  {raw | raw.length = width ∧ d raw = .ok (a, [])}

theorem mem_rows {a : α} : raw ∈ d.rows width a ↔ raw.length = width ∧ d raw = .ok (a, []) :=
  Iff.rfl

/-- Whatever a draw passes over, its value is that of one row among the words that it uses up. -/
structure DecidedBy (d : Draw α) (width : Nat) : Prop where
  exists_row {words rest : List UInt32} {a : α} :
    d words = .ok (a, rest) → ∃ raw ∈ d.rows width a, (raw ++ rest).Sublist words

theorem DecidedBy.length_le (hd : d.DecidedBy width) {words rest : List UInt32} {a : α}
    (h : d words = .ok (a, rest)) : width + rest.length ≤ words.length := by
  obtain ⟨raw, ⟨hwidth, -⟩, hsub⟩ := hd.exists_row h
  have := hsub.length_le
  rwa [List.length_append, hwidth] at this

/-- With no words to pass over, what is used up is the row itself. -/
theorem DecidedBy.eq_append (hd : d.DecidedBy width) {rest : List UInt32} {a : α}
    (h : d raw = .ok (a, rest)) (hlength : raw.length = width + rest.length) :
    ∃ row ∈ d.rows width a, raw = row ++ rest := by
  obtain ⟨row, hrow, hsub⟩ := hd.exists_row h
  refine ⟨row, hrow, (hsub.eq_of_length ?_).symm⟩
  rw [List.length_append, hrow.1, hlength]

/-! ## Going on with the value -/

theorem mem_rows_ofExcept {f : α → Except Fault β} {b : β} :
    raw ∈ (d.bind fun a => ofExcept (f a)).rows width b ↔ ∃ a, f a = .ok b ∧ raw ∈ d.rows width a := by
  simp only [mem_rows, Draw.bind]
  constructor
  · rintro ⟨hwidth, h⟩
    split at h
    case h_1 => cases h
    case h_2 a words hd =>
      cases hf : f a with
      | error e =>
        rw [hf] at h
        cases h
      | ok b' =>
        rw [hf] at h
        cases h
        exact ⟨a, hf, hwidth, hd⟩
  · rintro ⟨a, hf, hwidth, hd⟩
    refine ⟨hwidth, ?_⟩
    simp only [hd, hf]
    rfl

theorem mem_rows_pure {f : α → β} {b : β} :
    raw ∈ (d.bind fun a => .pure (f a)).rows width b ↔ ∃ a, f a = b ∧ raw ∈ d.rows width a :=
  (mem_rows_ofExcept (f := fun a => .ok (f a))).trans (by simp only [Except.ok.injEq])

theorem DecidedBy.ofExcept {f : α → Except Fault β} (hd : d.DecidedBy width) :
    (d.bind fun a => .ofExcept (f a)).DecidedBy width := by
  constructor
  intro words rest b h
  simp only [Draw.bind] at h
  split at h
  case h_1 => cases h
  case h_2 a words' hdraw =>
    cases hf : f a with
    | error e =>
      rw [hf] at h
      cases h
    | ok b' =>
      rw [hf] at h
      cases h
      obtain ⟨raw, hraw, hsub⟩ := hd.exists_row hdraw
      exact ⟨raw, mem_rows_ofExcept.mpr ⟨a, hf, hraw⟩, hsub⟩

theorem DecidedBy.pure {f : α → β} (hd : d.DecidedBy width) :
    (d.bind fun a => .pure (f a)).DecidedBy width :=
  hd.ofExcept (f := fun a => .ok (f a))

/-! ## Two draws -/

/-- Draw two values, one behind the other. -/
def both (d : Draw α) (e : Draw β) : Draw (α × β) :=
  d.bind fun a => e.bind fun b => .pure (a, b)

theorem both_eq_ok_iff {words rest : List UInt32} {a : α} {b : β} :
    d.both e words = .ok ((a, b), rest) ↔
      ∃ between, d words = .ok (a, between) ∧ e between = .ok (b, rest) := by
  simp only [both, Draw.bind, Draw.pure]
  constructor
  · intro h
    split at h
    case h_1 => cases h
    case h_2 between hd =>
      split at h
      case h_1 => cases h
      case h_2 he =>
        cases h
        exact ⟨between, hd, he⟩
  · rintro ⟨between, hd, he⟩
    simp only [hd, he]

/-- The rows of two draws are rows of the first with rows of the second behind them. -/
theorem rows_both {P : α → Prop} (hreliable : d.Reliable P) (hd : d.DecidedBy width)
    (he : e.DecidedBy width') (a : α) (b : β) :
    (d.both e).rows (width + width') (a, b) =
      (fun row : List UInt32 × List UInt32 => row.1 ++ row.2) '' d.rows width a ×ˢ e.rows width' b := by
  ext raw
  simp only [Set.mem_image, Set.mem_prod, Prod.exists]
  constructor
  · rintro ⟨hwidth, h⟩
    obtain ⟨between, hfirst, hsecond⟩ := both_eq_ok_iff.mp h
    have hle := hd.length_le hfirst
    have hle' := he.length_le hsecond
    rw [List.length_nil] at hle'
    -- Neither draw had words to pass over.
    obtain ⟨row, hrow, rfl⟩ := hd.eq_append hfirst (by omega)
    exact ⟨row, between, ⟨hrow, by omega, hsecond⟩, rfl⟩
  · rintro ⟨row, row', ⟨⟨hlength, hfirst⟩, hlength', hsecond⟩, rfl⟩
    refine ⟨by rw [List.length_append, hlength, hlength'], both_eq_ok_iff.mpr ⟨row', ?_, hsecond⟩⟩
    simpa using hreliable.extend row' hfirst

/-- Two draws have as many rows for two values as there are pairs of their own rows. -/
theorem ncard_rows_both {P : α → Prop} (hreliable : d.Reliable P) (hd : d.DecidedBy width)
    (he : e.DecidedBy width') (a : α) (b : β) :
    ((d.both e).rows (width + width') (a, b)).ncard =
      (d.rows width a).ncard * (e.rows width' b).ncard := by
  rw [rows_both hreliable hd he, Set.InjOn.ncard_image, Set.ncard_prod]
  rintro ⟨row, row'⟩ ⟨hrow, -⟩ ⟨other, other'⟩ ⟨hother, -⟩ heq
  obtain ⟨rfl, rfl⟩ := List.append_inj heq (hrow.1.trans hother.1.symm)
  rfl

theorem DecidedBy.both {P : α → Prop} (hreliable : d.Reliable P) (hd : d.DecidedBy width)
    (he : e.DecidedBy width') : (d.both e).DecidedBy (width + width') := by
  constructor
  rintro words rest ⟨a, b⟩ h
  obtain ⟨between, hfirst, hsecond⟩ := both_eq_ok_iff.mp h
  obtain ⟨row, hrow, hsub⟩ := hd.exists_row hfirst
  obtain ⟨row', hrow', hsub'⟩ := he.exists_row hsecond
  refine ⟨row ++ row', ?_, ?_⟩
  · rw [rows_both hreliable hd he]
    exact ⟨(row, row'), ⟨hrow, hrow'⟩, rfl⟩
  · rw [List.append_assoc]
    exact (hsub'.append_left row).trans hsub

/-! ## Drawing again -/

section

variable {accept : α → Bool} {tries : Nat}

/-- What is passed over by drawing again is passed over, too. -/
theorem exists_row_of_retry (hd : d.DecidedBy width) {words rest : List UInt32} {a : α}
    (h : d.retry accept tries words = .ok (a, rest)) :
    accept a = true ∧ ∃ row ∈ d.rows width a, (row ++ rest).Sublist words := by
  induction tries generalizing words with
  | zero => cases h
  | succ tries ih =>
    simp only [retry] at h
    split at h
    case h_1 => cases h
    case h_2 b words' hdraw =>
      obtain ⟨row, hrow, hsub⟩ := hd.exists_row hdraw
      split at h
      case isTrue haccept =>
        cases h
        exact ⟨haccept, row, hrow, hsub⟩
      case isFalse =>
        obtain ⟨haccept, row', hrow', hsub'⟩ := ih h
        exact ⟨haccept, row', hrow', hsub'.trans ((List.sublist_append_right row words').trans hsub)⟩

/-- A row decides a repeated draw if it decides the draw itself, for a value that is accepted. -/
theorem mem_rows_retry (hd : d.DecidedBy width) (hwidth : 0 < width) {a : α} :
    raw ∈ rows (fun words => d.retry accept words.length words) width a ↔
      accept a = true ∧ raw ∈ d.rows width a := by
  constructor
  · rintro ⟨hlength, h⟩
    obtain ⟨haccept, row, hrow, hsub⟩ := exists_row_of_retry hd h
    rw [List.append_nil] at hsub
    rw [← hsub.eq_of_length (hrow.1.trans hlength.symm)]
    exact ⟨haccept, hrow⟩
  · rintro ⟨haccept, hlength, hdraw⟩
    obtain ⟨tries, htries⟩ : ∃ tries, raw.length = tries + 1 := ⟨width - 1, by omega⟩
    exact ⟨hlength, by simp [htries, retry, hdraw, haccept]⟩

theorem DecidedBy.retry (hd : d.DecidedBy width) (hwidth : 0 < width) :
    DecidedBy (fun words => d.retry accept words.length words) width := by
  constructor
  intro words rest a h
  obtain ⟨haccept, row, hrow, hsub⟩ := exists_row_of_retry hd h
  exact ⟨row, (mem_rows_retry hd hwidth).mpr ⟨haccept, hrow⟩, hsub⟩

end

end Draw

/-! ## Between two bounds -/

section

variable {bits low high k : Nat}

/-- In a range of `n` numbers, a raw number stands for the number that the high part of its product
with `n` tells, if the low part lies in the largest zone that `n` divides. -/
theorem acceptBetween_eq_some_iff (hle : low ≤ high) (hhigh : high < 2 ^ bits) {v : Nat} :
    acceptBetween bits low high v = some k ↔
      low + v * (high - low + 1) / 2 ^ bits = k ∧
        v * (high - low + 1) % 2 ^ bits < (high - low + 1) * (2 ^ bits / (high - low + 1)) := by
  have hpow : 0 < 2 ^ bits := Nat.two_pow_pos bits
  obtain ⟨n, hn⟩ : ∃ n, high - low + 1 = n := ⟨_, rfl⟩
  have hnle : n ≤ 2 ^ bits := by omega
  simp only [acceptBetween]
  rcases size_mod hle hhigh with hsize | ⟨hsize, rfl, rfl⟩
  · have hpos : n ≠ 0 := by omega
    rw [hsize, hn, if_neg hpos]
    -- What the zone leaves over is the rest of the division.
    have hrest : (2 ^ bits - n) % n = 2 ^ bits % n := (Nat.mod_eq_sub_mod hnle).symm
    have hzone := Nat.div_add_mod (2 ^ bits) n
    have hlt := Nat.mod_lt (2 ^ bits) (Nat.pos_of_ne_zero hpos)
    rw [hrest]
    split
    case isTrue h =>
      rw [Option.some.injEq, and_iff_left]
      omega
    case isFalse h =>
      simp only [reduceCtorEq, false_iff, not_and]
      omega
  · have hall : n = 2 ^ bits := by omega
    rw [hsize, if_pos rfl, hn, hall, Nat.mul_mod_left, Nat.mul_div_cancel _ hpow, Nat.div_self hpow,
      Option.some.injEq, Nat.zero_add, Nat.mul_one, and_iff_left hpow]

/-- Every number of a range has the same share of the raw numbers. -/
theorem card_acceptBetween (hle : low ≤ high) (hhigh : high < 2 ^ bits) (hlow : low ≤ k)
    (hk : k ≤ high) :
    ((Finset.range (2 ^ bits)).filter fun v => acceptBetween bits low high v = some k).card =
      2 ^ bits / (high - low + 1) := by
  have hshare (v : Nat) : acceptBetween bits low high v = some k ↔
      v * (high - low + 1) / 2 ^ bits = k - low ∧
        v * (high - low + 1) % 2 ^ bits < (high - low + 1) * (2 ^ bits / (high - low + 1)) := by
    rw [acceptBetween_eq_some_iff hle hhigh]
    omega
  rw [Finset.filter_congr fun v _ => hshare v]
  exact card_share (Nat.succ_pos _) (Nat.mul_div_le _ _) (by omega)

theorem share_pos (hle : low ≤ high) (hhigh : high < 2 ^ bits) :
    0 < 2 ^ bits / (high - low + 1) :=
  Nat.div_pos (by omega) (Nat.succ_pos _)

/-! ## Rows as raw numbers -/

/-- The raw number that a row of words is, the lowest word first. -/
def number : List UInt32 → Nat
  | []            => 0
  | word :: words => word.toNat + 2 ^ 32 * number words

theorem two_pow_width_succ (width : Nat) : 2 ^ (32 * (width + 1)) = 2 ^ 32 * 2 ^ (32 * width) := by
  rw [Nat.mul_succ, Nat.add_comm, Nat.pow_add]

theorem number_lt (raw : List UInt32) : number raw < 2 ^ (32 * raw.length) := by
  induction raw with
  | nil => exact Nat.one_pos
  | cons word words ih =>
    have := word.toNat_lt
    rw [number, List.length_cons, two_pow_width_succ]
    omega

theorem number_inj {raw raw' : List UInt32} (hlength : raw.length = raw'.length)
    (h : number raw = number raw') : raw = raw' := by
  induction raw generalizing raw' with
  | nil => exact (List.length_eq_zero_iff.mp hlength.symm).symm
  | cons word words ih =>
    cases raw' with
    | nil => cases hlength
    | cons word' words' =>
      have := word.toNat_lt
      have := word'.toNat_lt
      simp only [number] at h
      have hword : word = word' := UInt32.toNat_inj.mp (by omega)
      rw [hword, ih (Nat.succ.inj hlength) (by omega)]

theorem exists_number_eq {width v : Nat} (h : v < 2 ^ (32 * width)) :
    ∃ raw : List UInt32, raw.length = width ∧ number raw = v := by
  induction width generalizing v with
  | zero => exact ⟨[], rfl, (Nat.lt_one_iff.mp h).symm⟩
  | succ width ih =>
    rw [two_pow_width_succ] at h
    obtain ⟨words, hlength, hwords⟩ := ih (Nat.div_lt_of_lt_mul h)
    refine ⟨UInt32.ofNat v :: words, by rw [List.length_cons, hlength], ?_⟩
    rw [number, hwords, UInt32.toNat_ofNat', Nat.mod_add_div]

/-- A draw that looks at a row as one raw number has as many rows for a value as there are raw
numbers that it accepts for it. -/
theorem ncard_rows_eq_card {d : Draw Nat} {accept : Nat → Option Nat} {width : Nat}
    (hdraw : ∀ raw : List UInt32, raw.length = width →
      (d raw = .ok (k, []) ↔ accept (number raw) = some k)) :
    (d.rows width k).ncard =
      ((Finset.range (2 ^ (32 * width))).filter fun v => accept v = some k).card := by
  have himage : number '' d.rows width k =
      ((Finset.range (2 ^ (32 * width))).filter fun v => accept v = some k) := by
    ext v
    simp only [Draw.mem_rows, Set.mem_image, Finset.mem_coe, Finset.mem_filter, Finset.mem_range]
    constructor
    · rintro ⟨raw, ⟨hlength, h⟩, rfl⟩
      exact ⟨hlength ▸ number_lt raw, (hdraw raw hlength).mp h⟩
    · rintro ⟨hv, haccept⟩
      obtain ⟨raw, hlength, rfl⟩ := exists_number_eq hv
      exact ⟨raw, ⟨hlength, (hdraw raw hlength).mpr haccept⟩, rfl⟩
  have hinj : Set.InjOn number (d.rows width k) := fun raw hraw raw' hraw' h =>
    number_inj (hraw.1.trans hraw'.1.symm) h
  rw [← hinj.ncard_image, himage, Set.ncard_coe_finset]

/-! ### One word a try -/

theorem between32_singleton (word : UInt32) :
    between32 low high [word] = .ok (k, []) ↔ acceptBetween 32 low high word.toNat = some k := by
  simp only [between32]
  cases acceptBetween 32 low high word.toNat <;> simp

theorem decidedBy_between32 (low high : Nat) : (between32 low high).DecidedBy 1 := by
  constructor
  intro words rest k h
  fun_induction between32 low high words with
  | case1 word words k' hk =>
    cases h
    exact ⟨[word], ⟨rfl, (between32_singleton word).mpr hk⟩, List.Sublist.refl _⟩
  | case2 word words hk ih =>
    obtain ⟨row, hrow, hsub⟩ := ih h
    exact ⟨row, hrow, hsub.cons word⟩
  | case3 => cases h

theorem ncard_rows_between32 (hle : low ≤ high) (hhigh : high < 2 ^ 32) (hlow : low ≤ k)
    (hk : k ≤ high) : ((between32 low high).rows 1 k).ncard = 2 ^ 32 / (high - low + 1) := by
  rw [← card_acceptBetween hle hhigh hlow hk]
  refine ncard_rows_eq_card fun raw hlength => ?_
  obtain ⟨word, rfl⟩ := List.length_eq_one_iff.mp hlength
  exact between32_singleton word

/-! ### Two words a try -/

theorem firstWide_pair {accept : Nat → Option Nat} (lo hi : UInt32) :
    firstWide accept [lo, hi] = .ok (k, []) ↔ accept (wide lo hi) = some k := by
  simp only [firstWide]
  cases accept (wide lo hi) <;> simp

theorem decidedBy_firstWide (accept : Nat → Option Nat) : (firstWide accept).DecidedBy 2 := by
  constructor
  intro words rest k h
  fun_induction firstWide accept words with
  | case1 lo hi words k' hk =>
    cases h
    exact ⟨[lo, hi], ⟨rfl, (firstWide_pair lo hi).mpr hk⟩, List.Sublist.refl _⟩
  | case2 lo hi words hk ih =>
    obtain ⟨row, hrow, hsub⟩ := ih h
    exact ⟨row, hrow, (hsub.cons hi).cons lo⟩
  | case3 => cases h

theorem decidedBy_between64 (low high : Nat) : (between64 low high).DecidedBy 2 := by
  rw [between64_eq_firstWide]
  exact decidedBy_firstWide _

theorem ncard_rows_between64 (hle : low ≤ high) (hhigh : high < 2 ^ 64) (hlow : low ≤ k)
    (hk : k ≤ high) : ((between64 low high).rows 2 k).ncard = 2 ^ 64 / (high - low + 1) := by
  rw [← card_acceptBetween hle hhigh hlow hk, between64_eq_firstWide]
  refine ncard_rows_eq_card fun raw hlength => ?_
  obtain ⟨lo, hi, rfl⟩ := List.length_eq_two.mp hlength
  exact firstWide_pair lo hi

end

end OperatorKit.Random
