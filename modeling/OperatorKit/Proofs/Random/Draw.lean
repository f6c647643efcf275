import Mathlib.Algebra.Order.BigOperators.Group.Finset
import Mathlib.Order.Interval.Finset.Nat
import OperatorKit.Random.Draw

/-!
# Draws are reliable, and give every number the same share

A draw from a range that is not empty never faults: all that can happen to it is
that it runs out of words, and then some words more let it come to its end.

A raw number is multiplied by the size of the range. The high half of the product
is the number that is drawn, and the low half has to lie in the zone that the range
divides without a rest. So each number is drawn by equally many raw numbers.
-/

namespace OperatorKit.Random

/-! ## Reliable draws -/

namespace Draw

/-- A draw whose results have a property and whose only fault is a lack of words.
Words that it does not need stay as they are, and no row of words is a dead end. -/
structure Reliable {α : Type} (d : Draw α) (P : α → Prop) : Prop where
  sound {words rest : List UInt32} {a : α} : d words = .ok (a, rest) → P a
  starved {words : List UInt32} {e : Fault} : d words = .error e → e = .starved
  extend {words rest : List UInt32} {a : α} (more : List UInt32) :
    d words = .ok (a, rest) → d (words ++ more) = .ok (a, rest ++ more)
  live (words : List UInt32) : ∃ more a rest, d (words ++ more) = .ok (a, rest)

/-- The draw of a value that needs no words. -/
def pure {α : Type} (a : α) : Draw α := fun words => .ok (a, words)

/-- The draw of what needs no words but may be a fault. -/
def ofExcept {α : Type} : Except Fault α → Draw α
  | .error e => fun _ => .error e
  | .ok a    => pure a

/-- One draw, and behind it another one that depends on its result. -/
def bind {α β : Type} (d : Draw α) (f : α → Draw β) : Draw β := fun words =>
  match d words with
  | .error e       => .error e
  | .ok (a, words) => f a words

theorem reliable_pure {α : Type} {P : α → Prop} {a : α} (h : P a) : (pure a).Reliable P where
  sound := by
    intro words rest b hb
    cases hb
    exact h
  starved := by
    intro words e he
    cases he
  extend := by
    intro words rest b more hb
    cases hb
    rfl
  live words := ⟨[], a, words, by simp [pure]⟩

theorem Reliable.mono {α : Type} {d : Draw α} {P Q : α → Prop} (h : d.Reliable P)
    (hPQ : ∀ a, P a → Q a) : d.Reliable Q :=
  ⟨fun hd => hPQ _ (h.sound hd), h.starved, h.extend, h.live⟩

theorem Reliable.bind {α β : Type} {d : Draw α} {f : α → Draw β} {P : α → Prop} {Q : β → Prop}
    (hd : d.Reliable P) (hf : ∀ a, P a → (f a).Reliable Q) : (d.bind f).Reliable Q where
  sound := by
    intro words rest b h
    simp only [Draw.bind] at h
    split at h
    case h_1 => cases h
    case h_2 hw => exact (hf _ (hd.sound hw)).sound h
  starved := by
    intro words e h
    simp only [Draw.bind] at h
    split at h
    case h_1 hw =>
      cases h
      exact hd.starved hw
    case h_2 hw => exact (hf _ (hd.sound hw)).starved h
  extend := by
    intro words rest b more h
    simp only [Draw.bind] at h
    split at h
    case h_1 => cases h
    case h_2 hw =>
      simp only [Draw.bind, hd.extend more hw]
      exact (hf _ (hd.sound hw)).extend more h
  live words := by
    obtain ⟨more, a, rest, hw⟩ := hd.live words
    obtain ⟨more', b, rest', hb⟩ := (hf a (hd.sound hw)).live rest
    refine ⟨more ++ more', b, rest', ?_⟩
    rw [← List.append_assoc]
    simp only [Draw.bind, hd.extend more' hw, hb]

end Draw

/-! ## Shares -/

/-- Of the numbers below `b`, those that are multiplied by `n` to a product with the
high part `k` and a low part in a zone of `m` times `n` are exactly `m`. -/
theorem card_share {b n m k : Nat} (hn : 0 < n) (hzone : n * m ≤ b) (hk : k < n) :
    ((Finset.range b).filter fun v => v * n / b = k ∧ v * n % b < n * m).card = m := by
  have hend : (k + 1) * b ≤ n * b := Nat.mul_le_mul_right b hk
  -- Both conditions on `v` are bounds, the first one from below and the other from above.
  have hfirst (v : Nat) : (k * b + (n - 1)) / n ≤ v ↔ k * b ≤ v * n := by
    rw [Nat.div_le_iff_le_mul_add_pred hn, Nat.mul_comm n v]
    omega
  have hlast (v : Nat) : v < (k * b + (n - 1)) / n + m ↔ v * n < k * b + n * m := by
    rw [← Nat.add_mul_div_left _ _ hn, ← Nat.not_le, ← Nat.not_le,
      Nat.div_le_iff_le_mul_add_pred hn, Nat.mul_comm n v]
    omega
  have hshare : (Finset.range b).filter (fun v => v * n / b = k ∧ v * n % b < n * m) =
      Finset.Ico ((k * b + (n - 1)) / n) ((k * b + (n - 1)) / n + m) := by
    ext v
    rw [Finset.mem_filter, Finset.mem_range, Finset.mem_Ico, hfirst, hlast]
    constructor
    · rintro ⟨-, rfl, hlow⟩
      have := Nat.div_add_mod' (v * n) b
      omega
    · rintro ⟨hle, hlt⟩
      rw [Nat.add_mul, Nat.one_mul] at hend
      have hb : 0 < b := Nat.pos_of_ne_zero fun h => by
        subst h
        omega
      have hv : v < b := Nat.lt_of_mul_lt_mul_right (a := n) (by rw [Nat.mul_comm b n]; omega)
      have hdiv : v * n / b = k := by
        rw [Nat.div_eq_iff hb]
        omega
      have := Nat.div_add_mod' (v * n) b
      rw [hdiv] at this
      exact ⟨hv, hdiv, by omega⟩
  rw [hshare, Nat.card_Ico, Nat.add_sub_cancel_left]

/-! ## Raw numbers -/

/-- The two words that make up a raw number of 64 bits, the low one first. -/
def rawWords (v : Nat) : List UInt32 := [UInt32.ofNat v, UInt32.ofNat (v / 2 ^ 32)]

theorem wide_rawWords {v : Nat} (h : v < 2 ^ 64) :
    wide (UInt32.ofNat v) (UInt32.ofNat (v / 2 ^ 32)) = v := by
  simp only [wide, UInt32.toNat_ofNat']
  omega

theorem wide_lt (low high : UInt32) : wide low high < 2 ^ 64 := by
  have := low.toNat_lt
  have := high.toNat_lt
  simp only [wide]
  omega

/-! ## Trying raw numbers -/

/-- Try raw numbers of 64 bits until one is accepted. -/
def firstWide (accept : Nat → Option Nat) : Draw Nat
  | low :: high :: rest =>
    match accept (wide low high) with
    | some k => .ok (k, rest)
    | none   => firstWide accept rest
  | _ => .error .starved

section

variable {accept : Nat → Option Nat}

/-- The first raw number decides the draw, if it is accepted. -/
theorem firstWide_rawWords {v : Nat} (hv : v < 2 ^ 64) (words : List UInt32) :
    firstWide accept (rawWords v ++ words) =
      match accept v with
      | some k => .ok (k, words)
      | none   => firstWide accept words := by
  simp only [rawWords, List.cons_append, List.nil_append, firstWide, wide_rawWords hv]

theorem length_of_firstWide {words rest : List UInt32} {k : Nat}
    (h : firstWide accept words = .ok (k, rest)) : rest.length < words.length := by
  fun_induction firstWide accept words with
  | case1 low high words k' hk =>
    cases h
    simp only [List.length_cons]
    omega
  | case2 low high words hk ih =>
    have := ih h
    simp only [List.length_cons]
    omega
  | case3 => cases h

/-- If the words run out, zeros behind them end the draw. -/
theorem firstWide_append_zeros {k₀ : Nat} (hzero : accept 0 = some k₀) {words : List UInt32}
    {e : Fault} (h : firstWide accept words = .error e) :
    ∃ more k, firstWide accept (words ++ more) = .ok (k, []) := by
  have hzeros : accept (wide 0 0) = some k₀ := hzero
  fun_induction firstWide accept words with
  | case1 => cases h
  | case2 low high words hk ih =>
    obtain ⟨more, k, hmore⟩ := ih h
    exact ⟨more, k, by simpa [firstWide, hk] using hmore⟩
  | case3 words hshort =>
    match words, hshort with
    | [], _ => exact ⟨[0, 0], k₀, by simp [firstWide, hzeros]⟩
    | [word], _ =>
      -- The word that is left becomes the low half of a number.
      cases hk : accept (wide word 0) with
      | some k => exact ⟨[0], k, by simp [firstWide, hk]⟩
      | none => exact ⟨[0, 0, 0], k₀, by simp [firstWide, hk, hzeros]⟩
    | low :: high :: rest, hshort => exact (hshort low high rest rfl).elim

/-- Trying is reliable if what is accepted has the property and zero is accepted. -/
theorem reliable_firstWide {P : Nat → Prop} {k₀ : Nat}
    (hsound : ∀ v < 2 ^ 64, ∀ k, accept v = some k → P k) (hzero : accept 0 = some k₀) :
    (firstWide accept).Reliable P where
  sound := by
    intro words rest k h
    fun_induction firstWide accept words with
    | case1 low high words k' hk =>
      cases h
      exact hsound _ (wide_lt low high) _ hk
    | case2 low high words hk ih => exact ih h
    | case3 => cases h
  starved := by
    intro words e h
    fun_induction firstWide accept words with
    | case1 => cases h
    | case2 low high words hk ih => exact ih h
    | case3 =>
      cases h
      rfl
  extend := by
    intro words rest k more h
    fun_induction firstWide accept words with
    | case1 low high words k' hk =>
      cases h
      simp [firstWide, hk]
    | case2 low high words hk ih => simpa [firstWide, hk] using ih h
    | case3 => cases h
  live words := by
    cases h : firstWide accept words with
    | ok result => exact ⟨[], result.1, result.2, by rw [List.append_nil, h]⟩
    | error e =>
      obtain ⟨more, k, hmore⟩ := firstWide_append_zeros hzero h
      exact ⟨more, k, [], hmore⟩

end

/-! ## Below a bound -/

/-- The zone of a draw below `n` holds at most all raw numbers. -/
theorem zone_le {n : Nat} (h : n < 2 ^ 64) : n * 2 ^ leadingZeros n ≤ 2 ^ 64 := by
  by_cases hn : n = 0
  · simp [hn]
  · have hlog : n.log2 < 64 := (Nat.log2_lt hn).mpr h
    have hlt : n < 2 ^ (n.log2 + 1) := Nat.lt_log2_self
    calc n * 2 ^ leadingZeros n
      _ ≤ 2 ^ (n.log2 + 1) * 2 ^ leadingZeros n := Nat.mul_le_mul_right _ (Nat.le_of_lt hlt)
      _ = 2 ^ 64 := by
        rw [← Nat.pow_add, leadingZeros, if_neg hn, show n.log2 + 1 + (63 - n.log2) = 64 by omega]

theorem acceptBelow_eq_some_iff {n v k : Nat} (hn : 0 < n) :
    acceptBelow n v = some k ↔ v * n / 2 ^ 64 = k ∧ v * n % 2 ^ 64 < n * 2 ^ leadingZeros n := by
  have hzone : 0 < n * 2 ^ leadingZeros n := Nat.mul_pos hn (Nat.two_pow_pos _)
  simp only [acceptBelow]
  split
  case isTrue h =>
    rw [Option.some.injEq, and_iff_left]
    omega
  case isFalse h =>
    simp only [reduceCtorEq, false_iff, not_and]
    omega

theorem acceptBelow_lt {n v k : Nat} (hn : 0 < n) (hv : v < 2 ^ 64)
    (h : acceptBelow n v = some k) : k < n := by
  obtain ⟨rfl, -⟩ := (acceptBelow_eq_some_iff hn).mp h
  rw [Nat.div_lt_iff_lt_mul (Nat.two_pow_pos 64), Nat.mul_comm]
  exact Nat.mul_lt_mul_of_pos_left hv hn

/-- Every number below `n` has the same share of the raw numbers. -/
theorem card_acceptBelow {n k : Nat} (hn : n < 2 ^ 64) (hk : k < n) :
    ((Finset.range (2 ^ 64)).filter fun v => acceptBelow n v = some k).card =
      2 ^ leadingZeros n := by
  have hpos : 0 < n := by omega
  rw [Finset.filter_congr fun v _ => acceptBelow_eq_some_iff (v := v) hpos]
  exact card_share hpos (zone_le hn) hk

theorem below_eq_firstWide {n : Nat} (hn : 0 < n) : below n = firstWide (acceptBelow n) := by
  funext words
  have hfirst : firstBelow n words = firstWide (acceptBelow n) words := by
    fun_induction firstBelow n words with
    | case1 low high words k hk => simp [firstWide, hk]
    | case2 low high words hk ih => simpa [firstWide, hk] using ih
    | case3 words hshort => rw [firstWide.eq_2 _ _ hshort]
  simp [below, Nat.ne_of_gt hn, hfirst]

/-- A draw below a bound that is not zero is reliable. -/
theorem reliable_below {n : Nat} (hn : 0 < n) : (below n).Reliable (· < n) := by
  have hzero : acceptBelow n 0 = some 0 := by simp [acceptBelow]
  rw [below_eq_firstWide hn]
  exact reliable_firstWide (fun v hv k hk => acceptBelow_lt hn hv hk) hzero

/-! ## Between two bounds -/

/-- The size of a range, unless the range is all of `2 ^ bits`. -/
theorem size_mod {bits low high : Nat} (hle : low ≤ high) (hhigh : high < 2 ^ bits) :
    (high - low + 1) % 2 ^ bits = high - low + 1 ∨
      (high - low + 1) % 2 ^ bits = 0 ∧ low = 0 ∧ high = 2 ^ bits - 1 := by
  rcases Nat.lt_or_ge (high - low + 1) (2 ^ bits) with hlt | hge
  · exact .inl (Nat.mod_eq_of_lt hlt)
  · have hall : high - low + 1 = 2 ^ bits := by omega
    exact .inr ⟨by rw [hall, Nat.mod_self], by omega, by omega⟩

theorem acceptBetween_mem {bits low high v k : Nat} (hle : low ≤ high) (hhigh : high < 2 ^ bits)
    (hv : v < 2 ^ bits) (h : acceptBetween bits low high v = some k) : low ≤ k ∧ k ≤ high := by
  simp only [acceptBetween] at h
  rcases size_mod hle hhigh with hsize | ⟨hsize, rfl, rfl⟩
  · have hpos : high - low + 1 ≠ 0 := by omega
    rw [hsize, if_neg hpos] at h
    split at h
    case isFalse => cases h
    case isTrue =>
      cases h
      have : v * (high - low + 1) / 2 ^ bits < high - low + 1 := by
        rw [Nat.div_lt_iff_lt_mul (Nat.two_pow_pos bits), Nat.mul_comm]
        exact Nat.mul_lt_mul_of_pos_left hv (Nat.succ_pos _)
      exact ⟨Nat.le_add_right _ _, by omega⟩
  · rw [hsize, if_pos rfl] at h
    cases h
    omega

/-- The raw number zero is always accepted, and stands for the lower bound. -/
theorem acceptBetween_zero {bits low high : Nat} (hle : low ≤ high) (hhigh : high < 2 ^ bits) :
    acceptBetween bits low high 0 = some low := by
  simp only [acceptBetween, Nat.zero_mul, Nat.zero_mod, Nat.zero_div, Nat.zero_le, if_true]
  rcases size_mod hle hhigh with hsize | ⟨hsize, rfl, -⟩
  · rw [hsize, if_neg (Nat.succ_ne_zero _), Nat.add_zero]
  · rw [hsize, if_pos rfl]

theorem length_of_between32 {low high k : Nat} {words rest : List UInt32}
    (h : between32 low high words = .ok (k, rest)) : rest.length < words.length := by
  fun_induction between32 low high words with
  | case1 word words k' hk =>
    cases h
    simp
  | case2 word words hk ih =>
    have := ih h
    simp only [List.length_cons]
    omega
  | case3 => cases h

/-- If the words run out, a zero behind them ends the draw at the lower bound. -/
theorem between32_append_zero {low high : Nat} (hle : low ≤ high) (hhigh : high < 2 ^ 32)
    {words : List UInt32} {e : Fault} (h : between32 low high words = .error e) :
    between32 low high (words ++ [0]) = .ok (low, []) := by
  fun_induction between32 low high words with
  | case1 => cases h
  | case2 word words hk ih => simpa [between32, hk] using ih h
  | case3 => simp [between32, acceptBetween_zero hle hhigh]

/-- A draw of 32 bits between two bounds in order is reliable. -/
theorem reliable_between32 {low high : Nat} (hle : low ≤ high) (hhigh : high < 2 ^ 32) :
    (between32 low high).Reliable (fun k => low ≤ k ∧ k ≤ high) where
  sound := by
    intro words rest k h
    fun_induction between32 low high words with
    | case1 word words k' hk =>
      cases h
      exact acceptBetween_mem hle hhigh word.toNat_lt hk
    | case2 word words hk ih => exact ih h
    | case3 => cases h
  starved := by
    intro words e h
    fun_induction between32 low high words with
    | case1 => cases h
    | case2 word words hk ih => exact ih h
    | case3 =>
      cases h
      rfl
  extend := by
    intro words rest k more h
    fun_induction between32 low high words with
    | case1 word words k' hk =>
      cases h
      simp [between32, hk]
    | case2 word words hk ih => simpa [between32, hk] using ih h
    | case3 => cases h
  live words := by
    cases h : between32 low high words with
    | ok result => exact ⟨[], result.1, result.2, by rw [List.append_nil, h]⟩
    | error e => exact ⟨[0], low, [], between32_append_zero hle hhigh h⟩

theorem between64_eq_firstWide (low high : Nat) :
    between64 low high = firstWide (acceptBetween 64 low high) := by
  funext words
  fun_induction between64 low high words with
  | case1 lo hi words k hk => simp [firstWide, hk]
  | case2 lo hi words hk ih => simpa [firstWide, hk] using ih
  | case3 words hshort => rw [firstWide.eq_2 _ _ hshort]

/-- A draw of 64 bits between two bounds in order is reliable. -/
theorem reliable_between64 {low high : Nat} (hle : low ≤ high) (hhigh : high < 2 ^ 64) :
    (between64 low high).Reliable (fun k => low ≤ k ∧ k ≤ high) := by
  rw [between64_eq_firstWide]
  exact reliable_firstWide (fun v hv k hk => acceptBetween_mem hle hhigh hv hk)
    (acceptBetween_zero hle hhigh)

end OperatorKit.Random
