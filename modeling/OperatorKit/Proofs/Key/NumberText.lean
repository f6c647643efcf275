import OperatorKit.Power
import OperatorKit.Proofs.Key.Agreement

/-!
# Numbers as text

The text of a number in a JWK is the only one of its kind. Its letters hold six bits each: those
of the bytes of the number, without a zero byte in front, and no more than four zeros behind them.
-/

namespace OperatorKit.Key

/-! ## Bits -/

/-- The lowest `w` bits of a number, the highest first. -/
def lowBits : Nat → Nat → List Bool
  | 0,     _ => []
  | w + 1, v => v.testBit w :: lowBits w v

section Bits

variable {w k u v : Nat} {us vs : List Nat}

@[simp] theorem length_lowBits (w v : Nat) : (lowBits w v).length = w := by
  induction w with
  | zero => rfl
  | succ w ih => rw [lowBits, List.length_cons, ih]

theorem lowBits_eq_iff : lowBits w u = lowBits w v ↔ ∀ i < w, u.testBit i = v.testBit i := by
  induction w with
  | zero => exact ⟨fun _ i hi => absurd hi (Nat.not_lt_zero i), fun _ => rfl⟩
  | succ w ih =>
    rw [lowBits, lowBits, List.cons.injEq, ih]
    exact and_comm.trans Nat.forall_lt_succ_right.symm

theorem eq_of_lowBits (hu : u < 2 ^ w) (hv : v < 2 ^ w) (h : lowBits w u = lowBits w v) :
    u = v := by
  refine Nat.eq_of_testBit_eq fun i => ?_
  obtain hi | hi := Nat.lt_or_ge i w
  · exact lowBits_eq_iff.mp h i hi
  · have hle : 2 ^ w ≤ 2 ^ i := Nat.pow_le_pow_right (by decide) hi
    rw [Nat.testBit_lt_two_pow (Nat.lt_of_lt_of_le hu hle),
      Nat.testBit_lt_two_pow (Nat.lt_of_lt_of_le hv hle)]

theorem lowBits_add (w k v : Nat) : lowBits (w + k) v = lowBits w (v / 2 ^ k) ++ lowBits k v := by
  induction w with
  | zero => rw [Nat.zero_add, lowBits, List.nil_append]
  | succ w ih => rw [Nat.succ_add, lowBits, lowBits, ih, Nat.testBit_div_two_pow, List.cons_append]

/-- Bits side by side are those of one number. -/
theorem lowBits_append (hv : v < 2 ^ k) :
    lowBits w u ++ lowBits k v = lowBits (w + k) (u * 2 ^ k + v) := by
  have hlow : lowBits k v = lowBits k (u * 2 ^ k + v) := by
    refine lowBits_eq_iff.mpr fun i hi => ?_
    rw [Nat.mul_comm, Nat.testBit_two_pow_mul_add u hv, if_pos hi]
  rw [lowBits_add, Nat.mul_comm, Nat.mul_add_div (Nat.two_pow_pos k), Nat.div_eq_of_lt hv,
    Nat.add_zero, Nat.mul_comm, ← hlow]

theorem lowBits_zero (w : Nat) : lowBits w 0 = List.replicate w false := by
  induction w with
  | zero => rfl
  | succ w ih => rw [lowBits, ih, Nat.zero_testBit, List.replicate_succ]

theorem length_flatMap_lowBits (w : Nat) (vs : List Nat) :
    (vs.flatMap (lowBits w)).length = w * vs.length := by
  induction vs with
  | nil => rfl
  | cons v vs ih =>
    rw [List.flatMap_cons, List.length_append, length_lowBits, ih, List.length_cons,
      Nat.mul_succ, Nat.add_comm]

theorem eq_of_flatMap_lowBits (hus : ∀ u ∈ us, u < 2 ^ w) (hvs : ∀ v ∈ vs, v < 2 ^ w)
    (hlength : us.length = vs.length) (h : us.flatMap (lowBits w) = vs.flatMap (lowBits w)) :
    us = vs := by
  induction us generalizing vs with
  | nil => exact (List.eq_nil_of_length_eq_zero hlength.symm).symm
  | cons u us ih =>
    cases vs with
    | nil => cases hlength
    | cons v vs =>
      obtain ⟨hu, hus⟩ := List.forall_mem_cons.mp hus
      obtain ⟨hv, hvs⟩ := List.forall_mem_cons.mp hvs
      rw [List.flatMap_cons, List.flatMap_cons] at h
      obtain ⟨hfirst, hrest⟩ := List.append_inj h (by rw [length_lowBits, length_lowBits])
      rw [eq_of_lowBits hu hv hfirst, ih hus hvs (Nat.succ.inj hlength) hrest]

end Bits

/-! ## Letters of six bits -/

/-- The values of letters that hold bytes. Where a last group of four letters is not full, some
are missing, and the bits of the others that belong to no byte are zeros. -/
structure Sextets (bs : List UInt8) (values : List Nat) (missing : Nat) : Prop where
  value_lt : ∀ v ∈ values, v < 64
  missing_le : missing ≤ 2
  length_mod : (values.length + missing) % 4 = 0
  bits_eq : values.flatMap (lowBits 6) =
    bs.flatMap (fun b => lowBits 8 b.toNat) ++ List.replicate (2 * missing) false

namespace Sextets

variable {bs : List UInt8} {values values' : List Nat} {missing missing' : Nat}

theorem nil : Sextets [] [] 0 where
  value_lt _ hv := absurd hv List.not_mem_nil
  missing_le := Nat.zero_le 2
  length_mod := rfl
  bits_eq := rfl

theorem single (x : UInt8) {v : Nat} (hv : v = x.toNat * 65536) :
    Sextets [x] [v / 262144, v / 4096 % 64] 2 := by
  have hx := x.toNat_lt
  have hletters : lowBits 6 (v / 262144) ++ lowBits 6 (v / 4096 % 64) =
      lowBits 12 (x.toNat * 16) := by
    rw [lowBits_append (by omega)]
    congr 1
    omega
  have hbytes : lowBits 8 x.toNat ++ lowBits 4 0 = lowBits 12 (x.toNat * 16) :=
    lowBits_append (by decide)
  refine ⟨?_, Nat.le_refl 2, by simp, ?_⟩
  · simp only [List.forall_mem_cons]
    exact ⟨by omega, by omega, fun _ h => absurd h List.not_mem_nil⟩
  · simp only [List.flatMap_cons, List.flatMap_nil, List.append_nil, ← lowBits_zero, hletters,
      hbytes]

theorem double (x y : UInt8) {v : Nat} (hv : v = x.toNat * 65536 + y.toNat * 256) :
    Sextets [x, y] [v / 262144, v / 4096 % 64, v / 64 % 64] 1 := by
  have hx := x.toNat_lt
  have hy := y.toNat_lt
  have hletters : lowBits 6 (v / 262144) ++ lowBits 6 (v / 4096 % 64) ++ lowBits 6 (v / 64 % 64) =
      lowBits 18 (v / 64) := by
    rw [lowBits_append (by omega), lowBits_append (by omega)]
    congr 1
    omega
  have hbytes : lowBits 8 x.toNat ++ lowBits 8 y.toNat ++ lowBits 2 0 = lowBits 18 (v / 64) := by
    rw [lowBits_append (by omega), lowBits_append (by omega)]
    congr 1
    omega
  refine ⟨?_, Nat.le_succ 1, by simp, ?_⟩
  · simp only [List.forall_mem_cons]
    exact ⟨by omega, by omega, by omega, fun _ h => absurd h List.not_mem_nil⟩
  · simp only [List.flatMap_cons, List.flatMap_nil, List.append_nil, ← lowBits_zero,
      ← List.append_assoc, hletters, hbytes]

/-- Four letters in front hold three bytes. -/
theorem group (h : Sextets bs values missing) (x y z : UInt8) {v : Nat}
    (hv : v = x.toNat * 65536 + y.toNat * 256 + z.toNat) :
    Sextets (x :: y :: z :: bs) (v / 262144 :: v / 4096 % 64 :: v / 64 % 64 :: v % 64 :: values)
      missing := by
  have hx := x.toNat_lt
  have hy := y.toNat_lt
  have hz := z.toNat_lt
  have hletters : lowBits 6 (v / 262144) ++ lowBits 6 (v / 4096 % 64) ++ lowBits 6 (v / 64 % 64) ++
      lowBits 6 (v % 64) = lowBits 24 v := by
    rw [lowBits_append (by omega), lowBits_append (by omega), lowBits_append (by omega)]
    congr 1
    omega
  have hbytes : lowBits 8 x.toNat ++ lowBits 8 y.toNat ++ lowBits 8 z.toNat = lowBits 24 v := by
    rw [lowBits_append (by omega), lowBits_append (by omega)]
    congr 1
    omega
  refine ⟨?_, h.missing_le, ?_, ?_⟩
  · simp only [List.forall_mem_cons]
    exact ⟨by omega, by omega, by omega, by omega, h.value_lt⟩
  · have := h.length_mod
    simp only [List.length_cons]
    omega
  · simp only [List.flatMap_cons, h.bits_eq, ← List.append_assoc, hletters, hbytes]

/-- Bytes have one row of letters. -/
theorem unique (h : Sextets bs values missing) (h' : Sextets bs values' missing') :
    values = values' ∧ missing = missing' := by
  -- The bytes and the groups of four tell how many letters there are.
  have hbits := congrArg List.length h.bits_eq
  have hbits' := congrArg List.length h'.bits_eq
  simp only [length_flatMap_lowBits, List.length_append, List.length_replicate] at hbits hbits'
  have := h.missing_le
  have := h'.missing_le
  have := h.length_mod
  have := h'.length_mod
  obtain rfl : missing = missing' := by omega
  refine ⟨eq_of_flatMap_lowBits (w := 6) h.value_lt h'.value_lt (by omega) ?_, rfl⟩
  rw [h.bits_eq, h'.bits_eq]

end Sextets

namespace Alphabet

variable {a : Alphabet} {cs : List Char} {bs : List UInt8}

/-- A text whose letters hold bytes, with padding for those that are missing. -/
def Writes (a : Alphabet) (cs : List Char) (bs : List UInt8) : Prop :=
  ∃ values missing, Sextets bs values missing ∧ cs = values.map a.letter ++ a.padding missing

theorem padding_zero (a : Alphabet) : a.padding 0 = [] := ite_self _

theorem writes_encode (a : Alphabet) (bs : List UInt8) : a.Writes (a.encode bs) bs := by
  fun_induction encode a bs with
  | case1 x y z bs v ih =>
    obtain ⟨values, missing, h, hcs⟩ := ih
    refine ⟨_, missing, h.group x y z rfl, ?_⟩
    rw [hcs]
    rfl
  | case2 x y v => exact ⟨_, 1, .double x y rfl, rfl⟩
  | case3 x v => exact ⟨_, 2, .single x rfl, rfl⟩
  | case4 => exact ⟨[], 0, .nil, a.padding_zero.symm⟩

/-- Bytes have one text. -/
theorem writes_iff : a.Writes cs bs ↔ cs = a.encode bs := by
  constructor
  · rintro ⟨values, missing, h, rfl⟩
    obtain ⟨values', missing', h', hencode⟩ := a.writes_encode bs
    obtain ⟨rfl, rfl⟩ := h.unique h'
    exact hencode.symm
  · rintro rfl
    exact a.writes_encode bs

/-- Without padding, no letter stands alone in the last group. -/
theorem Writes.length_mod_ne (h : a.Writes cs bs) (hpad : a.padded = false) :
    cs.length % 4 ≠ 1 := by
  obtain ⟨values, missing, h, rfl⟩ := h
  have := h.missing_le
  have := h.length_mod
  simp only [padding, hpad, Bool.false_eq_true, if_false, List.append_nil, List.length_map]
  omega

end Alphabet

/-! ## Numbers -/

theorem encodeNumber_injective : Function.Injective encodeNumber := by
  intro m n h
  have hm := decodeNumber?_encodeNumber m
  rw [h, decodeNumber?_encodeNumber] at hm
  exact (Option.some.inj hm).symm

/-- The text of a number is read as bytes without leading zeros that denote the number. It has
letters that need no escape in an address and nothing else: no padding, no letter alone in the
last group, and only zeros behind the bits of the bytes. No other text is like this for the same
number, and different numbers have different texts. -/
theorem encodeNumber_is_canonical :
    (∀ n, ∃ bs, Alphabet.url.decode? (encodeNumber n).toList = some bs ∧ Minimal bs ∧
      ofBytes bs = n ∧ Alphabet.url.Writes (encodeNumber n).toList bs ∧
      (∀ c ∈ (encodeNumber n).toList, c.isAlphanum ∨ c = '-' ∨ c = '_') ∧
      '=' ∉ (encodeNumber n).toList ∧ (encodeNumber n).length % 4 ≠ 1) ∧
    (∀ s bs, Alphabet.url.Writes s.toList bs → Minimal bs → s = encodeNumber (ofBytes bs)) ∧
    Function.Injective encodeNumber := by
  refine ⟨fun n => ?_, fun s bs hs hbs => ?_, encodeNumber_injective⟩
  · have htext : (encodeNumber n).toList = Alphabet.url.encode (toBytes n) := String.toList_ofList
    have hread : Alphabet.url.decode? (encodeNumber n).toList = some (toBytes n) := by
      rw [htext, Alphabet.lawful_url.decode?_encode]
    have hwrites : Alphabet.url.Writes (encodeNumber n).toList (toBytes n) :=
      Alphabet.writes_iff.mpr htext
    have hletters : ∀ c ∈ (encodeNumber n).toList, c.isAlphanum ∨ c = '-' ∨ c = '_' := by
      rw [htext]
      exact Alphabet.forall_mem_encode (by decide) (by decide) (toBytes n)
    have hpad : '=' ∉ (encodeNumber n).toList := fun h => absurd (hletters '=' h) (by decide)
    exact ⟨toBytes n, hread, minimal_toBytes n, ofBytes_toBytes n, hwrites, hletters, hpad,
      hwrites.length_mod_ne rfl⟩
  · rw [encodeNumber, hbs.toBytes_ofBytes, ← Alphabet.writes_iff.mp hs, String.ofList_toList]

/-- The text of 1023 has two bits behind those of its two bytes. -/
theorem encodeNumber_is_canonical_of_two_bytes :
    Alphabet.url.Writes "A_8".toList [3, 255] ∧ Minimal [3, 255] ∧ encodeNumber 1023 = "A_8" ∧
      '_' ∈ (encodeNumber 1023).toList ∧ ('_'.isAlphanum ∨ '_' = '-' ∨ '_' = '_') ∧
      1023 ≠ 1024 ∧ encodeNumber 1023 ≠ encodeNumber 1024 := by
  obtain ⟨hshape, hunique, hinjective⟩ := encodeNumber_is_canonical
  have hwrites : Alphabet.url.Writes "A_8".toList [3, 255] :=
    ⟨[0, 63, 60], 1, ⟨by decide, by decide, by decide, by decide⟩, by decide⟩
  have hminimal : Minimal [3, 255] := .positive (by decide) [255]
  have htext : encodeNumber 1023 = "A_8" := (hunique "A_8" [3, 255] hwrites hminimal).symm
  obtain ⟨bs, -, -, -, -, hletters, -, -⟩ := hshape 1023
  have hmem : '_' ∈ (encodeNumber 1023).toList := by
    rw [htext]
    decide
  have hne : 1023 ≠ 1024 := by decide
  exact ⟨hwrites, hminimal, htext, hmem, hletters '_' hmem, hne, fun h => hne (hinjective h)⟩

end OperatorKit.Key
