import OperatorKit.Key.Base64

/-!
# Reading back what is written in base64

Both alphabets tell their sixty-four letters and the padding apart. Every row of
bytes is read back from its text, whatever the shape of its last group.
-/

namespace OperatorKit.Key.Alphabet

/-- Each letter has its value, and none of them is a padding. -/
structure Lawful (a : Alphabet) : Prop where
  value?_letter {v : Nat} : v < 64 → a.value? (a.letter v) = some v
  letter_ne_pad {v : Nat} : v < 64 → a.letter v ≠ '='

theorem lawful_standard : standard.Lawful where
  value?_letter {v} := (by decide : ∀ v < 64, standard.value? (standard.letter v) = some v) v
  letter_ne_pad {v} := (by decide : ∀ v < 64, standard.letter v ≠ '=') v

theorem lawful_url : url.Lawful where
  value?_letter {v} := (by decide : ∀ v < 64, url.value? (url.letter v) = some v) v
  letter_ne_pad {v} := (by decide : ∀ v < 64, url.letter v ≠ '=') v

variable {a : Alphabet}

/-! ## Groups of letters -/

section Groups

variable (h : a.Lawful)
include h

/-- Four letters with the values of a group are the three bytes of the group. -/
theorem Lawful.decode?_group {v : Nat} (hv : v < 16777216) (cs : List Char) :
    a.decode? (a.letter (v / 262144) :: a.letter (v / 4096 % 64) :: a.letter (v / 64 % 64) ::
        a.letter (v % 64) :: cs) =
      (a.decode? cs).map fun bs =>
        UInt8.ofNat (v / 65536) :: UInt8.ofNat (v / 256 % 256) :: UInt8.ofNat (v % 256) :: bs := by
  have hlast : a.letter (v % 64) ≠ '=' := h.letter_ne_pad (by omega)
  have hjoin : ((v / 262144 * 64 + v / 4096 % 64) * 64 + v / 64 % 64) * 64 + v % 64 = v := by omega
  rw [decode?, if_neg (fun hpad => hlast hpad.2)]
  simp only [h.value?_letter (show v / 262144 < 64 by omega),
    h.value?_letter (show v / 4096 % 64 < 64 by omega),
    h.value?_letter (show v / 64 % 64 < 64 by omega),
    h.value?_letter (show v % 64 < 64 by omega), Option.bind_eq_bind, Option.bind_some, hjoin]
  cases a.decode? cs <;> rfl

theorem Lawful.decodeLast?_pair {v : Nat} (hv : v < 256) :
    a.decodeLast? [a.letter (v / 4), a.letter (v * 16 % 64)] = some [UInt8.ofNat v] := by
  have hjoin : v / 4 * 64 + v * 16 % 64 = v * 16 := by omega
  simp only [decodeLast?, h.value?_letter (show v / 4 < 64 by omega),
    h.value?_letter (show v * 16 % 64 < 64 by omega), Option.bind_eq_bind, Option.bind_some, hjoin]
  rw [if_pos (Nat.mul_mod_left v 16), Nat.mul_div_cancel v (by decide)]

theorem Lawful.decodeLast?_triple {v : Nat} (hv : v < 65536) :
    a.decodeLast? [a.letter (v / 1024), a.letter (v / 16 % 64), a.letter (v * 4 % 64)] =
      some [UInt8.ofNat (v / 256), UInt8.ofNat (v % 256)] := by
  have hjoin : (v / 1024 * 64 + v / 16 % 64) * 64 + v * 4 % 64 = v * 4 := by omega
  simp only [decodeLast?, h.value?_letter (show v / 1024 < 64 by omega),
    h.value?_letter (show v / 16 % 64 < 64 by omega),
    h.value?_letter (show v * 4 % 64 < 64 by omega), Option.bind_eq_bind, Option.bind_some, hjoin]
  rw [if_pos (Nat.mul_mod_left v 4), show v * 4 / 1024 = v / 256 by omega,
    Nat.mul_div_cancel v (by decide)]

end Groups

/-- A last group of two or three letters is filled up with padding, or stands alone. -/
theorem decode?_last {c d : Char} (es : List Char) (hes : es.length ≤ 1)
    (hpad : ∀ e ∈ es, e ≠ '=') :
    a.decode? (c :: d :: es ++ a.padding (2 - es.length)) = a.decodeLast? (c :: d :: es) := by
  match es with
  | [] => cases hp : a.padded <;> simp [padding, hp, decode?]
  | [e] => cases hp : a.padded <;> simp [padding, hp, decode?, hpad e]

/-! ## Whole texts -/

theorem Lawful.decode?_encode (h : a.Lawful) (bs : List UInt8) :
    a.decode? (a.encode bs) = some bs := by
  fun_induction encode a bs with
  | case1 x y z rest v ih =>
    have hx := x.toNat_lt
    have hy := y.toNat_lt
    have hz := z.toNat_lt
    rw [h.decode?_group (show v < 16777216 by omega), ih, Option.map_some,
      show v / 65536 = x.toNat by omega, show v / 256 % 256 = y.toNat by omega,
      show v % 256 = z.toNat by omega, UInt8.ofNat_toNat, UInt8.ofNat_toNat, UInt8.ofNat_toNat]
  | case2 x y v =>
    have hx := x.toNat_lt
    have hy := y.toNat_lt
    have hv : v = (x.toNat * 256 + y.toNat) * 256 := by omega
    generalize hw : x.toNat * 256 + y.toNat = w at hv
    have hlast : ∀ e ∈ [a.letter (w * 4 % 64)], e ≠ '=' := by
      intro e he
      rw [List.mem_singleton.mp he]
      exact h.letter_ne_pad (by omega)
    rw [show v / 262144 = w / 1024 by omega, show v / 4096 % 64 = w / 16 % 64 by omega,
      show v / 64 % 64 = w * 4 % 64 by omega]
    refine (decode?_last [_] (Nat.le_refl 1) hlast).trans ?_
    rw [h.decodeLast?_triple (show w < 65536 by omega), show w / 256 = x.toNat by omega,
      show w % 256 = y.toNat by omega, UInt8.ofNat_toNat, UInt8.ofNat_toNat]
  | case3 x v =>
    have hx := x.toNat_lt
    rw [show v / 262144 = x.toNat / 4 by omega, show v / 4096 % 64 = x.toNat * 16 % 64 by omega]
    refine (decode?_last [] (Nat.zero_le 1) fun e he => absurd he List.not_mem_nil).trans ?_
    rw [h.decodeLast?_pair hx, UInt8.ofNat_toNat]
  | case4 => cases hp : a.padded <;> simp [decode?, hp, decodeLast?]

/-- What holds of the letters and of the padding, if there is any, holds all over a text. -/
theorem forall_mem_encode {P : Char → Prop} (hletter : ∀ v < 64, P (a.letter v))
    (hpad : a.padded → P '=') (bs : List UInt8) : ∀ c ∈ a.encode bs, P c := by
  have hpadding : ∀ n, ∀ c ∈ a.padding n, P c := by
    intro n c hc
    unfold padding at hc
    split at hc
    case isTrue hpadded => exact List.eq_of_mem_replicate hc ▸ hpad hpadded
    case isFalse => cases hc
  fun_induction encode a bs with
  | case1 x y z rest v ih =>
    have hx := x.toNat_lt
    have hy := y.toNat_lt
    have hz := z.toNat_lt
    simp only [List.forall_mem_cons]
    exact ⟨hletter _ (by omega), hletter _ (by omega), hletter _ (by omega),
      hletter _ (by omega), ih⟩
  | case2 x y v =>
    have hx := x.toNat_lt
    have hy := y.toNat_lt
    simp only [List.forall_mem_cons]
    exact ⟨hletter _ (by omega), hletter _ (by omega), hletter _ (by omega), hpadding 1⟩
  | case3 x v =>
    have hx := x.toNat_lt
    simp only [List.forall_mem_cons]
    exact ⟨hletter _ (by omega), hletter _ (by omega), hpadding 2⟩
  | case4 => exact fun c hc => absurd hc List.not_mem_nil

end OperatorKit.Key.Alphabet
