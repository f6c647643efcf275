import OperatorKit.Json.Quoted

/-!
# Reading back quoted strings

A character is read back from what is written for it inside of quotes, and so is every
string.
-/

namespace OperatorKit.Json

variable {c d : Char} {cs rest s : List Char}

/-! ## Hexadecimal digits -/

theorem hexValue?_hexChar : ∀ v < 16, hexValue? (hexChar v) = some v := by decide

/-- Four digits are enough for a reader that counts bytes, as every character has one. -/
theorem four_le_utf8ByteSize (a b c d : Char) :
    4 ≤ (String.ofList [a, b, c, d]).utf8ByteSize := by
  have ha := a.utf8Size_pos
  have hb := b.utf8Size_pos
  have hc := c.utf8Size_pos
  have hd := d.utf8Size_pos
  simp
  omega

/-- Four hexadecimal digits are read as their values give. -/
theorem readHex_of_hexValue? {a b c d : Char} {t u v w : Nat} (ha : hexValue? a = some t)
    (hb : hexValue? b = some u) (hc : hexValue? c = some v) (hd : hexValue? d = some w)
    (cs : List Char) :
    readHex (a :: b :: c :: d :: cs) = .ok (((t * 16 + u) * 16 + v) * 16 + w) := by
  have htake : (a :: b :: c :: d :: cs).take 4 = [a, b, c, d] := rfl
  rw [readHex, htake, if_neg (Nat.not_lt.mpr (four_le_utf8ByteSize a b c d))]
  simp [ha, hb, hc, hd]

theorem readHex_eq {v w : Nat} (hv : v < 16) (hw : w < 16) (cs : List Char) :
    readHex ('0' :: '0' :: hexChar v :: hexChar w :: cs) = .ok (v * 16 + w) := by
  have hzero : hexValue? '0' = some 0 := by decide
  rw [readHex_of_hexValue? hzero hzero (hexValue?_hexChar v hv) (hexValue?_hexChar w hw)]
  simp

/-! ## Characters -/

theorem readQuoted_length_append (e cs : List Char) :
    readQuoted e.length (e ++ cs) = readQuoted 0 cs := by
  induction e with
  | nil => rfl
  | cons c e ih => exact ih

/-- An escape is read whole, and what follows it is read on. -/
theorem readQuoted_backslash {e : List Char} (he : readEscape (e ++ cs) = .ok (c, e.length))
    (h : readQuoted 0 cs = .ok (s, rest)) :
    readQuoted 0 ('\\' :: e ++ cs) = .ok (c :: s, rest) := by
  simp [readQuoted, he, readQuoted_length_append, h]

theorem readQuoted_simple (hd : simpleEscape? d = some c)
    (h : readQuoted 0 cs = .ok (s, rest)) :
    readQuoted 0 (['\\', d] ++ cs) = .ok (c :: s, rest) := by
  refine readQuoted_backslash (e := [d]) ?_ h
  -- No letter of a simple escape announces a number.
  have hu : d ≠ 'u' := by
    rintro rfl
    cases hd
  simp [readEscape, hd]

theorem readQuoted_control (hc : c.toNat < 0x20) (h : readQuoted 0 cs = .ok (s, rest)) :
    readQuoted 0 (['\\', 'u', '0', '0', hexChar (c.toNat / 16), hexChar (c.toNat % 16)] ++ cs) =
      .ok (c :: s, rest) := by
  refine readQuoted_backslash (e := ['u', '0', '0', _, _]) ?_ h
  have hhex := readHex_eq (v := c.toNat / 16) (w := c.toNat % 16) (by omega) (by omega) cs
  rw [Nat.div_add_mod'] at hhex
  simp only [List.cons_append, List.nil_append, readEscape, hhex]
  rw [if_neg (by omega), if_pos (by omega), Char.ofNat_toNat]
  rfl

theorem readQuoted_plain (hquote : c ≠ '"') (hbackslash : c ≠ '\\') (hc : ¬ c.toNat < 0x20)
    (h : readQuoted 0 cs = .ok (s, rest)) : readQuoted 0 ([c] ++ cs) = .ok (c :: s, rest) := by
  simp [readQuoted, hquote, hbackslash, hc, h]

/-- A character is read back from what is written for it. -/
theorem readQuoted_escape (c : Char) (h : readQuoted 0 cs = .ok (s, rest)) :
    readQuoted 0 (escape c ++ cs) = .ok (c :: s, rest) := by
  -- Seven characters have an escape of one letter, the other control characters a number.
  have hsimple : ∀ d, simpleEscape? d = some c →
      readQuoted 0 (['\\', d] ++ cs) = .ok (c :: s, rest) := fun d hd => readQuoted_simple hd h
  unfold escape
  simp only [beq_iff_eq]
  split
  case isTrue hc => exact hsimple '"' (by rw [hc]; rfl)
  case isFalse hquote =>
  split
  case isTrue hc => exact hsimple '\\' (by rw [hc]; rfl)
  case isFalse hbackslash =>
  split
  case isTrue hc => exact hsimple 'b' (by rw [hc]; rfl)
  case isFalse =>
  split
  case isTrue hc => exact hsimple 'f' (by rw [hc]; rfl)
  case isFalse =>
  split
  case isTrue hc => exact hsimple 'n' (by rw [hc]; rfl)
  case isFalse =>
  split
  case isTrue hc => exact hsimple 'r' (by rw [hc]; rfl)
  case isFalse =>
  split
  case isTrue hc => exact hsimple 't' (by rw [hc]; rfl)
  case isFalse =>
  split
  case isTrue hcontrol => exact readQuoted_control hcontrol h
  case isFalse hcontrol => exact readQuoted_plain hquote hbackslash hcontrol h

/-! ## Strings -/

theorem readQuoted_flatMap (s rest : List Char) :
    readQuoted 0 (s.flatMap escape ++ '"' :: rest) = .ok (s, rest) := by
  induction s with
  | nil => rfl
  | cons c s ih =>
    rw [List.flatMap_cons, List.append_assoc]
    exact readQuoted_escape c ih

/-- A string is read back from its quoted form, up to the closing quote. -/
theorem readString_quoted (s : String) (rest : List Char) :
    readString (s.toList.flatMap escape ++ '"' :: rest) = .ok (s, rest) := by
  simp only [readString, readQuoted_flatMap, String.ofList_toList]

theorem quote_append (s : String) (rest : List Char) :
    quote s ++ rest = '"' :: (s.toList.flatMap escape ++ '"' :: rest) := by
  simp [quote]

end OperatorKit.Json
