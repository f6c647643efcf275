import OperatorKit.Proofs.Json.Quoted

/-!
# Spellings of strings

A character can be written inside of quotes in several ways: as it is, as an escape of one
letter, as a number with digits of either case, or as a pair of surrogates. A string is
read from all its spellings. A string that is only passed over may also have surrogates that
stand alone.
-/

namespace OperatorKit.Json

/-! ## Spellings -/

/-- A hexadecimal digit, in either case, and its value. -/
def HexDigit (c : Char) (v : Nat) : Prop :=
  "0123456789abcdef".toList[v]? = some c ∨ "0123456789ABCDEF".toList[v]? = some c

instance (c : Char) (v : Nat) : Decidable (HexDigit c v) := inferInstanceAs (Decidable (_ ∨ _))

/-- Four hexadecimal digits and the number that they make. -/
inductive Hex : List Char → Nat → Prop where
  | intro {a b c d : Char} {t u v w : Nat} (ha : HexDigit a t) (hb : HexDigit b u)
      (hc : HexDigit c v) (hd : HexDigit d w) :
      Hex [a, b, c, d] (t * 4096 + u * 256 + v * 16 + w)

/-- The letters behind a backslash and the characters for which they stand. -/
def letters : List (Char × Char) :=
  [('"', '"'), ('\\', '\\'), ('/', '/'), ('b', '\x08'), ('f', '\x0c'), ('n', '\n'), ('r', '\r'),
    ('t', '\t')]

/-- A character that stands for itself inside of quotes. -/
def Plain (c : Char) : Prop := c ≠ '"' ∧ c ≠ '\\' ∧ 0x20 ≤ c.toNat

instance (c : Char) : Decidable (Plain c) := inferInstanceAs (Decidable (_ ∧ _ ∧ _))

/-- A text all of whose characters stand for themselves. -/
def AllPlain (s : List Char) : Prop := ∀ c ∈ s, Plain c

instance (s : List Char) : Decidable (AllPlain s) := List.decidableBAll _ s

/-- The spellings of a character inside of quotes. -/
inductive Spelling : List Char → Char → Prop where
  | plain {c : Char} (h : Plain c) : Spelling [c] c
  | letter {c d : Char} (h : (d, c) ∈ letters) : Spelling ['\\', d] c
  | unit {c : Char} {ds : List Char} (h : Hex ds c.toNat) : Spelling ('\\' :: 'u' :: ds) c
  | pair {c : Char} {ds es : List Char} {high low : Nat} (hds : Hex ds high)
      (hhigh : 0xD800 ≤ high ∧ high ≤ 0xDBFF) (hes : Hex es low)
      (hlow : 0xDC00 ≤ low ∧ low ≤ 0xDFFF)
      (hc : c.toNat = 0x10000 + (high - 0xD800) * 0x400 + (low - 0xDC00)) :
      Spelling ('\\' :: 'u' :: ds ++ '\\' :: 'u' :: es) c

/-- The spellings of a string inside of quotes. -/
inductive Spells : List Char → List Char → Prop where
  | nil : Spells [] []
  | cons {c : Char} {ds cs s : List Char} (hc : Spelling ds c) (hs : Spells cs s) :
      Spells (ds ++ cs) (c :: s)

/-- What may stand between quotes, whether characters can be made of it or not. -/
inductive Raw : List Char → Prop where
  | nil : Raw []
  | plain {c : Char} {cs : List Char} (h : Plain c) (hcs : Raw cs) : Raw (c :: cs)
  | letter {c d : Char} {cs : List Char} (h : (d, c) ∈ letters) (hcs : Raw cs) :
      Raw ('\\' :: d :: cs)
  | unit {ds cs : List Char} {v : Nat} (h : Hex ds v) (hcs : Raw cs) :
      Raw ('\\' :: 'u' :: (ds ++ cs))

variable {c d : Char} {cs ds es rest s : List Char} {v : Nat}

theorem spells_self (h : AllPlain s) : Spells s s := by
  induction s with
  | nil => exact .nil
  | cons c s ih =>
    obtain ⟨hc, hs⟩ := List.forall_mem_cons.mp h
    exact .cons (.plain hc) (ih hs)

/-! ## Parts -/

theorem HexDigit.hexValue? (h : HexDigit c v) : hexValue? c = some v := by
  have hdigits : ∀ v < 16, ("0123456789abcdef".toList[v]?.bind Json.hexValue?) = some v ∧
      ("0123456789ABCDEF".toList[v]?.bind Json.hexValue?) = some v := by decide
  have hv : v < 16 := by
    obtain h | h := h <;> exact (List.getElem?_eq_some_iff.mp h).1
  obtain ⟨hsmall, hlarge⟩ := hdigits v hv
  obtain h | h := h
  · rwa [h] at hsmall
  · rwa [h] at hlarge

theorem Hex.readHex (h : Hex ds v) (cs : List Char) : readHex (ds ++ cs) = .ok v := by
  obtain ⟨ha, hb, hc, hd⟩ := h
  refine (readHex_of_hexValue? ha.hexValue? hb.hexValue? hc.hexValue? hd.hexValue? cs).trans ?_
  congr 1
  omega

theorem Hex.length_eq (h : Hex ds v) : ds.length = 4 := by
  cases h
  rfl

theorem simpleEscape?_of_mem_letters (h : (d, c) ∈ letters) : simpleEscape? d = some c := by
  have hletters : ∀ x ∈ letters, simpleEscape? x.1 = some x.2 := by decide
  exact hletters _ h

/-! ## Reading -/

/-- No character is a surrogate. -/
theorem not_surrogate (c : Char) : ¬ (0xD800 ≤ c.toNat ∧ c.toNat ≤ 0xDFFF) := by
  obtain h | h := c.valid
  all_goals
    simp only [Char.toNat]
    omega

theorem readEscape_unit (h : Hex ds c.toNat) (cs : List Char) :
    readEscape ('u' :: ds ++ cs) = .ok (c, ('u' :: ds).length) := by
  have hsurrogate := not_surrogate c
  rw [List.cons_append, readEscape, h.readHex]
  simp only
  rw [if_neg (by omega), if_pos (by omega), Char.ofNat_toNat, List.length_cons, h.length_eq]

theorem readEscape_pair {high low : Nat} (hds : Hex ds high)
    (hhigh : 0xD800 ≤ high ∧ high ≤ 0xDBFF) (hes : Hex es low)
    (hlow : 0xDC00 ≤ low ∧ low ≤ 0xDFFF)
    (hc : c.toNat = 0x10000 + (high - 0xD800) * 0x400 + (low - 0xDC00)) (cs : List Char) :
    readEscape ('u' :: (ds ++ '\\' :: 'u' :: es) ++ cs) =
      .ok (c, ('u' :: (ds ++ '\\' :: 'u' :: es)).length) := by
  have hdrop : (ds ++ '\\' :: 'u' :: (es ++ cs)).drop 4 = '\\' :: 'u' :: (es ++ cs) := by
    rw [← hds.length_eq, List.drop_left]
  have hcons : 'u' :: (ds ++ '\\' :: 'u' :: es) ++ cs =
      'u' :: (ds ++ '\\' :: 'u' :: (es ++ cs)) := by simp
  rw [hcons, readEscape, hds.readHex]
  simp only
  rw [if_neg (by omega), if_neg (by omega), hdrop]
  simp only [hes.readHex]
  rw [if_neg (by omega), ← hc, Char.ofNat_toNat]
  simp [hds.length_eq, hes.length_eq]

/-- A character is read from each of its spellings. -/
theorem Spelling.readQuoted (h : Spelling ds c) (hcs : readQuoted 0 cs = .ok (s, rest)) :
    readQuoted 0 (ds ++ cs) = .ok (c :: s, rest) := by
  cases h with
  | plain h => exact readQuoted_plain h.1 h.2.1 (Nat.not_lt.mpr h.2.2) hcs
  | letter h => exact readQuoted_simple (simpleEscape?_of_mem_letters h) hcs
  | unit h => exact readQuoted_backslash (readEscape_unit h cs) hcs
  | pair hds hhigh hes hlow hc =>
    exact readQuoted_backslash (readEscape_pair hds hhigh hes hlow hc cs) hcs

theorem Spells.readQuoted (h : Spells cs s) (rest : List Char) :
    readQuoted 0 (cs ++ '"' :: rest) = .ok (s, rest) := by
  induction h with
  | nil => rfl
  | cons hc _ ih =>
    rw [List.append_assoc]
    exact hc.readQuoted ih

/-- A string is read from each of its spellings, up to the closing quote. -/
theorem Spells.readString {s : String} (h : Spells cs s.toList) (rest : List Char) :
    readString (cs ++ '"' :: rest) = .ok (s, rest) := by
  simp only [Json.readString, h.readQuoted, String.ofList_toList]

/-! ## Passing over -/

theorem skipQuoted_plain (h : Plain c) (cs : List Char) : skipQuoted (c :: cs) = skipQuoted cs := by
  obtain ⟨hquote, hbackslash, hcontrol⟩ := h
  rw [skipQuoted.eq_def]
  split
  case h_6 heq =>
    cases heq
    exact if_neg (Nat.not_lt.mpr hcontrol)
  case h_1 heq => cases heq
  case h_2 heq =>
    cases heq
    exact absurd rfl hquote
  case h_3 heq | h_4 heq | h_5 heq =>
    cases heq
    exact absurd rfl hbackslash

theorem skipQuoted_letter (h : (d, c) ∈ letters) (cs : List Char) :
    skipQuoted ('\\' :: d :: cs) = skipQuoted cs := by
  have hletter := simpleEscape?_of_mem_letters h
  have hu : d ≠ 'u' := by
    rintro rfl
    cases hletter
  rw [skipQuoted]
  · simp [hletter]
  · exact hu

theorem skipQuoted_unit (h : Hex ds v) (cs : List Char) :
    skipQuoted ('\\' :: 'u' :: (ds ++ cs)) = skipQuoted cs := by
  have hread := h.readHex cs
  obtain ⟨-, -, -, -⟩ := h
  rw [skipQuoted.eq_def]
  simp only [hread]
  rfl

/-- Whatever may stand between quotes is passed over, up to the closing quote. -/
theorem Raw.skipQuoted (h : Raw cs) (rest : List Char) :
    skipQuoted (cs ++ '"' :: rest) = .ok rest := by
  induction h with
  | nil => rfl
  | plain h _ ih => rw [List.cons_append, skipQuoted_plain h, ih]
  | letter h _ ih => rw [List.cons_append, List.cons_append, skipQuoted_letter h, ih]
  | unit h _ ih =>
    rw [List.cons_append, List.cons_append, List.append_assoc, skipQuoted_unit h, ih]

end OperatorKit.Json
