import Mathlib.Data.List.DropRight
import OperatorKit.Json.Reader
import OperatorKit.Proofs.Json.Number
import OperatorKit.Proofs.Json.RoundTrip
import OperatorKit.Proofs.Json.Spelling

/-!
# Passing over values

The texts of values, with blanks wherever they may stand, numbers of any size, and arrays and
objects nested as deep as one likes. A reader passes over each of them and stops right behind
it.
-/

namespace OperatorKit.Json

/-! ## Texts of values -/

/-- Any number of blanks. -/
def Blanks (cs : List Char) : Prop := ∀ c ∈ cs, isBlank c = true

instance (cs : List Char) : Decidable (Blanks cs) := List.decidableBAll _ cs

/-- A sign, if there is one. -/
inductive Sign : List Char → Prop where
  | absent : Sign []
  | minus : Sign ['-']

/-- The fraction of a number, if it has one. -/
inductive Fraction : List Char → Prop where
  | absent : Fraction []
  | present {ds : List Char} (h : Digits ds) : Fraction ('.' :: ds)

/-- The exponent of a number, if it has one. -/
inductive Exponent : List Char → Prop where
  | absent : Exponent []
  | unsigned {e : Char} {ds : List Char} (he : e = 'e' ∨ e = 'E') (h : Digits ds) :
      Exponent (e :: ds)
  | signed {e sign : Char} {ds : List Char} (he : e = 'e' ∨ e = 'E')
      (hsign : sign = '+' ∨ sign = '-') (h : Digits ds) : Exponent (e :: sign :: ds)

/-- The values that are words. -/
def words : List (List Char) := ["null".toList, "true".toList, "false".toList]

/-- The kinds of text that are defined together. -/
inductive Symbol where
  | value
  /-- The items of an array and the bracket behind them. -/
  | items
  /-- The members of an object and the brace behind them. -/
  | members

/-- The texts of each kind. -/
inductive Derives : Symbol → List Char → Prop where
  | word {cs : List Char} (h : cs ∈ words) : Derives .value cs
  | number {sign whole fraction exponent : List Char} (hsign : Sign sign)
      (hwhole : WholeDigits whole) (hfraction : Fraction fraction) (hexponent : Exponent exponent) :
      Derives .value (sign ++ (whole ++ (fraction ++ exponent)))
  | string {cs : List Char} (h : Raw cs) : Derives .value ('"' :: cs ++ ['"'])
  | emptyArray {a : List Char} (ha : Blanks a) : Derives .value ('[' :: a ++ [']'])
  | array {cs : List Char} (h : Derives .items cs) : Derives .value ('[' :: cs)
  | emptyObject {a : List Char} (ha : Blanks a) : Derives .value ('\x7b' :: a ++ ['\x7d'])
  | object {cs : List Char} (h : Derives .members cs) : Derives .value ('\x7b' :: cs)
  | lastItem {a v b : List Char} (ha : Blanks a) (hv : Derives .value v) (hb : Blanks b) :
      Derives .items (a ++ (v ++ (b ++ [']'])))
  | item {a v b cs : List Char} (ha : Blanks a) (hv : Derives .value v) (hb : Blanks b)
      (hcs : Derives .items cs) : Derives .items (a ++ (v ++ (b ++ ',' :: cs)))
  | lastMember {a name b c v d : List Char} (ha : Blanks a) (hname : Raw name) (hb : Blanks b)
      (hc : Blanks c) (hv : Derives .value v) (hd : Blanks d) :
      Derives .members (a ++ '"' :: (name ++ '"' :: (b ++ ':' :: (c ++ (v ++ (d ++ ['\x7d']))))))
  | member {a name b c v d cs : List Char} (ha : Blanks a) (hname : Raw name) (hb : Blanks b)
      (hc : Blanks c) (hv : Derives .value v) (hd : Blanks d) (hcs : Derives .members cs) :
      Derives .members (a ++ '"' :: (name ++ '"' :: (b ++ ':' :: (c ++ (v ++ (d ++ ',' :: cs))))))

variable {c : Char} {a b cs ds rest sign whole fraction exponent v : List Char} {fuel : Nat}

/-! ## Blanks -/

theorem skipBlanks_append (ha : Blanks a) (cs : List Char) :
    skipBlanks (a ++ cs) = skipBlanks cs := by
  rw [skipBlanks, List.dropWhile_append_of_pos ha, skipBlanks]

theorem skipBlanks_append_cons (ha : Blanks a) (hc : isBlank c = false) (cs : List Char) :
    skipBlanks (a ++ c :: cs) = c :: cs := by
  rw [skipBlanks_append ha, skipBlanks_cons hc]

theorem skipBlanks_skipBlanks (cs : List Char) : skipBlanks (skipBlanks cs) = skipBlanks cs := by
  simp only [skipBlanks, List.dropWhile_idempotent]

/-- Blanks do not go on with a number. -/
theorem ends_append (ha : Blanks a) (hcs : Ends cs) : Ends (a ++ cs) := by
  cases a with
  | nil => exact hcs
  | cons c a =>
    have hc := ha c List.mem_cons_self
    simp only [isBlank, Bool.or_eq_true, beq_iff_eq] at hc
    refine ends_cons ?_
    obtain ((rfl | rfl) | rfl) | rfl := hc <;> decide

theorem readColon_append (hb : Blanks b) (cs : List Char) :
    readColon (b ++ ':' :: cs) = .ok cs := by
  rw [readColon, skipBlanks_append_cons hb rfl]
  rfl

/-! ## Numbers -/

theorem Exponent.head_append (h : Exponent exponent) (hrest : Ends rest) :
    ∀ c, (exponent ++ rest).head? = some c → c.isDigit = false ∧ c ≠ '.' := by
  intro c hc
  cases h with
  | absent => exact ⟨(hrest c hc).1, (hrest c hc).2.1⟩
  | unsigned he _ | signed he _ _ =>
    cases hc
    obtain rfl | rfl := he <;> decide

theorem Fraction.head_append (h : Fraction fraction)
    (hcs : ∀ c, cs.head? = some c → c.isDigit = false) :
    ∀ c, (fraction ++ cs).head? = some c → c.isDigit = false := by
  intro c hc
  cases h with
  | absent => exact hcs c hc
  | present _ =>
    cases hc
    rfl

theorem Fraction.readFraction (h : Fraction fraction)
    (hcs : ∀ c, cs.head? = some c → c.isDigit = false ∧ c ≠ '.') :
    ∃ x, readFraction (fraction ++ cs) = .ok (x, cs) := by
  cases h with
  | absent =>
    cases cs with
    | nil => exact ⟨_, rfl⟩
    | cons c cs => exact ⟨none, by simp [Json.readFraction, (hcs c rfl).2]⟩
  | @present ds hds =>
    refine ⟨some ds, ?_⟩
    rw [List.cons_append, Json.readFraction, readDigits_append hds fun c hc => (hcs c hc).1]

/-- A digit is no sign. -/
theorem Digits.head_ne (h : Digits ds) : ∃ c cs, ds = c :: cs ∧ c ≠ '-' ∧ c ≠ '+' := by
  obtain ⟨hne, hds⟩ := h
  obtain ⟨c, cs, rfl⟩ := List.exists_cons_of_ne_nil hne
  have hc := hds c List.mem_cons_self
  refine ⟨c, cs, rfl, ?_, ?_⟩
  · rintro rfl
    cases hc
  · rintro rfl
    cases hc

theorem Exponent.readExponent (h : Exponent exponent) (hrest : Ends rest) :
    ∃ x, readExponent (exponent ++ rest) = .ok (x, rest) := by
  cases h with
  | absent => exact ⟨_, readExponent_of_ends hrest⟩
  | unsigned he hds =>
    have hread := readDigits_append hds fun c hc => (hrest c hc).1
    obtain ⟨c, cs, rfl, hminus, hplus⟩ := hds.head_ne
    rw [List.cons_append] at hread
    refine ⟨some (false, c :: cs), ?_⟩
    obtain rfl | rfl := he <;>
    · rw [List.cons_append, List.cons_append]
      simp [Json.readExponent, hminus, hplus, hread]
  | @signed _ sign ds he hsign hds =>
    have hread := readDigits_append hds fun c hc => (hrest c hc).1
    refine ⟨some (sign == '-', ds), ?_⟩
    obtain rfl | rfl := he <;> obtain rfl | rfl := hsign <;>
      simp [Json.readExponent, hread]

theorem exists_readUnsigned (negative : Bool) (hwhole : WholeDigits whole)
    (hfraction : Fraction fraction) (hexponent : Exponent exponent) (hrest : Ends rest) :
    ∃ n, readUnsigned negative (whole ++ (fraction ++ (exponent ++ rest))) = .ok (n, rest) := by
  have hhead := hexponent.head_append hrest
  have hread := readWhole_append hwhole (hfraction.head_append fun c hc => (hhead c hc).1)
  obtain ⟨x, hx⟩ := hfraction.readFraction hhead
  obtain ⟨y, hy⟩ := hexponent.readExponent hrest
  refine ⟨⟨negative, whole, x, y⟩, ?_⟩
  simp only [readUnsigned, hread, hx, hy]

theorem skipNumber_append (hsign : Sign sign) (hwhole : WholeDigits whole)
    (hfraction : Fraction fraction) (hexponent : Exponent exponent) (hrest : Ends rest) :
    skipNumber (sign ++ (whole ++ (fraction ++ exponent)) ++ rest) = .ok rest := by
  simp only [List.append_assoc]
  cases hsign with
  | minus =>
    obtain ⟨n, hn⟩ := exists_readUnsigned true hwhole hfraction hexponent hrest
    rw [List.singleton_append, skipNumber, readNumeral, hn]
  | absent =>
    obtain ⟨n, hn⟩ := exists_readUnsigned false hwhole hfraction hexponent hrest
    obtain ⟨c, cs, rfl, hminus, -⟩ := hwhole.1.head_ne
    rw [List.cons_append] at hn
    simp [skipNumber, readNumeral, hminus, hn]

theorem number_eq_cons (hsign : Sign sign) (hwhole : WholeDigits whole) (cs : List Char) :
    ∃ c ds, sign ++ (whole ++ cs) = c :: ds ∧ (c == '-' || c.isDigit) = true := by
  cases hsign with
  | minus => exact ⟨_, _, rfl, rfl⟩
  | absent =>
    obtain ⟨hne, hds⟩ := hwhole.1
    obtain ⟨c, ds, rfl⟩ := List.exists_cons_of_ne_nil hne
    exact ⟨c, _, rfl, by rw [hds c List.mem_cons_self, Bool.or_true]⟩

/-! ## Values -/

/-- A value begins with a character at which no reader of an array stops. -/
theorem Derives.eq_cons (h : Derives .value v) :
    ∃ c cs, v = c :: cs ∧ isBlank c = false ∧ c ≠ ']' := by
  cases h with
  | word h =>
    simp only [words, List.mem_cons, List.not_mem_nil, or_false] at h
    obtain rfl | rfl | rfl := h <;> exact ⟨_, _, rfl, rfl, by decide⟩
  | number hsign hwhole hfraction hexponent =>
    obtain ⟨c, cs, hcons, hc⟩ := number_eq_cons hsign hwhole _
    exact ⟨c, cs, hcons, isBlank_eq_false hc⟩
  | string _ | emptyArray _ | array _ | emptyObject _ | object _ =>
    exact ⟨_, _, rfl, rfl, by decide⟩

theorem Derives.skipBlanks_eq_cons (h : Derives .value v) (ha : Blanks a) (cs : List Char) :
    ∃ c ds, skipBlanks (a ++ (v ++ cs)) = c :: ds ∧ c ≠ ']' := by
  obtain ⟨c, ds, rfl, hblank, hc⟩ := h.eq_cons
  exact ⟨c, ds ++ cs, skipBlanks_append_cons ha hblank _, hc⟩

theorem skipValue_append (ha : Blanks a) (fuel : Nat) (cs : List Char) :
    skipValue fuel (a ++ cs) = skipValue fuel cs := by
  cases fuel with
  | zero => rw [skipValue, skipValue]
  | succ fuel => rw [skipValue, skipValue, skipBlanks_append ha]

theorem skipItems_skipBlanks (fuel : Nat) (cs : List Char) :
    skipItems fuel (skipBlanks cs) = skipItems fuel cs := by
  cases fuel with
  | zero => rw [skipItems, skipItems]
  | succ fuel =>
    have hvalue : skipValue fuel (skipBlanks cs) = skipValue fuel cs := by
      cases fuel with
      | zero => rw [skipValue, skipValue]
      | succ fuel => rw [skipValue, skipValue, skipBlanks_skipBlanks]
    rw [skipItems, skipItems, hvalue]

theorem skipMembers_skipBlanks (fuel : Nat) (cs : List Char) :
    skipMembers fuel (skipBlanks cs) = skipMembers fuel cs := by
  cases fuel with
  | zero => rw [skipMembers, skipMembers]
  | succ fuel => rw [skipMembers, skipMembers, skipBlanks_skipBlanks]

theorem skipValue_array (h : ∃ c ds, skipBlanks cs = c :: ds ∧ c ≠ ']') (fuel : Nat) :
    skipValue (fuel + 1) ('[' :: cs) = skipItems fuel cs := by
  obtain ⟨c, ds, hcons, hc⟩ := h
  rw [← skipItems_skipBlanks, skipValue, skipBlanks_cons rfl]
  simp only [hcons]
  split
  case h_1 heq =>
    cases heq
    exact absurd rfl hc
  case h_2 heq => cases heq
  case h_3 => rfl

theorem skipValue_object (h : ∃ c ds, skipBlanks cs = c :: ds ∧ c ≠ '\x7d') (fuel : Nat) :
    skipValue (fuel + 1) ('\x7b' :: cs) = skipMembers fuel cs := by
  obtain ⟨c, ds, hcons, hc⟩ := h
  rw [← skipMembers_skipBlanks, skipValue, skipBlanks_cons rfl]
  simp only [hcons]
  split
  case h_1 heq =>
    cases heq
    exact absurd rfl hc
  case h_2 heq => cases heq
  case h_3 => rfl

theorem skipValue_number (hc : (c == '-' || c.isDigit) = true) (fuel : Nat) (cs : List Char) :
    skipValue (fuel + 1) (c :: cs) = skipNumber (c :: cs) := by
  rw [skipValue, skipBlanks_cons (isBlank_eq_false hc).1]
  split
  case h_1 heq => cases heq
  case h_2 heq | h_3 heq | h_4 heq | h_5 heq | h_6 heq | h_7 heq =>
    -- These characters begin other values.
    cases heq
    cases hc
  case h_8 heq =>
    cases heq
    exact if_pos hc

/-- A text of each kind is passed over with any fuel that covers its length. -/
def Passed : Symbol → List Char → Prop
  | .value,   cs => ∀ fuel rest, cs.length ≤ fuel → Ends rest →
      skipValue fuel (cs ++ rest) = .ok rest
  | .items,   cs => (∀ rest, ∃ c ds, skipBlanks (cs ++ rest) = c :: ds ∧ c ≠ ']') ∧
      ∀ fuel rest, cs.length ≤ fuel → skipItems fuel (cs ++ rest) = .ok rest
  | .members, cs => (∀ rest, ∃ c ds, skipBlanks (cs ++ rest) = c :: ds ∧ c ≠ '\x7d') ∧
      ∀ fuel rest, cs.length ≤ fuel → skipMembers fuel (cs ++ rest) = .ok rest

/-- The blanks behind a value and what is behind them. -/
theorem ends_blanks_cons (hb : Blanks b) (hc : c = ',' ∨ c = ']' ∨ c = '\x7d') (cs : List Char) :
    Ends (b ++ c :: cs) := by
  refine ends_append hb (ends_cons ?_)
  obtain rfl | rfl | rfl := hc <;> decide

/-- A value in an array, with its blanks, up to the character behind it. -/
theorem Passed.skipValue_item (hv : Passed .value v) (ha : Blanks a) (hb : Blanks b)
    (hc : c = ',' ∨ c = ']' ∨ c = '\x7d') (hfuel : v.length ≤ fuel) (cs : List Char) :
    skipValue fuel (a ++ (v ++ (b ++ c :: cs))) = .ok (b ++ c :: cs) := by
  rw [skipValue_append ha]
  exact hv fuel _ hfuel (ends_blanks_cons hb hc cs)

theorem Derives.passed {k : Symbol} (h : Derives k cs) : Passed k cs := by
  -- Every case spends one unit of fuel, and its text has a character that its parts lack.
  induction h with
  | word h =>
    intro fuel rest hfuel _
    simp only [words, List.mem_cons, List.not_mem_nil, or_false] at h
    obtain rfl | rfl | rfl := h <;>
    · obtain ⟨fuel, rfl⟩ := Nat.exists_eq_add_of_lt hfuel
      rw [skipValue]
      rfl
  | number hsign hwhole hfraction hexponent =>
    intro fuel rest hfuel hrest
    have hskip := skipNumber_append hsign hwhole hfraction hexponent hrest
    obtain ⟨c, cs, hcons, hc⟩ := number_eq_cons hsign hwhole _
    rw [hcons] at hskip hfuel ⊢
    obtain ⟨fuel, rfl⟩ := Nat.exists_eq_add_of_lt hfuel
    exact (skipValue_number hc _ _).trans hskip
  | string h =>
    intro fuel rest hfuel _
    obtain ⟨fuel, rfl⟩ := Nat.exists_eq_add_of_lt hfuel
    rw [List.append_assoc, List.cons_append, skipValue, skipBlanks_cons rfl]
    exact h.skipQuoted rest
  | emptyArray ha =>
    intro fuel rest hfuel _
    obtain ⟨fuel, rfl⟩ := Nat.exists_eq_add_of_lt hfuel
    have hend : skipBlanks (_ ++ ']' :: rest) = _ := skipBlanks_append_cons ha rfl rest
    rw [List.append_assoc, List.cons_append, skipValue, skipBlanks_cons rfl]
    simp only [List.singleton_append, hend]
  | emptyObject ha =>
    intro fuel rest hfuel _
    obtain ⟨fuel, rfl⟩ := Nat.exists_eq_add_of_lt hfuel
    have hend : skipBlanks (_ ++ '\x7d' :: rest) = _ := skipBlanks_append_cons ha rfl rest
    rw [List.append_assoc, List.cons_append, skipValue, skipBlanks_cons rfl]
    simp only [List.singleton_append, hend]
  | array _ ih =>
    intro fuel rest hfuel _
    obtain ⟨fuel, rfl⟩ := Nat.exists_eq_add_of_lt hfuel
    rw [List.cons_append, skipValue_array (ih.1 rest)]
    exact ih.2 _ rest (by omega)
  | object _ ih =>
    intro fuel rest hfuel _
    obtain ⟨fuel, rfl⟩ := Nat.exists_eq_add_of_lt hfuel
    rw [List.cons_append, skipValue_object (ih.1 rest)]
    exact ih.2 _ rest (by omega)
  | lastItem ha hv hb ih =>
    simp only [Passed, List.append_assoc, List.singleton_append, List.length_append,
      List.length_cons, List.length_nil]
    refine ⟨fun rest => hv.skipBlanks_eq_cons ha _, fun fuel rest hfuel => ?_⟩
    obtain ⟨fuel, rfl⟩ : ∃ k, fuel = k + 1 := ⟨fuel - 1, by omega⟩
    rw [skipItems, ih.skipValue_item ha hb (by decide) (by omega)]
    simp only [skipBlanks_append_cons (c := ']') hb rfl]
  | item ha hv hb _ ihv ihcs =>
    simp only [Passed, List.append_assoc, List.cons_append, List.length_append, List.length_cons]
    refine ⟨fun rest => hv.skipBlanks_eq_cons ha _, fun fuel rest hfuel => ?_⟩
    obtain ⟨fuel, rfl⟩ : ∃ k, fuel = k + 1 := ⟨fuel - 1, by omega⟩
    rw [skipItems, ihv.skipValue_item ha hb (by decide) (by omega)]
    simp only [skipBlanks_append_cons (c := ',') hb rfl]
    exact ihcs.2 fuel rest (by omega)
  | lastMember ha hname hb hc hv hd ih =>
    simp only [Passed, List.append_assoc, List.cons_append, List.nil_append, List.length_append,
      List.length_cons, List.length_nil]
    refine ⟨fun rest => ⟨_, _, skipBlanks_append_cons ha rfl _, by decide⟩,
      fun fuel rest hfuel => ?_⟩
    obtain ⟨fuel, rfl⟩ : ∃ k, fuel = k + 1 := ⟨fuel - 1, by omega⟩
    rw [skipMembers, skipBlanks_append_cons ha rfl]
    simp only [hname.skipQuoted, readColon_append hb]
    rw [ih.skipValue_item hc hd (by decide) (by omega)]
    simp only [skipBlanks_append_cons (c := '\x7d') hd rfl]
  | member ha hname hb hc hv hd _ ihv ihcs =>
    simp only [Passed, List.append_assoc, List.cons_append, List.length_append, List.length_cons]
    refine ⟨fun rest => ⟨_, _, skipBlanks_append_cons ha rfl _, by decide⟩,
      fun fuel rest hfuel => ?_⟩
    obtain ⟨fuel, rfl⟩ : ∃ k, fuel = k + 1 := ⟨fuel - 1, by omega⟩
    rw [skipMembers, skipBlanks_append_cons ha rfl]
    simp only [hname.skipQuoted, readColon_append hb]
    rw [ihv.skipValue_item hc hd (by decide) (by omega)]
    simp only [skipBlanks_append_cons (c := ',') hd rfl]
    exact ihcs.2 fuel rest (by omega)

/-- Every value is passed over, with any blanks in front of it, if nothing behind it goes on
with a number. -/
theorem Derives.skipValue_append (h : Derives .value v) (ha : Blanks a) (hrest : Ends rest) :
    skipValue (fuelFor (a ++ (v ++ rest))) (a ++ (v ++ rest)) = .ok rest := by
  rw [Json.skipValue_append ha]
  refine h.passed _ rest ?_ hrest
  simp only [fuelFor, List.length_append]
  omega

end OperatorKit.Json
