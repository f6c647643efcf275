import Mathlib.Data.String.Basic
import OperatorKit.Json.Reader
import OperatorKit.Proofs.Json.Number
import OperatorKit.Proofs.Json.Quoted
import OperatorKit.Proofs.Sorted

/-!
# Reading back values

What a reader makes of a text is nested no deeper than it allows, has its members in order, and
has no whole number that does not fit. Such a value is read back from its compact text, if none of
its numbers is a double.
-/

namespace OperatorKit.Json

/-! ## Values that can be read -/

namespace Value

/-- A value can be the result of reading, with arrays and objects nested at most `depth` deep. -/
inductive Legible : Nat → Value → Prop where
  | null {depth : Nat} : Legible depth .null
  | bool {depth : Nat} (b : Bool) : Legible depth (.bool b)
  | number {depth : Nat} {n : Number} (h : n.Fits) : Legible depth (.number n)
  | string {depth : Nat} (s : String) : Legible depth (.string s)
  | array {depth : Nat} {items : List Value} (h : ∀ v ∈ items, Legible depth v) :
      Legible (depth + 1) (.array items)
  | object {depth : Nat} {members : List (String × Value)} (hascending : Sorted.Ascending members)
      (h : ∀ m ∈ members, Legible depth m.2) : Legible (depth + 1) (.object members)

/-- All numbers in a value are whole numbers. -/
inductive Whole : Value → Prop where
  | null : Whole .null
  | bool (b : Bool) : Whole (.bool b)
  | integer (n : Int) : Whole (.number (.integer n))
  | string (s : String) : Whole (.string s)
  | array {items : List Value} (h : ∀ v ∈ items, Whole v) : Whole (.array items)
  | object {members : List (String × Value)} (h : ∀ m ∈ members, Whole m.2) :
      Whole (.object members)

end Value

variable {fuel depth : Nat} {c : Char} {cs rest : List Char} {v : Value} {vs : List Value}
  {name : String} {ms ms' : List (String × Value)}

/-! ## What is read -/

section

variable {ε α β : Type}

theorem exists_of_map_eq_ok {x : Except ε α} {f : α → β} {b : β} (h : x.map f = .ok b) :
    ∃ a, x = .ok a ∧ f a = b := by
  cases x with
  | error e => cases h
  | ok a =>
    cases h
    exact ⟨a, rfl, rfl⟩

end

/-- Members that were read so far. -/
def Collected (depth : Nat) (ms : List (String × Value)) : Prop :=
  Sorted.Ascending ms ∧ ∀ m ∈ ms, m.2.Legible depth

theorem Collected.insertMember (hms : Collected depth ms) (name : String) (hv : v.Legible depth) :
    Collected depth (insertMember name v ms) := by
  obtain ⟨hascending, hlegible⟩ := hms
  refine ⟨hascending.insert name v, fun m hm => ?_⟩
  obtain rfl | hm := Sorted.mem_of_mem_insert hm
  · exact hv
  · exact hlegible m hm

/-- What the three readers give with some fuel is legible. -/
structure GiveLegible (fuel : Nat) : Prop where
  value {depth : Nat} {cs rest : List Char} {v : Value} :
    readValue fuel depth cs = .ok (v, rest) → v.Legible depth
  items {depth : Nat} {cs rest : List Char} {vs : List Value} :
    readItems fuel depth cs = .ok (vs, rest) → ∀ v ∈ vs, v.Legible depth
  members {depth : Nat} {cs rest : List Char} {ms ms' : List (String × Value)} :
    readMembers fuel depth ms cs = .ok (ms', rest) → Collected depth ms → Collected depth ms'

namespace GiveLegible

theorem readValue_succ (ih : GiveLegible fuel) (h : readValue (fuel + 1) depth cs = .ok (v, rest)) :
    v.Legible depth := by
  rw [readValue] at h
  split at h
  case h_1 => cases h
  case h_2 | h_3 | h_4 | h_5 =>
    obtain ⟨a, -, heq⟩ := exists_of_map_eq_ok h
    cases heq
    constructor
  case h_6 =>
    split at h
    case h_1 => cases h
    case h_2 =>
      split at h
      case h_1 =>
        cases h
        exact .array fun _ hv => by cases hv
      case h_2 =>
        obtain ⟨a, hitems, heq⟩ := exists_of_map_eq_ok h
        cases heq
        exact .array (ih.items hitems)
  case h_7 =>
    split at h
    case h_1 => cases h
    case h_2 =>
      split at h
      case h_1 =>
        cases h
        exact .object List.Pairwise.nil fun _ hm => by cases hm
      case h_2 =>
        obtain ⟨a, hmembers, heq⟩ := exists_of_map_eq_ok h
        cases heq
        obtain ⟨hascending, hlegible⟩ :=
          ih.members hmembers ⟨List.Pairwise.nil, fun _ hm => by cases hm⟩
        exact .object hascending hlegible
  case h_8 =>
    split at h
    case isTrue =>
      obtain ⟨a, hnumber, heq⟩ := exists_of_map_eq_ok h
      cases heq
      exact .number (fits_of_readNumber hnumber)
    case isFalse => cases h

theorem readItems_succ (ih : GiveLegible fuel)
    (h : readItems (fuel + 1) depth cs = .ok (vs, rest)) : ∀ v ∈ vs, v.Legible depth := by
  rw [readItems] at h
  split at h
  case h_1 => cases h
  case h_2 v cs hvalue =>
    have hv := ih.value hvalue
    split at h
    case h_1 | h_4 => cases h
    case h_2 =>
      cases h
      exact List.forall_mem_singleton.mpr hv
    case h_3 =>
      obtain ⟨a, hitems, heq⟩ := exists_of_map_eq_ok h
      cases heq
      exact List.forall_mem_cons.mpr ⟨hv, ih.items hitems⟩

theorem readMembers_succ (ih : GiveLegible fuel)
    (h : readMembers (fuel + 1) depth ms cs = .ok (ms', rest)) (hms : Collected depth ms) :
    Collected depth ms' := by
  rw [readMembers] at h
  split at h
  case h_1 => cases h
  case h_2 name cs _ =>
    split at h
    case h_1 => cases h
    case h_2 v cs hvalue =>
      have hinsert := hms.insertMember name (ih.value hvalue)
      split at h
      case h_1 | h_4 => cases h
      case h_2 =>
        cases h
        exact hinsert
      case h_3 => exact ih.members h hinsert

end GiveLegible

theorem giveLegible (fuel : Nat) : GiveLegible fuel := by
  induction fuel with
  | zero =>
    refine ⟨fun h => ?_, fun h => ?_, fun h => ?_⟩
    · cases h
    · cases h
    · cases h
  | succ fuel ih => exact ⟨ih.readValue_succ, ih.readItems_succ, ih.readMembers_succ⟩

theorem Value.legible_of_ofText {s : String} (h : ofText s = .ok v) : v.Legible depthLimit := by
  simp only [ofText] at h
  split at h
  case h_1 => cases h
  case h_2 hread =>
    obtain ⟨a, -, heq⟩ := exists_of_map_eq_ok h
    cases heq
    exact (giveLegible _).value hread

/-! ## What is read back -/

theorem skipBlanks_cons (hc : isBlank c = false) (cs : List Char) :
    skipBlanks (c :: cs) = c :: cs := by
  rw [skipBlanks, List.dropWhile_cons, hc]
  rfl

/-- What a number begins with is no blank, and no bracket. -/
theorem isBlank_eq_false (hc : (c == '-' || c.isDigit) = true) : isBlank c = false ∧ c ≠ ']' := by
  refine ⟨Bool.eq_false_iff.mpr fun hblank => ?_, ?_⟩
  · simp only [isBlank, Bool.or_eq_true, beq_iff_eq] at hblank
    obtain ((rfl | rfl) | rfl) | rfl := hblank <;> cases hc
  · rintro rfl
    cases hc

/-- The text of a value begins with a character at which no reader stops. -/
theorem Value.Whole.render_eq_cons (h : v.Whole) :
    ∃ c cs, v.render = c :: cs ∧ isBlank c = false ∧ c ≠ ']' := by
  cases h with
  | null | array _ | object _ => exact ⟨_, _, by rw [render], rfl, by decide⟩
  | bool b => cases b <;> exact ⟨_, _, by rw [render], rfl, by decide⟩
  | string s => exact ⟨'"', _, by rw [render, quote, List.cons_append], rfl, by decide⟩
  | integer n =>
    obtain ⟨c, cs, htext, hc⟩ := integerText_eq_cons n
    exact ⟨c, cs, by rw [render]; exact htext, isBlank_eq_false hc⟩

/-- A value is read back from its text, whatever follows that does not go on with it. -/
def Value.ReadsBack (depth : Nat) (v : Value) : Prop :=
  ∀ fuel rest, v.render.length ≤ fuel → Ends rest →
    readValue fuel depth (v.render ++ rest) = .ok (v, rest)

theorem readValue_number (fuel depth : Nat) (hc : (c == '-' || c.isDigit) = true) (cs : List Char) :
    readValue (fuel + 1) depth (c :: cs) =
      (readNumber (c :: cs)).map fun x => (.number x.1, x.2) := by
  rw [readValue, skipBlanks_cons (isBlank_eq_false hc).1]
  split
  case h_1 heq => cases heq
  case h_2 heq | h_3 heq | h_4 heq | h_5 heq | h_6 heq | h_7 heq =>
    -- These characters begin other values.
    cases heq
    cases hc
  case h_8 heq =>
    cases heq
    exact if_pos hc

namespace Value.ReadsBack

theorem null (depth : Nat) : Value.null.ReadsBack depth := by
  intro fuel rest hfuel _
  obtain ⟨fuel, rfl⟩ := Nat.exists_eq_add_of_lt hfuel
  rw [render, readValue]
  rfl

theorem bool (depth : Nat) (b : Bool) : (Value.bool b).ReadsBack depth := by
  intro fuel rest hfuel _
  cases b <;>
  · rw [render] at hfuel ⊢
    obtain ⟨fuel, rfl⟩ := Nat.exists_eq_add_of_lt hfuel
    rw [readValue]
    rfl

theorem integer (depth : Nat) {n : Int} (h : (Number.integer n).Fits) :
    (Value.number (.integer n)).ReadsBack depth := by
  intro fuel rest hfuel hrest
  have hnumber := readNumber_integerText h hrest
  obtain ⟨c, cs, htext, hc⟩ := integerText_eq_cons n
  rw [render, Number.text, htext] at hfuel ⊢
  rw [htext] at hnumber
  obtain ⟨fuel, rfl⟩ := Nat.exists_eq_add_of_lt hfuel
  rw [List.cons_append] at hnumber ⊢
  rw [readValue_number _ _ hc, hnumber]
  rfl

theorem string (depth : Nat) (s : String) : (Value.string s).ReadsBack depth := by
  intro fuel rest hfuel _
  rw [render] at hfuel ⊢
  obtain ⟨fuel, rfl⟩ := Nat.exists_eq_add_of_lt hfuel
  rw [quote_append, readValue, skipBlanks_cons rfl]
  simp only [readString_quoted]
  rfl

end Value.ReadsBack

/-! ## Arrays -/

theorem readItems_rendered (hvs : ∀ w ∈ v :: vs, w.ReadsBack depth)
    (hfuel : (Value.renderItems (v :: vs)).length ≤ fuel) (rest : List Char) :
    readItems fuel depth (Value.renderItems (v :: vs) ++ rest) = .ok (v :: vs, rest) := by
  induction vs generalizing v fuel with
  | nil =>
    rw [Value.renderItems, List.length_append, List.length_singleton] at hfuel
    obtain ⟨k, rfl⟩ : ∃ k, fuel = k + 1 := ⟨fuel - 1, by omega⟩
    have hv := hvs v List.mem_cons_self k (']' :: rest) (by omega) (ends_cons (by decide))
    rw [Value.renderItems, List.append_assoc, List.singleton_append, readItems, hv]
    rfl
  | cons w vs ih =>
    obtain ⟨hv, hvs⟩ := List.forall_mem_cons.mp hvs
    rw [Value.renderItems, List.length_append, List.length_cons] at hfuel
    obtain ⟨k, rfl⟩ : ∃ k, fuel = k + 1 := ⟨fuel - 1, by omega⟩
    have hv := hv k (',' :: (Value.renderItems (w :: vs) ++ rest)) (by omega)
      (ends_cons (by decide))
    rw [Value.renderItems, List.append_assoc, List.cons_append, readItems, hv]
    have hlength : (Value.renderItems (w :: vs)).length ≤ k := by omega
    simp only [skipBlanks_cons (c := ',') rfl, ih hvs hlength]
    rfl

theorem Value.ReadsBack.array {items : List Value} (hwhole : ∀ w ∈ items, w.Whole)
    (h : ∀ w ∈ items, w.ReadsBack depth) : (Value.array items).ReadsBack (depth + 1) := by
  intro fuel rest hfuel _
  rw [render, List.length_cons] at hfuel
  obtain ⟨k, rfl⟩ : ∃ k, fuel = k + 1 := ⟨fuel - 1, by omega⟩
  rw [render, List.cons_append, readValue, skipBlanks_cons rfl]
  cases items with
  | nil => rfl
  | cons v vs =>
    obtain ⟨c, cs, htext, hblank, hbracket⟩ := (hwhole v List.mem_cons_self).render_eq_cons
    have hbegin : ∃ cs, renderItems (v :: vs) ++ rest = c :: cs := by
      cases vs <;> exact ⟨_, by rw [renderItems, htext]; rfl⟩
    obtain ⟨cs, hbegin⟩ := hbegin
    have hitems := readItems_rendered h (Nat.le_of_lt_succ hfuel) rest
    rw [hbegin] at hitems ⊢
    simp only [skipBlanks_cons hblank]
    split
    case h_1 heq =>
      cases heq
      exact absurd rfl hbracket
    case h_2 =>
      rw [hitems]
      rfl

/-! ## Objects -/

theorem readName_quote (name : String) (rest : List Char) :
    readName (quote name ++ ':' :: rest) = .ok (name, rest) := by
  have hcolon : readColon (':' :: rest) = .ok rest := rfl
  rw [quote_append, readName, skipBlanks_cons rfl]
  simp only [readString_quoted, hcolon]

theorem renderMembers_singleton_append (name : String) (v : Value) (rest : List Char) :
    Value.renderMembers [(name, v)] ++ rest =
      quote name ++ ':' :: (v.render ++ '\x7d' :: rest) := by
  simp [Value.renderMembers]

theorem renderMembers_cons_append (name : String) (v : Value) (m : String × Value)
    (ms : List (String × Value)) (rest : List Char) :
    Value.renderMembers ((name, v) :: m :: ms) ++ rest =
      quote name ++ ':' :: (v.render ++ ',' :: (Value.renderMembers (m :: ms) ++ rest)) := by
  simp [Value.renderMembers]

/-- Members that are put into their places one after the other, as an object is read. -/
def insertMembers (ms ms' : List (String × Value)) : List (String × Value) :=
  ms'.foldl (fun ms m => insertMember m.1 m.2 ms) ms

/-- Members in the order of their names go behind those whose names are less. -/
theorem insertMembers_of_ascending (h : Sorted.Ascending (ms ++ ms')) :
    insertMembers ms ms' = ms ++ ms' := by
  induction ms' generalizing ms with
  | nil => exact (List.append_nil ms).symm
  | cons m ms' ih =>
    obtain ⟨-, -, hbefore⟩ := List.pairwise_append.mp h
    have hm : insertMember m.1 m.2 ms = ms ++ [m] :=
      Sorted.insert_of_forall_lt m.2 fun p hp => hbefore p hp m List.mem_cons_self
    rw [List.append_cons] at h ⊢
    rw [← ih h, ← hm]
    rfl

theorem ascending_insertMembers (h : Sorted.Ascending ms) (ms' : List (String × Value)) :
    Sorted.Ascending (insertMembers ms ms') := by
  induction ms' generalizing ms with
  | nil => exact h
  | cons m ms' ih => exact ih (h.insert m.1 m.2)

theorem readMembers_rendered (hms : ∀ m ∈ (name, v) :: ms', m.2.ReadsBack depth)
    (hfuel : (Value.renderMembers ((name, v) :: ms')).length ≤ fuel) (rest : List Char) :
    readMembers fuel depth ms (Value.renderMembers ((name, v) :: ms') ++ rest) =
      .ok (insertMembers ms ((name, v) :: ms'), rest) := by
  -- Each member goes from the text to those that were read.
  induction ms' generalizing fuel ms name v with
  | nil =>
    rw [Value.renderMembers] at hfuel
    simp only [List.length_append, List.length_cons, List.length_nil] at hfuel
    obtain ⟨k, rfl⟩ : ∃ k, fuel = k + 1 := ⟨fuel - 1, by omega⟩
    have hv := hms _ List.mem_cons_self k ('\x7d' :: rest) (by simp only; omega)
      (ends_cons (by decide))
    rw [renderMembers_singleton_append, readMembers, readName_quote]
    simp only [hv, skipBlanks_cons (c := '\x7d') rfl]
    rfl
  | cons m ms' ih =>
    obtain ⟨hv, hms⟩ := List.forall_mem_cons.mp hms
    rw [Value.renderMembers] at hfuel
    simp only [List.length_append, List.length_cons] at hfuel
    obtain ⟨k, rfl⟩ : ∃ k, fuel = k + 1 := ⟨fuel - 1, by omega⟩
    have hv := hv k (',' :: (Value.renderMembers (m :: ms') ++ rest)) (by simp only; omega)
      (ends_cons (by decide))
    have hlength : (Value.renderMembers (m :: ms')).length ≤ k := by omega
    rw [renderMembers_cons_append, readMembers, readName_quote]
    simp only [hv, skipBlanks_cons (c := ',') rfl]
    exact ih hms hlength

/-- An object with members in any order is read with its members in the order of their names;
of two members with one name the last one counts. -/
theorem readValue_object {members : List (String × Value)} (h : ∀ m ∈ members, m.2.ReadsBack depth)
    (hfuel : (Value.object members).render.length ≤ fuel) (rest : List Char) :
    readValue fuel (depth + 1) ((Value.object members).render ++ rest) =
      .ok (.object (insertMembers [] members), rest) := by
  rw [Value.render, List.length_cons] at hfuel
  obtain ⟨k, rfl⟩ : ∃ k, fuel = k + 1 := ⟨fuel - 1, by omega⟩
  rw [Value.render, List.cons_append, readValue, skipBlanks_cons rfl]
  cases members with
  | nil => rfl
  | cons m ms =>
    obtain ⟨name, v⟩ := m
    have hbegin : ∃ cs, Value.renderMembers ((name, v) :: ms) ++ rest = '"' :: cs := by
      cases ms <;> exact ⟨_, by rw [Value.renderMembers, quote]; rfl⟩
    obtain ⟨cs, hbegin⟩ := hbegin
    have hmembers : readMembers k depth [] (Value.renderMembers ((name, v) :: ms) ++ rest) =
        .ok (insertMembers [] ((name, v) :: ms), rest) :=
      readMembers_rendered h (Nat.le_of_lt_succ hfuel) rest
    rw [hbegin] at hmembers ⊢
    show (readMembers k depth [] ('"' :: cs)).map _ = _
    rw [hmembers]
    rfl

theorem Value.ReadsBack.object {members : List (String × Value)}
    (hascending : Sorted.Ascending members) (h : ∀ m ∈ members, m.2.ReadsBack depth) :
    (Value.object members).ReadsBack (depth + 1) := by
  intro fuel rest hfuel _
  have hmembers : insertMembers [] members = members :=
    @insertMembers_of_ascending [] members hascending
  rw [readValue_object h hfuel, hmembers]

/-! ## Whole texts -/

/-- A value without doubles is read back, if it is nested no deeper than a reader allows. -/
theorem Value.Legible.readsBack (h : v.Legible depth) (hwhole : v.Whole) : v.ReadsBack depth := by
  induction h with
  | null => exact .null _
  | bool b => exact .bool _ b
  | number hfits =>
    cases hwhole
    exact .integer _ hfits
  | string s => exact .string _ s
  | array _ ih =>
    cases hwhole with
    | array hwhole => exact .array hwhole fun w hw => ih w hw (hwhole w hw)
  | object hascending _ ih =>
    cases hwhole with
    | object hwhole => exact .object hascending fun m hm => ih m hm (hwhole m hm)

/-- The text of such a value is one that is read as the value. -/
theorem Value.ofText_text (h : v.Legible depthLimit) (hwhole : v.Whole) : ofText v.text = .ok v := by
  have hread := h.readsBack hwhole (fuelFor v.render) [] (by rw [fuelFor]; omega) ends_nil
  rw [List.append_nil] at hread
  rw [ofText, text, String.toList_ofList]
  simp only [hread]
  rfl

/-- The text of an object with members in any order is read with them in the order of their
names. -/
theorem Value.ofText_object {members : List (String × Value)}
    (h : ∀ m ∈ members, m.2.ReadsBack (depthLimit - 1)) :
    ofText (Value.object members).text = .ok (.object (insertMembers [] members)) := by
  have hread : readValue (fuelFor (object members).render) depthLimit
      ((object members).render ++ []) = .ok (.object (insertMembers [] members), []) :=
    readValue_object h (by rw [fuelFor]; omega) []
  rw [List.append_nil] at hread
  rw [ofText, text, String.toList_ofList]
  simp only [hread]
  rfl

end OperatorKit.Json
