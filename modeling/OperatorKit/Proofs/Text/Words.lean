import OperatorKit.Proofs.Text.Split

/-!
# Lines and words

A text whose lines have an end each is split into these lines, and a line is split into words at
runs of spaces, however long they are.
-/

namespace OperatorKit.Text

/-- The lines of a text; each of them has its end. -/
def lines (cs : List Char) : List (List Char) := (splitBy (· == '\n') cs).dropLast

/-- The words of a line, with any number of spaces between and around them. -/
def words (cs : List Char) : List (List Char) :=
  (splitBy (· == ' ') cs).filter fun w => !w.isEmpty

variable {cs ds w : List Char}

/-! ## Lines -/

theorem lines_flatMap {ls : List (List Char)} (h : ∀ l ∈ ls, ∀ c ∈ l, c ≠ '\n') :
    lines (ls.flatMap (· ++ ['\n'])) = ls := by
  induction ls with
  | nil => rfl
  | cons l ls ih =>
    obtain ⟨hl, hls⟩ := List.forall_mem_cons.mp h
    have hline : splitBy (· == '\n') l = [l] :=
      splitBy_of_forall fun c hc => beq_eq_false_iff_ne.mpr (hl c hc)
    have hrest := ih hls
    rw [lines] at hrest ⊢
    rw [List.flatMap_cons, List.append_assoc, List.singleton_append, splitBy_append_cons rfl, hline,
      List.singleton_append, List.dropLast_cons_of_ne_nil (splitBy_ne_nil _ _), hrest]

/-! ## Words -/

theorem words_append_space (cs ds : List Char) :
    words (cs ++ ' ' :: ds) = words cs ++ words ds := by
  rw [words, splitBy_append_cons rfl, List.filter_append, words, words]

/-- A row of characters without a space is one word. -/
theorem words_of_forall (hne : w ≠ []) (h : ∀ c ∈ w, c ≠ ' ') : words w = [w] := by
  have hsplit : splitBy (· == ' ') w = [w] :=
    splitBy_of_forall fun c hc => beq_eq_false_iff_ne.mpr (h c hc)
  rw [words, hsplit]
  simp [hne]

theorem words_replicate (n : Nat) : words (List.replicate n ' ') = [] := by
  induction n with
  | zero => rfl
  | succ n ih =>
    rw [List.replicate_succ, ← List.nil_append (' ' :: _), words_append_space, ih]
    rfl

theorem words_append_replicate (cs : List Char) (n : Nat) :
    words (cs ++ List.replicate n ' ') = words cs := by
  cases n with
  | zero => rw [List.replicate_zero, List.append_nil]
  | succ n =>
    rw [List.replicate_succ, words_append_space, words_replicate, List.append_nil]

theorem words_replicate_append (n : Nat) (cs : List Char) :
    words (List.replicate n ' ' ++ cs) = words cs := by
  cases n with
  | zero => rfl
  | succ n =>
    rw [List.replicate_succ', List.append_assoc, List.singleton_append, words_append_space,
      words_replicate, List.nil_append]

end OperatorKit.Text
