import OperatorKit.Text.Split

/-!
# Laws of splitting

A row splits at each of its separators, and a row without separators is one piece.
-/

namespace OperatorKit.Text

variable {α : Type} {p : α → Bool}

theorem splitBy_of_forall {cs : List α} (h : ∀ c ∈ cs, p c = false) : splitBy p cs = [cs] := by
  induction cs with
  | nil => rfl
  | cons c cs ih =>
    obtain ⟨hc, hcs⟩ := List.forall_mem_cons.mp h
    rw [splitBy, if_neg (Bool.eq_false_iff.mp hc), ih hcs]

theorem splitBy_append_cons {c : α} (hc : p c = true) (cs cs' : List α) :
    splitBy p (cs ++ c :: cs') = splitBy p cs ++ splitBy p cs' := by
  induction cs with
  | nil => simp [splitBy, hc]
  | cons d cs ih =>
    simp only [List.cons_append, splitBy, ih]
    split
    · rfl
    · -- There is a first piece, and `d` goes to its front on both sides.
      cases hs : splitBy p cs with
      | nil => exact absurd hs (splitBy_ne_nil p cs)
      | cons s ss => rfl

end OperatorKit.Text
