import Mathlib.Data.List.DropRight
import OperatorKit.Text.Blank

/-!
# Laws of dropping at the ends

What is dropped from an end of a text is a row of one character, and the text that is left does not
end in that character. So it does not matter how many of them stood there.
-/

namespace OperatorKit.Text

variable {c : Char} {cs : List Char}

theorem dropTrailing_eq_rdropWhile (c : Char) (cs : List Char) :
    dropTrailing c cs = cs.rdropWhile (· == c) := rfl

theorem dropTrailing_append_replicate (c : Char) (cs : List Char) (n : Nat) :
    dropTrailing c (cs ++ List.replicate n c) = dropTrailing c cs := by
  induction n with
  | zero => rw [List.replicate_zero, List.append_nil]
  | succ n ih =>
    rw [List.replicate_succ', ← List.append_assoc, ← ih]
    exact List.rdropWhile_concat_pos (· == c) _ c (beq_self_eq_true c)

theorem dropTrailing_eq_self_iff : dropTrailing c cs = cs ↔ cs.getLast? ≠ some c := by
  rw [dropTrailing_eq_rdropWhile, List.rdropWhile_eq_self_iff]
  constructor
  · intro h hlast
    obtain ⟨ds, rfl⟩ := List.getLast?_eq_some_iff.mp hlast
    exact h (List.concat_ne_nil c ds) (by simp)
  · intro h hne hlast
    rw [List.getLast?_eq_some_getLast hne, beq_iff_eq.mp hlast] at h
    exact h rfl

theorem dropTrailing_dropTrailing (c : Char) (cs : List Char) :
    dropTrailing c (dropTrailing c cs) = dropTrailing c cs :=
  List.rdropWhile_idempotent _ _

theorem dropWhile_replicate_append (c : Char) (cs : List Char) (n : Nat) :
    (List.replicate n c ++ cs).dropWhile (· == c) = cs.dropWhile (· == c) :=
  List.dropWhile_append_of_pos fun _ hd => beq_iff_eq.mpr (List.eq_of_mem_replicate hd)

end OperatorKit.Text
