/-!
# Splitting

Cutting a row of characters, or of anything else, into pieces at separators. There is always
one piece more than there are separators.
-/

namespace OperatorKit.Text

/-- The pieces between the elements that satisfy `p`. -/
def splitBy {α : Type} (p : α → Bool) : List α → List (List α)
  | []      => [[]]
  | c :: cs =>
    if p c then [] :: splitBy p cs
    else
      match splitBy p cs with
      | []      => [[c]]
      | s :: ss => (c :: s) :: ss

theorem splitBy_ne_nil {α : Type} (p : α → Bool) (cs : List α) : splitBy p cs ≠ [] := by
  cases cs with
  | nil => simp [splitBy]
  | cons c cs =>
    unfold splitBy
    split
    · simp
    · split <;> simp

end OperatorKit.Text
