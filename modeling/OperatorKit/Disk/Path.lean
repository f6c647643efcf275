import OperatorKit.Text.Split

/-!
# Paths

Paths as texts. A path is a row of names with slashes between them; a slash in
front makes it absolute. Empty names count for nothing, and neither does a `.`
that is not the first name. A path is spelled as the operator spelled it, so
joining and cutting off names work on the text.
-/

namespace OperatorKit.Disk.Path

/-- A path that does not start from the working directory. -/
def isAbsolute (p : String) : Bool := p.toList.head? == some '/'

/-- A path behind a directory. An absolute path stands for itself. -/
def join (dir name : String) : String :=
  if isAbsolute name then name
  else if dir.toList.isEmpty then name
  else if dir.toList.getLast? == some '/' then dir ++ name
  else dir ++ "/" ++ name

/-! ## Parents

A path is read from its end here, so the characters are in reverse. -/

/-- Drop slashes from the end of a path, and names that count for nothing. -/
def trimEnd : List Char → List Char
  | '/' :: r        => trimEnd r
  | '.' :: '/' :: r => trimEnd r
  | r               => r

theorem length_trimEnd_le (r : List Char) : (trimEnd r).length ≤ r.length := by
  fun_induction trimEnd r with
  | case1 r ih => simp only [List.length_cons]; omega
  | case2 r ih => simp only [List.length_cons]; omega
  | case3 r _ _ => exact Nat.le_refl _

/-- Cut the last name off a path. -/
def cutLast (r : List Char) : List Char := trimEnd (r.dropWhile (· != '/'))

theorem length_cutLast_lt {r : List Char} (h : r ≠ []) : (cutLast r).length < r.length := by
  cases r with
  | nil => exact absurd rfl h
  | cons c r =>
    unfold cutLast
    by_cases hc : c = '/'
    · subst hc
      simp only [List.dropWhile_cons, bne_self_eq_false, Bool.false_eq_true, if_false, trimEnd,
        List.length_cons]
      have := length_trimEnd_le r
      omega
    · have hd : (c != '/') = true := by simpa using hc
      simp only [List.dropWhile_cons, hd, if_true, List.length_cons]
      have h1 := length_trimEnd_le (r.dropWhile (· != '/'))
      have h2 : (r.dropWhile (· != '/')).length ≤ r.length :=
        (List.dropWhile_sublist _).length_le
      omega

/-- The text of a path in reverse; if nothing is left of it, it is the root or empty. -/
def ofReversed (absolute : Bool) (r : List Char) : String :=
  if r.isEmpty then if absolute then "/" else "" else String.ofList r.reverse

/-- The path of the directory that a path is in. The root has none, and neither
has the empty path. -/
def parent? (p : String) : Option String :=
  let r := trimEnd p.toList.reverse
  if r.isEmpty then none else some (ofReversed (isAbsolute p) (cutLast r))

/-- The path and those of all directories that it is in, the nearest first. -/
def chain (absolute : Bool) (r : List Char) : List String :=
  if _h : r = [] then if absolute then ["/"] else []
  else ofReversed absolute r :: chain absolute (cutLast r)
  termination_by r.length
  decreasing_by exact length_cutLast_lt _h

/-- All directories that a path is in, the nearest first, without the working directory. -/
def ancestors (p : String) : List String :=
  let r := trimEnd p.toList.reverse
  if r.isEmpty then [] else chain (isAbsolute p) (cutLast r)

/-! ## Names -/

/-- The names of a path, without the empty ones. -/
def names (p : String) : List String :=
  ((Text.splitBy (· == '/') p.toList).filter (!·.isEmpty)).map String.ofList

end OperatorKit.Disk.Path
