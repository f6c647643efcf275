/-!
# Likeness of words

How much two words look alike, from 0 to 1. Letters agree if they are the same
and not too far apart; what counts is the share of agreeing letters in both
words and how many of them are in order. A common beginning raises the likeness.
-/

namespace OperatorKit.Text

/-- What is known while the letters of one word are looked for in another: which
letters there are used up, how many agree, how many of them go backwards, and
where the last one was. -/
structure Agreement where
  used : List Nat
  agreeing : Nat
  backwards : Nat
  last : Nat

/-- The first free place of `c` among the letters from place `j` on, no further
than `high`. -/
def findFree? (used : List Nat) (low high : Nat) (c : Char) : (j : Nat) → List Char → Option Nat
  | _, []      => none
  | j, d :: ds =>
    if low ≤ j ∧ j ≤ high ∧ c = d ∧ !used.contains j then some j
    else findFree? used low high c (j + 1) ds

/-- Look for the letters of a word, from place `i` on, in the word `other`, each
no more than `range` places away. -/
def agree (other : List Char) (range : Nat) (a : Agreement) : (i : Nat) → List Char → Agreement
  | _, []      => a
  | i, c :: cs =>
    let high := Nat.min (other.length - 1) (i + range)
    match findFree? a.used (i - range) high c 0 other with
    | none   => agree other range a (i + 1) cs
    | some j =>
      agree other range
        ⟨j :: a.used, a.agreeing + 1, if j < a.last then a.backwards + 1 else a.backwards, j⟩
        (i + 1) cs

/-- The likeness of two words without regard to their beginnings. -/
def plainLikeness (s t : List Char) : Float :=
  if s.isEmpty && t.isEmpty then 1
  else if s.isEmpty || t.isEmpty then 0
  else if s.length == 1 && t.length == 1 then if s == t then 1 else 0
  else
    let a := agree t (Nat.max s.length t.length / 2 - 1) ⟨[], 0, 0, 0⟩ 0 s
    if a.agreeing == 0 then 0
    else
      let m := a.agreeing.toFloat
      1 / 3 * (m / s.length.toFloat + m / t.length.toFloat + (m - a.backwards.toFloat) / m)

/-- How many letters two words have in common at their beginning. -/
def commonStart : List Char → List Char → Nat
  | c :: cs, d :: ds => if c == d then commonStart cs ds + 1 else 0
  | _,       _       => 0

/-- The likeness of two words. -/
def likeness (s t : String) : Float :=
  let plain := plainLikeness s.toList t.toList
  let raised := plain + 0.1 * (commonStart s.toList t.toList).toFloat * (1 - plain)
  if raised <= 1 then raised else 1

end OperatorKit.Text
