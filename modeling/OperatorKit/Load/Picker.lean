import OperatorKit.Random.Draw

/-!
# Picking tasks

How a user of a load test picks the index of its next task from the weights of
all tasks. A random picker takes each task with a probability proportional to
its weight. A rotating one stays at a task as often as its weight says and then
moves on; it passes over tasks of weight zero, unless every weight is zero.
-/

namespace OperatorKit.Load

open OperatorKit.Random

/-- The ways to pick a task. -/
inductive PickerKind where
  | random
  | roundRobin
  deriving DecidableEq, Repr

/-- Read the way to pick a task, in any case of letters. -/
def PickerKind.ofText (s : String) : Except String PickerKind :=
  let t := String.ofList (s.toList.map Char.toLower)
  if t = "random" then .ok .random
  else if t = "round-robin" ∨ t = "roundrobin" then .ok .roundRobin
  else .error ("Invalid scheduler: '" ++ s ++ "'. Use 'random' or 'round-robin'.")

/-- The sum of weights. -/
def totalWeight : List UInt32 → Nat
  | []      => 0
  | w :: ws => w.toNat + totalWeight ws

/-- Whether no task has any weight. -/
def allZero (ws : List UInt32) : Bool := ws.all (· == 0)

/-! ## Proportional picks -/

/-- The index in whose part of the total weight a point lies, the parts standing
one behind the other. -/
def locate? : List UInt32 → Nat → Option Nat
  | [],      _     => none
  | w :: ws, point => if point < w.toNat then some 0 else (locate? ws (point - w.toNat)).map (· + 1)

/-- Pick an index with a probability proportional to its weight, or any index if
all weights are zero. -/
def pickRandom (ws : List UInt32) : Draw Nat := fun words =>
  if totalWeight ws = 0 then below ws.length words
  else
    match below (totalWeight ws) words with
    | .error e           => .error e
    | .ok (point, words) => .ok ((locate? ws point).getD (ws.length - 1), words)

/-! ## Rotation -/

/-- Where a rotation stands: an index, and how often it is still to be picked.
If it is not, the index is the one to look at next. -/
structure Rotation where
  position : Nat
  runsLeft : Nat
  deriving DecidableEq, Repr

namespace Rotation

/-- A rotation that has not picked anything. -/
def fresh : Rotation := ⟨0, 0⟩

/-- The first index with a weight, at or behind a position and round the end of
the list, and its weight. At most `passes` indices are looked at. -/
def seek? (ws : List UInt32) : (passes : Nat) → (position : Nat) → Option (Nat × Nat)
  | 0,          _        => none
  | passes + 1, position =>
    let i := position % ws.length
    match ws[i]? with
    | none   => none
    | some w => if w = 0 then seek? ws passes (i + 1) else some (i, w.toNat)

/-- Begin the next run, if none is under way. -/
def settle (ws : List UInt32) (r : Rotation) : Rotation :=
  if r.runsLeft = 0 then
    match seek? ws ws.length r.position with
    | some (i, w) => ⟨i, w⟩
    | none        => r
  else r

/-- Spend one pick of the run; behind the last one the next index has its turn. -/
def spend (r : Rotation) : Rotation :=
  if r.runsLeft ≤ 1 then ⟨r.position + 1, 0⟩ else ⟨r.position, r.runsLeft - 1⟩

/-- The next index and the rotation behind it. With no weights at all every index
is picked once in its turn. -/
def next (ws : List UInt32) (r : Rotation) : Except Fault (Nat × Rotation) :=
  if allZero ws then
    if ws.length = 0 then .error .remainderByZero
    else
      let i := r.position % ws.length
      .ok (i, ⟨i + 1, r.runsLeft⟩)
  else
    let r := r.settle ws
    .ok (r.position, r.spend)

end Rotation

/-! ## Pickers -/

/-- What a user picks its tasks with. -/
inductive Picker where
  | random
  | rotating (r : Rotation)
  deriving DecidableEq, Repr

namespace Picker

/-- A picker at the start of a user's life. -/
def ofKind : PickerKind → Picker
  | .random     => .random
  | .roundRobin => .rotating .fresh

/-- Pick the next index. -/
def next (ws : List UInt32) : Picker → Draw (Nat × Picker)
  | .random, words =>
    match pickRandom ws words with
    | .error e       => .error e
    | .ok (i, words) => .ok ((i, .random), words)
  | .rotating r, words =>
    match r.next ws with
    | .error e   => .error e
    | .ok (i, r) => .ok ((i, .rotating r), words)

/-- Pick a number of indices, one after the other. If a pick fails, the picker
and the words are those from before it. -/
def nextMany (ws : List UInt32) : Nat → Picker → List UInt32 →
    Except Fault (List Nat) × Picker × List UInt32
  | 0,     p, words => (.ok [], p, words)
  | n + 1, p, words =>
    match p.next ws words with
    | .error e            => (.error e, p, words)
    | .ok ((i, p), words) =>
      match nextMany ws n p words with
      | (.ok is, p, words)   => (.ok (i :: is), p, words)
      | (.error e, p, words) => (.error e, p, words)

end Picker
end OperatorKit.Load
