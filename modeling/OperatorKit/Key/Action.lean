import OperatorKit.Disk.Tree
import OperatorKit.Key.Problem
import OperatorKit.Log

/-!
# Actions

What an issue of keys does, step by step: calls on the disk, the making of a
key, and words to the operator. An action is a tree of calls, each with all
answers that it can get. It can be carried out on a file tree at once, or one
call at a time while other actions work on the same tree. A call for a new file
makes the file and then writes its text. An action does not get to know which of
both was refused.
-/

namespace OperatorKit.Key

open Disk

/-- A row of calls that ends with a result. -/
inductive Action (α : Type) where
  | done (a : α)
  | makeDir (path : String) (next : Except Refusal Unit → Action α)
  | isDir (path : String) (next : Bool → Action α)
  | createFile (path : String) (mode : Nat) (text : String) (next : Except Refusal Unit → Action α)
  | fileText (path : String) (next : Except Refusal String → Action α)
  | makeKey (bits : Nat) (next : Except RsaProblem RsaKey → Action α)
  | log (line : LogLine) (next : Action α)
  | print (text : String) (next : Action α)

namespace Action

/-- Go on with the result of an action. -/
def bind {α β : Type} (a : Action α) (f : α → Action β) : Action β :=
  match a with
  | .done x                      => f x
  | .makeDir path next           => .makeDir path fun r => (next r).bind f
  | .isDir path next             => .isDir path fun b => (next b).bind f
  | .createFile path m text next => .createFile path m text fun r => (next r).bind f
  | .fileText path next          => .fileText path fun r => (next r).bind f
  | .makeKey bits next           => .makeKey bits fun k => (next k).bind f
  | .log line next               => .log line (next.bind f)
  | .print text next             => .print text (next.bind f)

instance : Monad Action where
  pure := .done
  bind := Action.bind

/-! ## Carrying out -/

/-- The answer of the tree to a call that changes it, and the tree behind it. -/
def applyTo (t : Tree) : Except Refusal Tree → Except Refusal Unit × Tree
  | .ok u    => (.ok (), u)
  | .error e => (.error e, t)

/-- What a carried out action leaves: its result, the tree, and what the operator
was told. -/
structure Result (α : Type) where
  value : α
  tree : Tree
  log : List LogLine
  printed : String

/-- Carry out an action on a tree; `keys` makes a key of each size. -/
def run {α : Type} (keys : Nat → Except RsaProblem RsaKey) : Action α → Tree → Result α
  | .done a, t => ⟨a, t, [], ""⟩
  | .makeDir path next, t =>
    let (r, t) := applyTo t (t.makeDir path)
    (next r).run keys t
  | .isDir path next, t => (next (t.isDir path)).run keys t
  | .createFile path mode text next, t =>
    let (r, t) := applyTo t (t.createFile path mode (Text.bytes text))
    (next r).run keys t
  | .fileText path next, t => (next (t.fileText path)).run keys t
  | .makeKey bits next, t => (next (keys bits)).run keys t
  | .log line next, t =>
    let r := next.run keys t
    { r with log := line :: r.log }
  | .print text next, t =>
    let r := next.run keys t
    { r with printed := text ++ r.printed }

/-- Carry out the first call of an action. An action that is done stays so. -/
def step {α : Type} (keys : Nat → Except RsaProblem RsaKey) : Action α → Tree → Action α × Tree
  | .done a, t => (.done a, t)
  | .makeDir path next, t =>
    let (r, t) := applyTo t (t.makeDir path)
    (next r, t)
  | .isDir path next, t => (next (t.isDir path), t)
  | .createFile path mode text next, t =>
    let (r, t) := applyTo t (t.createFile path mode (Text.bytes text))
    (next r, t)
  | .fileText path next, t => (next (t.fileText path), t)
  | .makeKey bits next, t => (next (keys bits), t)
  | .log _ next, t => (next, t)
  | .print _ next, t => (next, t)

/-- The result of an action that is done. -/
def result? {α : Type} : Action α → Option α
  | .done a => some a
  | _       => none

end Action
end OperatorKit.Key
