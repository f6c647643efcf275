/-!
# Lists sorted by key

Pairs of a key and a value, in ascending order of the keys and each key once.
A look-up and an update read the list from the front.
-/

namespace OperatorKit.Sorted

variable {κ α : Type} [LT κ] [DecidableLT κ] [DecidableEq κ]

/-- The value of a key. -/
def find? (k : κ) : List (κ × α) → Option α
  | []             => none
  | (l, v) :: rest => if k = l then some v else find? k rest

/-- Replace the value of a key by what `f` makes of it; a new key goes to its place. -/
def update (k : κ) (f : Option α → α) : List (κ × α) → List (κ × α)
  | []             => [(k, f none)]
  | (l, v) :: rest =>
    if k < l then (k, f none) :: (l, v) :: rest
    else if k = l then (k, f (some v)) :: rest
    else (l, v) :: update k f rest

/-- Give a key a value. -/
def insert (k : κ) (v : α) (l : List (κ × α)) : List (κ × α) := update k (fun _ => v) l

/-- Insert pairs one after the other; of equal keys the last one counts. -/
def ofList (pairs : List (κ × α)) : List (κ × α) :=
  pairs.foldl (fun l (k, v) => insert k v l) []

omit [LT κ] [DecidableLT κ] in
@[simp] theorem find?_nil (k : κ) : find? k ([] : List (κ × α)) = none := rfl

end OperatorKit.Sorted
