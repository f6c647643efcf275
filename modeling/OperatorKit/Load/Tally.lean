import OperatorKit.Sorted
import OperatorKit.Load.Request

/-!
# The tally of a load test

One row for each task that was recorded: how many requests and failures it had,
how long they took in all, the shortest and the longest, and how often each
status came back. Recording updates a row in this order. If one of the sums has
no result, recording stops there and leaves what was updated before.
-/

namespace OperatorKit.Load

open Http (Method)

/-- The first count that does not fit in its word. -/
abbrev countLimit : Nat := 2 ^ 64

/-- The sum of two counts. -/
def addCounts (m n : Nat) : Except Fault Nat :=
  if m + n < countLimit then .ok (m + n) else .error .countOverflow

/-- The sum of counts, from the first to the last. -/
def sumCounts (start : Nat) : List Nat → Except Fault Nat
  | []      => .ok start
  | n :: ns =>
    match addCounts start n with
    | .error e => .error e
    | .ok m    => sumCounts m ns

/-- What is known about the requests of one task. -/
structure Row where
  method : Method
  path : String
  requests : Nat
  failures : Nat
  total : Span
  shortest : Span
  longest : Span
  /-- How often each status came back, in ascending order of the statuses. -/
  codes : List (Nat × Nat)
  deriving DecidableEq, Repr

namespace Row

/-- A row without requests; the method and the path are those of the first one. -/
def fresh (r : Request) : Row :=
  ⟨r.method, r.path, 0, 0, .zero, .longest, .zero, []⟩

/-- Count a status. -/
def recordCode (row : Row) : Option Nat → Row × Option Fault
  | none      => (row, none)
  | some code =>
    match addCounts ((Sorted.find? code row.codes).getD 0) 1 with
    | .error e => (row, some e)
    | .ok n    => ({ row with codes := Sorted.insert code n row.codes }, none)

/-- Add up the time that a request took, then count its status. -/
def recordTime (row : Row) (o : Outcome) : Row × Option Fault :=
  match row.total.add o.elapsed with
  | .error e  => (row, some e)
  | .ok total =>
    recordCode { row with
      total
      shortest := row.shortest.min o.elapsed
      longest := row.longest.max o.elapsed } o.status

/-- Count a failure, if there was one, and go on. -/
def recordFailure (row : Row) (o : Outcome) : Row × Option Fault :=
  if o.succeeded then row.recordTime o
  else
    match addCounts row.failures 1 with
    | .error e => (row, some e)
    | .ok n    => recordTime { row with failures := n } o

/-- Record an outcome. With a fault, the row holds what was updated before it. -/
def record (row : Row) (o : Outcome) : Row × Option Fault :=
  match addCounts row.requests 1 with
  | .error e => (row, some e)
  | .ok n    => recordFailure { row with requests := n } o

/-- The average time of a request. The count that divides has 32 bits. -/
def average (row : Row) : Except Fault Span :=
  if row.requests = 0 then .ok .zero else row.total.divide (row.requests % 2 ^ 32)

end Row

/-- The rows of all tasks, in order of the tasks' names. -/
structure Tally where
  rows : List (String × Row)
  deriving DecidableEq, Repr

namespace Tally

/-- A tally without rows. -/
def empty : Tally := ⟨[]⟩

/-- The row of a task. -/
def row? (t : Tally) (task : String) : Option Row := Sorted.find? task t.rows

/-- Record the outcome of a request of a task. -/
def record (t : Tally) (task : String) (r : Request) (o : Outcome) : Tally × Option Fault :=
  let (row, fault) := ((t.row? task).getD (.fresh r)).record o
  (⟨Sorted.insert task row t.rows⟩, fault)

/-- The tally of given rows; of two rows of one task the last one counts. -/
def ofRows (rows : List (String × Row)) : Tally := ⟨Sorted.ofList rows⟩

/-- All requests. -/
def requests (t : Tally) : Except Fault Nat := sumCounts 0 (t.rows.map (·.2.requests))

/-- All failures. -/
def failures (t : Tally) : Except Fault Nat := sumCounts 0 (t.rows.map (·.2.failures))

end Tally

/-! ## Shared tallies -/

/-- Tallies and the handles to them. Several handles may share a tally. -/
structure Registry where
  tallies : List Tally
  handles : List Nat
  deriving Repr

namespace Registry

/-- One empty tally with one handle. -/
def initial : Registry := ⟨[.empty], [0]⟩

/-- The place of the tally behind a handle. -/
def place (r : Registry) (handle : Nat) : Nat := r.handles.getD handle 0

/-- The tally behind a handle, as it is now. -/
def report (r : Registry) (handle : Nat) : Tally := r.tallies.getD (r.place handle) .empty

/-- A new handle to the tally behind a handle. -/
def share (r : Registry) (handle : Nat) : Registry :=
  { r with handles := r.handles ++ [r.place handle] }

/-- A new handle to a new tally. -/
def create (r : Registry) : Registry :=
  ⟨r.tallies ++ [.empty], r.handles ++ [r.tallies.length]⟩

/-- Record an outcome through a handle. -/
def record (r : Registry) (handle : Nat) (task : String) (q : Request) (o : Outcome) :
    Registry × Option Fault :=
  let (t, fault) := (r.report handle).record task q o
  ({ r with tallies := r.tallies.set (r.place handle) t }, fault)

end Registry
end OperatorKit.Load
