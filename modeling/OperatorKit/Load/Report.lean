import OperatorKit.Load.Tally

/-!
# Reports

A tally as a table for the operator: a line for each task with its counts and
its times in whole milliseconds, below it a line for each status that came
back, and the sums of all requests and failures at the end.
-/

namespace OperatorKit.Load

namespace Report

/-- Text filled up with blanks behind it. -/
def padRight (width : Nat) (s : String) : List Char :=
  s.toList ++ List.replicate (width - s.length) ' '

/-- Text filled up with blanks before it. -/
def padLeft (width : Nat) (s : String) : List Char :=
  List.replicate (width - s.length) ' ' ++ s.toList

/-- The columns of one line: task, method and path on the left, five numbers on
the right. -/
def columns (task method path requests failures average shortest longest : String) : String :=
  String.ofList <|
    padRight 18 task ++ ' ' :: padRight 6 method ++ ' ' :: padRight 24 path ++
    ' ' :: padLeft 8 requests ++ ' ' :: padLeft 8 failures ++ ' ' :: padLeft 9 average ++
    ' ' :: padLeft 9 shortest ++ ' ' :: padLeft 9 longest

/-- The line above the rows. -/
def heading : String :=
  columns "Task" "Method" "Path" "Reqs" "Fails" "Avg(ms)" "Min(ms)" "Max(ms)"

/-- The line of a status. -/
def codeLine : Nat × Nat → String
  | (code, count) => " - " ++ Decimal.text code ++ " = " ++ Decimal.text count

/-- The lines of a row; its average may have no value. -/
def rowLines (task : String) (row : Row) : Except Fault (List String) :=
  match row.average with
  | .error e    => .error e
  | .ok average =>
    .ok <| columns task row.method.text row.path (Decimal.text row.requests)
        (Decimal.text row.failures) (Decimal.text average.milliseconds)
        (Decimal.text row.shortest.milliseconds) (Decimal.text row.longest.milliseconds) ::
      row.codes.map codeLine

/-- The lines of all rows. -/
def tableLines : List (String × Row) → Except Fault (List String)
  | []                  => .ok []
  | (task, row) :: rows =>
    match rowLines task row with
    | .error e => .error e
    | .ok ls   =>
      match tableLines rows with
      | .error e => .error e
      | .ok more => .ok (ls ++ more)

/-- The line of the sums. -/
def totalLine (t : Tally) : Except Fault String :=
  match t.requests with
  | .error e     => .error e
  | .ok requests =>
    match t.failures with
    | .error e     => .error e
    | .ok failures =>
      .ok ("Total: " ++ Decimal.text requests ++ " requests, " ++ Decimal.text failures ++
        " failures")

/-- The lines of a report. -/
def lines (finishedAt : String) (t : Tally) : Except Fault (List String) :=
  match tableLines t.rows with
  | .error e  => .error e
  | .ok table =>
    match totalLine t with
    | .error e  => .error e
    | .ok total =>
      .ok <| "==================== STATS ====================" ::
        ("Finished at " ++ finishedAt) :: heading :: table ++ [total]

end Report

/-- The text of a report, each line with its end. -/
def Tally.report (t : Tally) (finishedAt : String) : Except Fault String :=
  match Report.lines finishedAt t with
  | .error e => .error e
  | .ok ls   => .ok (ls.foldr (fun l rest => l ++ "\n" ++ rest) "")

end OperatorKit.Load
