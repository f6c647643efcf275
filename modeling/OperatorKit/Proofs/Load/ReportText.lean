import Mathlib.Data.List.Forall2
import OperatorKit.Load.Report
import OperatorKit.Proofs.Decimal.Natural
import OperatorKit.Proofs.Load.Average
import OperatorKit.Proofs.Text.ByteOrder
import OperatorKit.Proofs.Text.Words
import OperatorKit.Text.Blank

/-!
# Reading reports

A report is read back from its text: its lines are taken apart into words at runs of spaces, a
line of eight words is a row, one of four words is a status of the row above it, and the last line
has the sums. Nothing is lost, however wide the columns become.
-/

namespace OperatorKit.Load

namespace Report

open Http (Method)
open Text (bytes isBlank words)

/-! ## Reading -/

/-- A row of a report as an operator reads it, with times in milliseconds. -/
structure Entry where
  task : String
  method : Method
  path : String
  requests : Nat
  failures : Nat
  average : Nat
  shortest : Nat
  longest : Nat
  codes : List (Nat × Nat)
  deriving DecidableEq, Repr

/-- A report as an operator reads it. -/
structure Reading where
  entries : List Entry
  requests : Nat
  failures : Nat
  deriving DecidableEq, Repr

/-- The number that a word stands for. -/
def number? (w : List Char) : Option Nat :=
  if !w.isEmpty && w.all Char.isDigit then some (Decimal.value w) else none

/-- The method that a word stands for. -/
def method? (w : List Char) : Option Method :=
  if w = "GET".toList then some .get else if w = "POST".toList then some .post else none

/-- The status and the count of a line. -/
def code? : List (List Char) → Option (Nat × Nat)
  | [dash, code, sign, count] =>
    if dash = ['-'] ∧ sign = ['='] then do some (← number? code, ← number? count) else none
  | _ => none

/-- The row of a line, with the statuses of the lines below it. -/
def rowOf? (codes : List (Nat × Nat)) : List (List Char) → Option Entry
  | [task, method, path, requests, failures, average, shortest, longest] => do
    some ⟨String.ofList task, ← method? method, String.ofList path, ← number? requests,
      ← number? failures, ← number? average, ← number? shortest, ← number? longest, codes⟩
  | _ => none

/-- The rows of the lines of a table, behind statuses that stand above all rows. -/
def table? : List (List (List Char)) → Option (List (Nat × Nat) × List Entry)
  | []         => some ([], [])
  | ws :: more =>
    match table? more with
    | none                  => none
    | some (codes, entries) =>
      match code? ws with
      | some code => some (code :: codes, entries)
      | none      => (rowOf? codes ws).map fun entry => ([], entry :: entries)

/-- The numbers of the last line. -/
def totals? : List (List Char) → Option (Nat × Nat)
  | [total, requests, comma, failures, last] =>
    if total = "Total:".toList ∧ comma = "requests,".toList ∧ last = "failures".toList then do
      some (← number? requests, ← number? failures)
    else none
  | _ => none

/-- What is read in a text: a title, a time and a heading, then the table and the sums. -/
def read? (text : String) : Option Reading :=
  match (Text.lines text.toList).map words with
  | _ :: _ :: _ :: table =>
    match table.getLast?.bind totals?, table? table.dropLast with
    | some (requests, failures), some ([], entries) => some ⟨entries, requests, failures⟩
    | _,                         _                  => none
  | _ => none

/-! ## What is read of a report -/

/-- A text that is there and has no white space in it. -/
def Solid (s : String) : Prop := s ≠ "" ∧ ∀ c ∈ s.toList, isBlank c = false

instance (s : String) : Decidable (Solid s) :=
  @instDecidableAnd _ _ _ (List.decidableBAll _ s.toList)

/-- A row as it is read shows all that is in the row of a task but the sum of its times. -/
structure Shows (row : String × Row) (e : Entry) : Prop where
  task : e.task = row.1
  method : e.method = row.2.method
  path : e.path = row.2.path
  requests : e.requests = row.2.requests
  failures : e.failures = row.2.failures
  average : ∃ a, row.2.average = .ok a ∧ e.average = a.milliseconds
  shortest : e.shortest = row.2.shortest.milliseconds
  longest : e.longest = row.2.longest.milliseconds
  codes : e.codes = row.2.codes

variable {s : String} {cs : List Char} {n : Nat}

/-! ## Words -/

/-- A text is a single word. -/
def IsWord (cs : List Char) : Prop := cs ≠ [] ∧ ∀ c ∈ cs, c ≠ ' ' ∧ c ≠ '\n'

theorem Solid.isWord (h : Solid s) : IsWord s.toList := by
  refine ⟨fun hnil => h.1 (String.toList_eq_nil_iff.mp hnil), fun c hc => ⟨?_, ?_⟩⟩
  · rintro rfl
    cases h.2 _ hc
  · rintro rfl
    cases h.2 _ hc

theorem isWord_digits (n : Nat) : IsWord (Decimal.digits n) := by
  obtain ⟨c, cs, hdigits, -⟩ := Decimal.digits_eq_cons n
  refine ⟨by simp [hdigits], fun c hc => ?_⟩
  have hdigit := Decimal.isDigit_of_mem_digits hc
  constructor
  · rintro rfl
    cases hdigit
  · rintro rfl
    cases hdigit

theorem isWord_method (m : Method) : IsWord m.text.toList := by
  cases m <;> exact ⟨by decide, by simp [Method.text]⟩

theorem number?_digits (n : Nat) : number? (Decimal.digits n) = some n := by
  have hdigits : (!(Decimal.digits n).isEmpty && (Decimal.digits n).all Char.isDigit) = true := by
    rw [Bool.and_eq_true, List.all_eq_true, Bool.not_eq_true', List.isEmpty_eq_false_iff]
    exact ⟨(isWord_digits n).1, fun c => Decimal.isDigit_of_mem_digits⟩
  rw [number?, if_pos hdigits, Decimal.value_digits]

theorem method?_text (m : Method) : method? m.text.toList = some m := by
  cases m <;> decide

/-! ## Lines -/

/-- A text is a single line with the words `ws`. -/
structure Line (cs : List Char) (ws : List (List Char)) : Prop where
  words_eq : words cs = ws
  unbroken : ∀ c ∈ cs, c ≠ '\n'

theorem IsWord.line (h : IsWord cs) : Line cs [cs] :=
  ⟨Text.words_of_forall h.1 fun c hc => (h.2 c hc).1, fun c hc => (h.2 c hc).2⟩

theorem Line.append {ds : List Char} {ws ws' : List (List Char)} (h : Line cs ws)
    (h' : Line ds ws') : Line (cs ++ ' ' :: ds) (ws ++ ws') := by
  refine ⟨by rw [Text.words_append_space, h.words_eq, h'.words_eq], ?_⟩
  exact List.forall_mem_append.mpr ⟨h.unbroken, List.forall_mem_cons.mpr ⟨by decide, h'.unbroken⟩⟩

theorem line_spaces (n : Nat) : Line (List.replicate n ' ') [] := by
  refine ⟨Text.words_replicate n, fun c hc => ?_⟩
  rw [List.eq_of_mem_replicate hc]
  decide

theorem line_padRight (width : Nat) (h : IsWord s.toList) : Line (padRight width s) [s.toList] := by
  refine ⟨by rw [padRight, Text.words_append_replicate, h.line.words_eq], ?_⟩
  exact List.forall_mem_append.mpr ⟨h.line.unbroken, (line_spaces _).unbroken⟩

theorem line_padLeft (width : Nat) (h : IsWord s.toList) : Line (padLeft width s) [s.toList] := by
  refine ⟨by rw [padLeft, Text.words_replicate_append, h.line.words_eq], ?_⟩
  exact List.forall_mem_append.mpr ⟨(line_spaces _).unbroken, h.line.unbroken⟩

/-- No column runs into the next one, as a space stands between them whatever their widths. -/
theorem line_columns {a b c d e f g h : String} (ha : IsWord a.toList) (hb : IsWord b.toList)
    (hc : IsWord c.toList) (hd : IsWord d.toList) (he : IsWord e.toList) (hf : IsWord f.toList)
    (hg : IsWord g.toList) (hh : IsWord h.toList) :
    Line (columns a b c d e f g h).toList
      [a.toList, b.toList, c.toList, d.toList, e.toList, f.toList, g.toList, h.toList] := by
  have hleft := ((line_padRight 18 ha).append (line_padRight 6 hb)).append
    (line_padRight 24 hc)
  have hcounts := (hleft.append (line_padLeft 8 hd)).append
    (line_padLeft 8 he)
  have htimes := ((hcounts.append (line_padLeft 9 hf)).append
    (line_padLeft 9 hg)).append (line_padLeft 9 hh)
  rw [columns, String.toList_ofList]
  exact htimes

theorem line_heading : ∃ ws, Line heading.toList ws := by
  refine ⟨_, line_columns ?_ ?_ ?_ ?_ ?_ ?_ ?_ ?_⟩ <;> exact ⟨by decide, by simp⟩

theorem line_codeLine (code count : Nat) :
    Line (codeLine (code, count)).toList
      [['-'], Decimal.digits code, ['='], Decimal.digits count] := by
  have htext : (codeLine (code, count)).toList =
      [] ++ ' ' :: (['-'] ++ ' ' :: (Decimal.digits code ++
        ' ' :: (['='] ++ ' ' :: Decimal.digits count))) := by
    simp [codeLine, Decimal.text]
  have hdash : IsWord ['-'] := ⟨by decide, by simp⟩
  have hsign : IsWord ['='] := ⟨by decide, by simp⟩
  rw [htext]
  exact (line_spaces 0).append (hdash.line.append ((isWord_digits code).line.append
    (hsign.line.append (isWord_digits count).line)))

/-- The line of the sums. -/
def totalText (requests failures : Nat) : String :=
  "Total: " ++ Decimal.text requests ++ " requests, " ++ Decimal.text failures ++ " failures"

theorem line_totalText (requests failures : Nat) :
    Line (totalText requests failures).toList
      ["Total:".toList, Decimal.digits requests, "requests,".toList, Decimal.digits failures,
        "failures".toList] := by
  have htext : (totalText requests failures).toList =
      "Total:".toList ++ ' ' :: (Decimal.digits requests ++ ' ' :: ("requests,".toList ++
        ' ' :: (Decimal.digits failures ++ ' ' :: "failures".toList))) := by
    simp [totalText, Decimal.text]
  have htotal : IsWord "Total:".toList := ⟨by decide, by simp⟩
  have hcomma : IsWord "requests,".toList := ⟨by decide, by simp⟩
  have hlast : IsWord "failures".toList := ⟨by decide, by simp⟩
  rw [htext]
  exact htotal.line.append ((isWord_digits requests).line.append (hcomma.line.append
    ((isWord_digits failures).line.append hlast.line)))

/-! ## Tables -/

/-- A row whose names have no white space and whose times have an average. -/
structure Printable (row : String × Row) : Prop where
  task : Solid row.1
  path : Solid row.2.path
  average : ∃ a, row.2.average = .ok a

variable {task : String} {row : Row} {average : Span} {rows : List (String × Row)}
  {wss : List (List (List Char))} {entries : List Entry}

/-- A line of each status goes to the row above them. -/
theorem table?_codeLines (codes : List (Nat × Nat)) (h : table? wss = some ([], entries)) :
    table? ((codes.map fun x => words (codeLine x).toList) ++ wss) = some (codes, entries) := by
  -- A table is read from its end, so the first status is the last one that is put in front.
  induction codes with
  | nil => exact h
  | cons x codes ih =>
    obtain ⟨code, count⟩ := x
    have hcode : code? [['-'], Decimal.digits code, ['='], Decimal.digits count] =
        some (code, count) := by
      simp [code?, number?_digits]
    rw [List.map_cons, List.cons_append, table?, ih, (line_codeLine code count).words_eq, hcode]

/-- The line of a row whose average is known. -/
def rowText (task : String) (row : Row) (average : Span) : String :=
  columns task row.method.text row.path (Decimal.text row.requests) (Decimal.text row.failures)
    (Decimal.text average.milliseconds) (Decimal.text row.shortest.milliseconds)
    (Decimal.text row.longest.milliseconds)

theorem rowLines_eq_ok (task : String) (haverage : row.average = .ok average) :
    rowLines task row = .ok (rowText task row average :: row.codes.map codeLine) := by
  rw [rowLines, haverage]
  rfl

theorem line_rowText (htask : Solid task) (hpath : Solid row.path) (average : Span) :
    Line (rowText task row average).toList
      [task.toList, row.method.text.toList, row.path.toList, Decimal.digits row.requests,
        Decimal.digits row.failures, Decimal.digits average.milliseconds,
        Decimal.digits row.shortest.milliseconds, Decimal.digits row.longest.milliseconds] := by
  have htext (n : Nat) : (Decimal.text n).toList = Decimal.digits n := String.toList_ofList
  have hnumber (n : Nat) : IsWord (Decimal.text n).toList := htext n ▸ isWord_digits n
  have hline := line_columns htask.isWord (isWord_method row.method) hpath.isWord
    (hnumber row.requests) (hnumber row.failures) (hnumber average.milliseconds)
    (hnumber row.shortest.milliseconds) (hnumber row.longest.milliseconds)
  simp only [htext] at hline
  exact hline

/-- What is read of a row. -/
def Entry.ofRow (task : String) (row : Row) (average : Span) : Entry :=
  ⟨task, row.method, row.path, row.requests, row.failures, average.milliseconds,
    row.shortest.milliseconds, row.longest.milliseconds, row.codes⟩

/-- A row is read from its lines, in front of the rows below. -/
theorem table?_rowLines (htask : Solid task) (hpath : Solid row.path) (average : Span)
    (h : table? wss = some ([], entries)) :
    table? ((rowText task row average :: row.codes.map codeLine).map (fun l => words l.toList) ++
      wss) = some ([], Entry.ofRow task row average :: entries) := by
  have hcodes := table?_codeLines row.codes h
  have hentry : ∀ codes, rowOf? codes [task.toList, row.method.text.toList, row.path.toList,
      Decimal.digits row.requests, Decimal.digits row.failures,
      Decimal.digits average.milliseconds, Decimal.digits row.shortest.milliseconds,
      Decimal.digits row.longest.milliseconds] =
      some { Entry.ofRow task row average with codes := codes } := by
    intro codes
    simp [rowOf?, method?_text, number?_digits, Entry.ofRow]
  rw [List.map_cons, List.map_map, List.cons_append, table?]
  simp only [Function.comp_def, hcodes, (line_rowText htask hpath average).words_eq]
  rw [hentry]
  rfl

/-- Every table without white space in its names is read back. -/
theorem exists_table (h : ∀ row ∈ rows, Printable row) :
    ∃ ls entries, tableLines rows = .ok ls ∧ (∀ l ∈ ls, ∀ c ∈ l.toList, c ≠ '\n') ∧
      table? (ls.map fun l => words l.toList) = some ([], entries) ∧
      List.Forall₂ Shows rows entries := by
  induction rows with
  | nil => exact ⟨[], [], rfl, List.forall_mem_nil _, rfl, .nil⟩
  | cons row rows ih =>
    obtain ⟨⟨htask, hpath, average, haverage⟩, hrows⟩ := List.forall_mem_cons.mp h
    obtain ⟨ls, entries, hlines, hunbroken, htable, hshows⟩ := ih hrows
    obtain ⟨task, row⟩ := row
    refine ⟨(rowText task row average :: row.codes.map codeLine) ++ ls,
      Entry.ofRow task row average :: entries, ?_, ?_, ?_, .cons ?_ hshows⟩
    · rw [tableLines, rowLines_eq_ok task haverage, hlines]
    · simp only [List.cons_append, List.forall_mem_cons, List.forall_mem_append,
        List.forall_mem_map]
      exact ⟨(line_rowText htask hpath average).unbroken,
        fun x _ => (line_codeLine x.1 x.2).unbroken, hunbroken⟩
    · rw [List.map_append]
      exact table?_rowLines htask hpath average htable
    · exact ⟨rfl, rfl, rfl, rfl, rfl, ⟨average, haverage, rfl⟩, rfl, rfl, rfl⟩

/-! ## Rows and what is read of them -/

theorem map_eq_of_shows {β : Type} {f : Entry → β} {g : String × Row → β}
    (h : List.Forall₂ Shows rows entries) (hfg : ∀ row e, Shows row e → g row = f e) :
    rows.map g = entries.map f := by
  have hmap : List.Forall₂ (· = ·) (rows.map g) (entries.map f) :=
    List.forall₂_map_left_iff.mpr (List.forall₂_map_right_iff.mpr (h.imp hfg))
  rwa [List.forall₂_eq_eq_eq] at hmap

/-- The order of the rows is the order of the bytes of their names. -/
theorem pairwise_bytes (h : List.Forall₂ Shows rows entries) (hrows : Sorted.Ascending rows) :
    entries.Pairwise fun a b => bytes a.task < bytes b.task := by
  have htasks : rows.map (·.1) = entries.map (·.task) :=
    map_eq_of_shows h fun _ _ hrow => hrow.task.symm
  have hnames : (rows.map (·.1)).Pairwise (· < ·) := List.pairwise_map.mpr hrows
  rw [htasks, List.pairwise_map] at hnames
  exact hnames.imp Text.bytes_lt

theorem sum_of_sumCounts {ns : List Nat} (h : sumCounts 0 ns = .ok n) : n = ns.sum := by
  rw [sumCounts_eq 0 ns (Nat.two_pow_pos 64)] at h
  split at h
  · cases h
    exact Nat.zero_add _
  · cases h

/-! ## Whole reports -/

theorem toList_foldr_lines (ls : List String) :
    (ls.foldr (fun l rest => l ++ "\n" ++ rest) "").toList =
      (ls.map String.toList).flatMap (· ++ ['\n']) := by
  induction ls with
  | nil => rfl
  | cons l ls ih => simp [ih]

/-- The lines of a text are those that were joined, if each of them is one. -/
theorem lines_foldr {ls : List String} (h : ∀ l ∈ ls, ∀ c ∈ l.toList, c ≠ '\n') :
    Text.lines (ls.foldr (fun l rest => l ++ "\n" ++ rest) "").toList = ls.map String.toList := by
  rw [toList_foldr_lines]
  exact Text.lines_flatMap (List.forall_mem_map.mpr h)

theorem totals?_totalText (requests failures : Nat) :
    totals? (words (totalText requests failures).toList) = some (requests, failures) := by
  rw [(line_totalText requests failures).words_eq]
  simp [totals?, number?_digits]

/-- A text with three lines in front of a table, and with the sums behind it, is read. -/
theorem read?_foldr {title stamp head : String} {ls : List String} {requests failures : Nat}
    (hhead : ∀ l ∈ [title, stamp, head], ∀ c ∈ l.toList, c ≠ '\n')
    (hunbroken : ∀ l ∈ ls, ∀ c ∈ l.toList, c ≠ '\n')
    (htable : table? (ls.map fun l => words l.toList) = some ([], entries)) :
    read? ((title :: stamp :: head :: ls ++ [totalText requests failures]).foldr
        (fun l rest => l ++ "\n" ++ rest) "") = some ⟨entries, requests, failures⟩ := by
  have hlines : ∀ l ∈ [title, stamp, head] ++ ls ++ [totalText requests failures],
      ∀ c ∈ l.toList, c ≠ '\n' := by
    refine List.forall_mem_append.mpr ⟨List.forall_mem_append.mpr ⟨hhead, hunbroken⟩, ?_⟩
    exact List.forall_mem_singleton.mpr (line_totalText requests failures).unbroken
  have hread := lines_foldr hlines
  simp only [List.cons_append, List.nil_append] at hread
  simp only [read?, List.cons_append, hread]
  simp [Function.comp_def, htable, totals?_totalText]

/-- A report is read back from its text: each row once, in the order of the bytes of the tasks'
names, with the statuses in ascending order, and the sums of all rows at the end. -/
theorem report_read_back (t : Tally) (finishedAt : String) (hrows : Sorted.Ascending t.rows)
    (hcodes : ∀ row ∈ t.rows, Sorted.Ascending row.2.codes)
    (hprintable : ∀ row ∈ t.rows, Printable row) (hrequests : ∃ n, t.requests = .ok n)
    (hfailures : ∃ n, t.failures = .ok n) (htime : '\n' ∉ finishedAt.toList) :
    ∃ text reading, t.report finishedAt = .ok text ∧ read? text = some reading ∧
      List.Forall₂ Shows t.rows reading.entries ∧
      (reading.entries.Pairwise fun a b => bytes a.task < bytes b.task) ∧
      (∀ e ∈ reading.entries, e.codes.Pairwise fun a b => a.1 < b.1) ∧
      reading.requests = (reading.entries.map (·.requests)).sum ∧
      reading.failures = (reading.entries.map (·.failures)).sum := by
  obtain ⟨requests, hrequests⟩ := hrequests
  obtain ⟨failures, hfailures⟩ := hfailures
  obtain ⟨ls, entries, hlines, hunbroken, htable, hshows⟩ := exists_table hprintable
  have htotal : totalLine t = .ok (totalText requests failures) := by
    simp only [totalLine, hrequests, hfailures]
    rfl
  have hhead : ∀ l ∈ ["==================== STATS ====================",
      "Finished at " ++ finishedAt, heading], ∀ c ∈ l.toList, c ≠ '\n' := by
    obtain ⟨ws, hheading⟩ := line_heading
    simp only [List.forall_mem_cons]
    refine ⟨by simp, ?_, hheading.unbroken, List.forall_mem_nil _⟩
    rw [String.toList_append]
    refine List.forall_mem_append.mpr ⟨by simp, fun c hc => ?_⟩
    rintro rfl
    exact htime hc
  refine ⟨_, ⟨entries, requests, failures⟩, ?_, read?_foldr hhead hunbroken htable, hshows,
    pairwise_bytes hshows hrows, ?_, ?_, ?_⟩
  · simp only [Tally.report, lines, hlines, htotal]
  · have hsame : t.rows.map (·.2.codes) = entries.map (·.codes) :=
      map_eq_of_shows hshows fun _ _ hrow => hrow.codes.symm
    intro e he
    obtain ⟨row, hrow, heq⟩ := List.mem_map.mp (hsame ▸ List.mem_map_of_mem he)
    exact heq ▸ hcodes row hrow
  · rw [sum_of_sumCounts hrequests]
    exact congrArg List.sum (map_eq_of_shows hshows fun _ _ hrow => hrow.requests.symm)
  · rw [sum_of_sumCounts hfailures]
    exact congrArg List.sum (map_eq_of_shows hshows fun _ _ hrow => hrow.failures.symm)

/-- A tally whose first row is wider than the columns. -/
def wideTally : Tally where
  rows := [
    ("get_time_of_the_server", ⟨.get, "/webhook/a-path-of-many-characters", 12345678901, 2,
      ⟨12345678901000000, by decide⟩, .zero, .longest, [(200, 12345678899), (503, 2)]⟩),
    ("zählung", ⟨.post, "/webhook/BBBB", 1, 0, ⟨7000000, by decide⟩, ⟨7000000, by decide⟩,
      ⟨7000000, by decide⟩, []⟩)]

theorem report_read_back_of_wide_columns :
    ∃ text reading, wideTally.report "noon" = .ok text ∧ read? text = some reading ∧
      reading.entries.map (·.path) = ["/webhook/a-path-of-many-characters", "/webhook/BBBB"] ∧
      reading.entries.map (·.codes) = [[(200, 12345678899), (503, 2)], []] ∧
      reading.requests = 12345678902 := by
  have hrows : Sorted.Ascending wideTally.rows := by
    have hnames : ["get_time_of_the_server", "zählung"].Pairwise (· < ·) := by decide
    exact List.pairwise_map.mp hnames
  have hcodes : ∀ row ∈ wideTally.rows, Sorted.Ascending row.2.codes := by
    simp [wideTally, Sorted.Ascending]
  have hprintable : ∀ row ∈ wideTally.rows, Printable row := by
    simp only [wideTally, List.forall_mem_cons]
    exact ⟨⟨by decide +kernel, by decide +kernel, _, rfl⟩,
      ⟨by decide +kernel, by decide +kernel, _, rfl⟩, List.forall_mem_nil _⟩
  obtain ⟨text, reading, htext, hread, hshows, -, -, hrequests, -⟩ :=
    report_read_back wideTally "noon" hrows hcodes hprintable ⟨12345678902, by decide⟩
      ⟨2, by decide⟩ (by decide)
  refine ⟨text, reading, htext, hread, ?_, ?_, ?_⟩
  · exact (map_eq_of_shows hshows fun _ _ hrow => hrow.path.symm).symm
  · exact (map_eq_of_shows hshows fun _ _ hrow => hrow.codes.symm).symm
  · rw [hrequests, ← map_eq_of_shows hshows fun _ _ hrow => hrow.requests.symm]
    rfl

end Report
end OperatorKit.Load
