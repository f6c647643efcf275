/-!
# Problems of JSON texts

What a reader can find wrong with a text. The first problem in reading order
decides, so a text that is cut off behind a wrong value has the wrong value as
its problem.
-/

namespace OperatorKit.Json

/-- Why a text could not be read. -/
inductive Problem where
  /-- A character that no JSON text has at this place, or a number out of range. -/
  | malformed
  /-- The text ends too early. -/
  | unfinished
  /-- The text is JSON, and not the value that was expected. -/
  | unexpected (message : String)
  deriving DecidableEq, Repr

/-- The wording of a problem. -/
def Problem.message : Problem → String
  | .malformed    => "the text is not JSON"
  | .unfinished   => "the text ends too early"
  | .unexpected m => m

/-- A reader gives a value and the characters behind it. -/
abbrev Reader (α : Type) : Type := List Char → Except Problem (α × List Char)

/-- The blanks between the parts of a JSON text. -/
def isBlank (c : Char) : Bool := c == ' ' || c == '\n' || c == '\t' || c == '\r'

/-- Drop blanks. -/
def skipBlanks (cs : List Char) : List Char := cs.dropWhile isBlank

/-- Take `word` from the front of a text. -/
def readWord : List Char → List Char → Except Problem (List Char)
  | [],     cs      => .ok cs
  | _ :: _, []      => .error .unfinished
  | w :: ws, c :: cs => if w == c then readWord ws cs else .error .malformed

end OperatorKit.Json
