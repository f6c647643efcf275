/-!
# Log lines

What a program tells its operator while it works, in the order in which it
happens.
-/

namespace OperatorKit

/-- How important a log line is. -/
inductive Level where
  | error
  | warn
  | info
  | debug
  deriving DecidableEq, Repr

/-- The name of a level. -/
def Level.text : Level → String
  | .error => "ERROR"
  | .warn  => "WARN"
  | .info  => "INFO"
  | .debug => "DEBUG"

/-- A line of the log. -/
structure LogLine where
  level : Level
  message : String
  deriving DecidableEq, Repr

/-- A line with its level in front. -/
def LogLine.text (l : LogLine) : String := l.level.text ++ " " ++ l.message

end OperatorKit
