import OperatorKit.Text.Quoted
import OperatorKit.Text.Split

/-!
# Grammars of command lines

What a program takes on its command line: options with a value, flags, and
commands with options of their own. An option that is absent has the value of
an environment variable, or else its default.
-/

namespace OperatorKit.Arguments

/-- An option. Its long name is the one in messages. -/
structure Opt where
  long : String
  short : Option Char := none
  /-- A flag takes no value. -/
  isFlag : Bool := false
  /-- The environment variable that stands in for the option. -/
  standIn : Option String := none
  /-- The value of an option that is absent. -/
  absent : Option String := none
  /-- The character that separates several values in one argument. -/
  separator : Option Char := none
  /-- Whether the option may occur more than once. -/
  repeatable : Bool := false
  /-- Why a value is refused, if it is. -/
  refusal? : String → Option String := fun _ => none

namespace Opt

/-- The name of an option's value in messages: the long name in capitals. -/
def valueName (o : Opt) : String :=
  String.ofList (o.long.toList.map fun c => if c == '-' then '_' else c.toUpper)

/-- What messages call an option. -/
def display (o : Opt) : String :=
  if o.isFlag then "--" ++ o.long else "--" ++ o.long ++ " <" ++ o.valueName ++ ">"

/-- The values in one argument. -/
def valuesOf (o : Opt) (s : String) : List String :=
  match o.separator with
  | none     => [s]
  | some sep => (Text.splitBy (· == sep) s.toList).map String.ofList

end Opt

/-- What a program or one of its commands takes. Help can always be asked for. -/
structure Level where
  options : List Opt
  /-- Whether the version can be asked for. -/
  hasVersion : Bool

/-- The command line of a program. If there are commands, one has to be given. -/
structure Grammar where
  top : Level
  commands : List (String × Level)

/-- The name of the command that explains another one. -/
def helpCommand : String := "help"

/-- The names of all commands. -/
def Grammar.commandNames (g : Grammar) : List String :=
  if g.commands.isEmpty then [] else g.commands.map (·.1) ++ [helpCommand]

/-- The level of a command. -/
def Grammar.command? (g : Grammar) (name : String) : Option Level :=
  (g.commands.find? (·.1 == name)).map (·.2)

/-- The environment variables that stand in for options. -/
def Grammar.standIns (g : Grammar) : List String :=
  (g.top.options ++ g.commands.flatMap (·.2.options)).filterMap (·.standIn)

/-! ## Problems -/

/-- Why a command line is not carried out. The first three are no mistakes. -/
inductive Problem where
  | help
  | version
  /-- No command is given where there has to be one. -/
  | missingCommand
  | unknownArgument (arg : String)
  | invalidValue (value option reason : String)
  | emptyValue (option : String)
  | repeated (option : String)
  /-- A flag with a value. -/
  | unwantedValue (value option : String)
  /-- An argument that looks like a command. -/
  | invalidCommand (name : String)
  /-- Help for a command that there is not. -/
  | unrecognizedCommand (name : String)
  deriving DecidableEq, Repr

/-- The first line of a text. -/
def firstLine (s : String) : String :=
  let line := s.toList.takeWhile (· != '\n')
  if line.length < s.length then
    String.ofList (if line.getLast? == some '\r' then line.dropLast else line)
  else s

/-- The wording of a problem, which is one line; nothing for what is no mistake. -/
def Problem.message : Problem → String
  | .help | .version | .missingCommand => ""
  | .unknownArgument a  =>
    firstLine ("error: Found argument '" ++ a ++
      "' which wasn't expected, or isn't valid in this context")
  | .invalidValue v o r =>
    firstLine ("error: Invalid value " ++ Text.quoted v ++ " for '" ++ o ++ "': " ++ r)
  | .emptyValue o       =>
    firstLine ("error: The argument '" ++ o ++ "' requires a value but none was supplied")
  | .repeated o         =>
    firstLine ("error: The argument '" ++ o ++
      "' was provided more than once, but cannot be used multiple times")
  | .unwantedValue v o  =>
    firstLine ("error: The value '" ++ v ++ "' was provided to '" ++ o ++
      "' but it wasn't expecting any more values")
  | .invalidCommand n | .unrecognizedCommand n =>
    firstLine ("error: The subcommand '" ++ n ++ "' wasn't recognized")

end OperatorKit.Arguments
