import OperatorKit.Arguments.Grammar

/-!
# Help

An overview of what a program takes on its command line.
-/

namespace OperatorKit.Arguments

/-- How an option is given. -/
def Opt.usage (o : Opt) : String :=
  let short := match o.short with
    | some c => "-" ++ String.ofList [c] ++ ", "
    | none   => "    "
  let standIn := match o.standIn with
    | some v => " [env: " ++ v ++ "=]"
    | none   => ""
  let absent := match o.absent with
    | some v => " [default: " ++ v ++ "]"
    | none   => ""
  "    " ++ short ++ o.display ++ standIn ++ absent

/-- The lines about the options of a level. -/
def Level.usage (l : Level) : List String :=
  let version := if l.hasVersion then ["    -V, --version"] else []
  "    -h, --help" :: version ++ l.options.map Opt.usage

/-- The lines about a command. -/
def commandUsage : String × Level → List String
  | (name, l) => ["", "OPTIONS OF " ++ name ++ ":"] ++ l.usage

/-- An overview for the program `name`, under a title. -/
def Grammar.help (g : Grammar) (title name : String) : String :=
  let command := if g.commands.isEmpty then "" else " <SUBCOMMAND>"
  let names := if g.commands.isEmpty then [] else
    ["", "SUBCOMMANDS:"] ++ g.commandNames.map ("    " ++ ·)
  let lines :=
    [title, "", "USAGE:", "    " ++ name ++ " [OPTIONS]" ++ command, "", "OPTIONS:"] ++
      g.top.usage ++ names ++ g.commands.flatMap commandUsage
  lines.foldr (fun l rest => l ++ "\n" ++ rest) ""

end OperatorKit.Arguments
