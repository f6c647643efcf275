import OperatorKit.Arguments.Grammar
import OperatorKit.Text.Likeness

/-!
# Reading command lines

A command line is read from left to right. An option's value is attached to it
or is the next argument, unless that looks like an option. Behind `--` nothing
is an option or a command. The problems of spelling come first; what is wrong
with values, or with how often an option occurs, is looked for when the whole
line is read, and within a command before its program.
-/

namespace OperatorKit.Arguments

/-- An option that occurred, with its values. -/
structure Found where
  option : Opt
  values : List String
  times : Nat

/-- What was read so far: the options in the order in which they first occurred,
the one that waits for its value, and whether `--` was passed. -/
structure State where
  found : List Found
  waiting : Option Opt
  passed : Bool

namespace State

/-- Nothing was read. -/
def initial : State := ⟨[], none, false⟩

/-- Add values to those of an option. -/
def addValues (o : Opt) (times : Nat) (vs : List String) : List Found → List Found
  | []      => [⟨o, vs, times⟩]
  | f :: fs =>
    if f.option.long == o.long then
      { f with values := f.values ++ vs, times := f.times + times } :: fs
    else f :: addValues o times vs fs

/-- An option occurred with the values of one argument. -/
def occur (st : State) (o : Opt) (vs : List String) : State :=
  { st with found := addValues o 1 vs st.found, waiting := none }

/-- An option occurred and waits for its value. -/
def await (st : State) (o : Opt) : State :=
  { st with found := addValues o 1 [] st.found, waiting := some o }

/-- The option that waits gets its value. -/
def supply (st : State) (o : Opt) (s : String) : State :=
  { st with found := addValues o 0 (o.valuesOf s) st.found, waiting := none }

end State

/-! ## Single arguments -/

/-- The option with a long name. -/
def Level.long? (l : Level) (name : String) : Option Opt := l.options.find? (·.long == name)

/-- The option with a short name. -/
def Level.short? (l : Level) (c : Char) : Option Opt := l.options.find? (·.short == some c)

/-- The flags that every level has, or that ask for the version. -/
def Level.builtIn? (l : Level) (name : String) : Option Problem :=
  if name == "help" then some .help
  else if name == "version" && l.hasVersion then some .version
  else none

/-- Read a long option: a name and possibly, behind an equals sign, a value. -/
def readLong (l : Level) (st : State) (body : List Char) : Except Problem State :=
  let name := String.ofList (body.takeWhile (· != '='))
  let value := match body.dropWhile (· != '=') with
    | []      => none
    | _ :: cs => some (String.ofList cs)
  match l.long? name, l.builtIn? name, value with
  | some o, _,      some v =>
    if o.isFlag then .error (.unwantedValue v o.display) else .ok (st.occur o (o.valuesOf v))
  | some o, _,      none   => .ok (if o.isFlag then st.occur o [] else st.await o)
  | none,   some _, some v => .error (.unwantedValue v ("--" ++ name))
  | none,   some p, none   => .error p
  | none,   none,   _      => .error (.unknownArgument ("--" ++ name))

/-- Read a row of short options. The first one that takes a value has the rest of
the row as its value, or waits if there is no rest. -/
def readShorts (l : Level) (st : State) : List Char → Except Problem State
  | []      => .ok st
  | c :: cs =>
    match l.short? c with
    | some o =>
      if o.isFlag then readShorts l (st.occur o []) cs
      else
        match cs with
        | []        => .ok (st.await o)
        | '=' :: vs => .ok (st.occur o (o.valuesOf (String.ofList vs)))
        | vs        => .ok (st.occur o (o.valuesOf (String.ofList vs)))
    | none =>
      if c == 'h' then .error .help
      else if c == 'V' && l.hasVersion then .error .version
      else .error (.unknownArgument (String.ofList ['-', c]))

/-- How alike an argument and a command have to be for the one to look like the other. -/
def likenessLimit : Float := 0.8

/-- The complaint about an argument that is neither an option nor a command. -/
def misplaced (commands : List String) (st : State) (arg : String) : Problem :=
  if st.passed && commands.contains arg then .unknownArgument arg
  else if commands.any (fun c => Text.likeness arg c > likenessLimit) then .invalidCommand arg
  else .unknownArgument arg

/-! ## Whole lines -/

/-- Read arguments up to a command, if one is among them. The result has the
command and the arguments behind it. -/
def scan (l : Level) (commands : List String) (st : State) :
    List String → Except Problem (State × Option (String × List String))
  | []          => .ok (st, none)
  | arg :: rest =>
    if st.passed then .error (misplaced commands st arg)
    else if st.waiting.isNone && commands.contains arg then .ok (st, some (arg, rest))
    else
      match arg.toList with
      | ['-', '-'] => scan l commands { st with passed := true } rest
      | '-' :: '-' :: body =>
        match readLong l st body with
        | .error e => .error e
        | .ok st   => scan l commands st rest
      | '-' :: c :: cs =>
        match readShorts l st (c :: cs) with
        | .error e => .error e
        | .ok st   => scan l commands st rest
      | _ =>
        match st.waiting with
        | some o => scan l commands (st.supply o arg) rest
        | none   => .error (misplaced commands st arg)

/-- What is wrong with the values of an option. -/
def refuseValue? (o : Opt) : List String → Option Problem
  | []      => none
  | v :: vs =>
    match o.refusal? v with
    | some reason => some (.invalidValue v o.display reason)
    | none        => refuseValue? o vs

/-- Look at the options that occurred, in the order in which they first did. -/
def checkFound : List Found → Except Problem Unit
  | []      => .ok ()
  | f :: fs =>
    if !f.option.isFlag && f.values.isEmpty then .error (.emptyValue f.option.display)
    else
      match refuseValue? f.option f.values with
      | some p => .error p
      | none   =>
        if f.times > 1 && !f.option.repeatable then .error (.repeated f.option.display)
        else checkFound fs

/-- Look at a whole level. -/
def checkLevel (st : State) (commandMissing : Bool) : Except Problem Unit :=
  match st.waiting with
  | some o =>
    if (st.found.filter (·.option.long == o.long)).all (·.values.isEmpty) then
      .error (.emptyValue o.display)
    else if commandMissing then .error .missingCommand
    else checkFound st.found
  | none => if commandMissing then .error .missingCommand else checkFound st.found

/-- The names behind the help command lead to a command, one below the other. -/
def explain (g : Grammar) : List String → Problem
  | []           => .help
  | name :: rest =>
    if g.commandNames.contains name then
      match rest with
      | []     => .help
      | n :: _ => .unrecognizedCommand n
    else .unrecognizedCommand name

/-! ## Results -/

/-- A command line that was read. -/
structure Matches where
  environment : List (String × String)
  top : List Found
  command : Option (String × List Found)

/-- The values of an option of a level: those that were given, or those of its
environment variable, or the default. -/
def valuesOf (environment : List (String × String)) (found : List Found) (o : Opt) : List String :=
  match found.find? (·.option.long == o.long) with
  | some f => f.values
  | none   =>
    match o.standIn.bind fun name => (environment.find? (·.1 == name)).map (·.2) with
    | some v => o.valuesOf v
    | none   => (o.absent.map o.valuesOf).getD []

/-- The values of an option of the program. -/
def Matches.values (m : Matches) (o : Opt) : List String := valuesOf m.environment m.top o

/-- The value of an option of the program. -/
def Matches.value (m : Matches) (o : Opt) : String := (m.values o).getLastD ""

/-- The value of an option of the command. -/
def Matches.commandValue (m : Matches) (o : Opt) : String :=
  (valuesOf m.environment ((m.command.map (·.2)).getD []) o).getLastD ""

/-- Whether a flag of the program occurred. -/
def Matches.isSet (m : Matches) (o : Opt) : Bool := m.top.any (·.option.long == o.long)

/-- Read a command line. -/
def Grammar.parse (g : Grammar) (environment : List (String × String)) (args : List String) :
    Except Problem Matches :=
  match scan g.top g.commandNames .initial args with
  | .error e                      => .error e
  | .ok (st, some (name, rest)) =>
    match g.command? name with
    | none       => .error (explain g rest)
    | some level =>
      match scan level [] .initial rest with
      | .error e      => .error e
      | .ok (inner, _) =>
        match checkLevel inner false with
        | .error e => .error e
        | .ok ()   =>
          match checkLevel st false with
          | .error e => .error e
          | .ok ()   => .ok ⟨environment, st.found, some (name, inner.found)⟩
  | .ok (st, none) =>
    match checkLevel st (!g.commands.isEmpty) with
    | .error e => .error e
    | .ok ()   => .ok ⟨environment, st.found, none⟩

end OperatorKit.Arguments
