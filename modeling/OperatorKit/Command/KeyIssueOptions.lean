import OperatorKit.Arguments.Parser
import OperatorKit.Decimal.Natural
import OperatorKit.Key.Issue

/-!
# The command line of the key issue

Options for the key, the directory it goes to, and the configuration that is
printed with it.
-/

namespace OperatorKit.Command.KeyIssue

open Arguments Key

def keyName : Opt :=
  { long := "key-name", short := some 'k', absent := some "plaid_service_app_keys" }

def outDir : Opt := { long := "out-dir", short := some 'o', absent := some "keys" }

/-- Why a text is no number of bits. -/
def refuseBits? (s : String) : Option String :=
  match Decimal.read (2 ^ 64) s.toList with
  | .ok _    => none
  | .error e => some e.message

def bits : Opt := { long := "bits", absent := some "4096", refusal? := refuseBits? }

def alg : Opt := { long := "alg", absent := some "RS256" }

def printConfig : Opt := { long := "print-config", isFlag := true }

/-- The command line of the key issue. -/
def grammar : Grammar :=
  { top := { options := [keyName, outDir, bits, alg, printConfig], hasVersion := true }
    commands := [] }

/-- What an operator orders. -/
structure Order where
  outDir : String
  spec : KeySpec
  printConfig : Bool
  deriving DecidableEq, Repr

/-- The order on a command line. -/
def orderOf (m : Matches) : Order :=
  { outDir := m.value outDir
    spec :=
      { name := m.value keyName
        bits := (Decimal.read (2 ^ 64) (m.value bits).toList).toOption.getD 0
        alg := m.value alg }
    printConfig := m.isSet printConfig }

/-- Read an order from a command line. -/
def parse (args : List String) : Except Arguments.Problem Order :=
  (grammar.parse [] args).map orderOf

end OperatorKit.Command.KeyIssue
