import OperatorKit.Arguments.Help
import OperatorKit.Key.Problem
import OperatorKit.Load.Plan
import OperatorKit.Text.Quoted

/-!
# Endings

How a program ends: its exit code, what it prints last, and what it complains
about. A problem with the work itself is shown as a diagnosis, which is the name
of the problem and all that is known about it.
-/

namespace OperatorKit.Command

/-- The end of a program. -/
structure Ending where
  code : UInt8
  out : String
  err : String
  deriving DecidableEq, Repr

/-- The name and the version of the programs. -/
def versionText : String := "plaid-ops-tools 0.1.0"

/-! ## Diagnoses -/

/-- A name with one value. -/
def named (name value : String) : String := name ++ "(" ++ value ++ ")"

/-- Fields, each with its value, separated by commas. -/
def fieldsText : List (String × String) → String
  | []               => ""
  | [(f, v)]         => f ++ ": " ++ v
  | (f, v) :: g :: r => f ++ ": " ++ v ++ ", " ++ fieldsText (g :: r)

/-- A name with fields. -/
def record (name : String) (fields : List (String × String)) : String :=
  name ++ " \x7b " ++ fieldsText fields ++ " \x7d"

/-- A number in a diagnosis. -/
def floatText (x : Float) : String := Decimal.Layout.diagnostic.write x

/-- The diagnosis of a load test that is not carried out. -/
def loadDiagnosis : Load.LoadProblem → String
  | .invalidHost h            => named "InvalidHost" (Text.quoted h)
  | .noUsers                  => "NoUsers"
  | .invalidSpawnRate r       => named "InvalidSpawnRate" (floatText r)
  | .invalidWaitRange lo hi   =>
    record "InvalidWaitRange" [("min", floatText lo), ("max", floatText hi)]
  | .weights (.countMismatch given expected) =>
    record "WeightCountMismatch"
      [("given", Decimal.text given), ("expected", Decimal.text expected)]
  | .weights .allZero         => "AllWeightsZero"

/-- The kind of a refusal. -/
def refusalKind : Disk.Refusal → String
  | .notFound      => "NotFound"
  | .taken         => "AlreadyExists"
  | .notADirectory => "NotADirectory"
  | .isADirectory  => "IsADirectory"
  | .nameTooLong   => "InvalidFilename"
  | .nulCharacter  => "InvalidInput"
  | .notText       => "InvalidData"
  | .other 1 _     => "PermissionDenied"
  | .other 13 _    => "PermissionDenied"
  | .other 22 _    => "InvalidInput"
  | .other 28 _    => "StorageFull"
  | .other 30 _    => "ReadOnlyFilesystem"
  | .other _ _     => "Uncategorized"

/-- The diagnosis of a refusal. -/
def refusalDiagnosis (r : Disk.Refusal) : String :=
  let known := [("kind", refusalKind r), ("message", Text.quoted r.wording)]
  match r.code? with
  | some code => record "Os" (("code", Decimal.text code) :: known)
  | none      => record "Error" known

/-- The diagnosis of numbers that make no key. -/
def rsaDiagnosis : Key.RsaProblem → String
  | .primeCount         => "NprimesTooSmall"
  | .invalidArguments   => "InvalidArguments"
  | .negativeDifference => "NegativeDifference"
  | .invalidPrime       => "InvalidPrime"
  | .invalidModulus     => "InvalidModulus"
  | .invalidExponent    => "InvalidExponent"
  | .exponentTooSmall   => "PublicExponentTooSmall"
  | .exponentTooLarge   => "PublicExponentTooLarge"
  | .tooFewPrimes       => "TooFewPrimes"

/-- The diagnosis of a key that is not issued. -/
def keyDiagnosis : Key.KeyProblem → String
  | .disk path r        =>
    record "Io" [("path", Text.quoted path), ("source", refusalDiagnosis r)]
  | .rsa p              => named "Rsa" (rsaDiagnosis p)
  | .notPkcs8           => named "Pkcs8" (named "Asn1" "KeyMalformed")
  | .missingComponent c => named "MissingKeyComponent" (Text.quoted c)
  | .primeCount n       => named "UnsupportedPrimeCount" (Decimal.text n)

/-! ## Kinds of endings -/

namespace Ending

/-- The work is done. -/
def success : Ending := ⟨0, "", ""⟩

/-- The work failed. -/
def failure (diagnosis : String) : Ending := ⟨1, "", "Error: " ++ diagnosis ++ "\n"⟩

/-- The command line of the program `name` is not carried out. -/
def ofProblem (name : String) (g : Arguments.Grammar) : Arguments.Problem → Ending
  | .help           => ⟨0, g.help versionText name, ""⟩
  | .version        => ⟨0, versionText ++ "\n", ""⟩
  | .missingCommand => ⟨2, "", g.help versionText name⟩
  | p               => ⟨2, "", p.message ++ "\n\nFor more information try --help\n"⟩

end Ending
end OperatorKit.Command
