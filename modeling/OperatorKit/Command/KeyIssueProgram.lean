import OperatorKit.Command.Banner
import OperatorKit.Command.Ending
import OperatorKit.Command.KeyIssueOptions

/-!
# The key issue as a program

Reads a command line, issues a key, and tells the operator where it is and what
to do with it.
-/

namespace OperatorKit.Command.KeyIssue

open Arguments Key

/-- The name of the program. -/
def programName : String := "jwks-keygen"

/-- What is said about new keys. -/
def createdNotice : String :=
  "Keys created. Please move to secure storage and remove the keys directory."

/-- What is said if the directory is there already. -/
def removeNotice : String :=
  "Please remove existing keys directory - make sure you have the existing keys stored " ++
    "securely because this will generate new ones!"

/-- Where the files of a key are. -/
def filesText (f : KeyFiles) : String :=
  "Public JWK:  " ++ f.publicJwk ++ "\nPrivate JWK: " ++ f.privateJwk ++
    "\nPrivate PEM: " ++ f.privatePem ++ "\n"

/-- Print the configuration for a key, which is read back from its file. -/
def printSnippet (pem : String) (next : Action Ending) : Action Ending :=
  .fileText pem fun
    | .error e => .done (.failure (keyDiagnosis (.disk pem e)))
    | .ok text => .print ("\n" ++ configSnippet text ++ "\n") next

/-- Tell what became of an issue. -/
def tell (o : Order) : Except KeyProblem IssueOutcome → Action Ending
  | .error e               => .done (.failure (keyDiagnosis e))
  | .ok (.alreadyExists _) => .print (removeNotice ++ "\n") (.done .success)
  | .ok (.created files)   =>
    let last : Action Ending := .print (createdNotice ++ "\n") (.done .success)
    .print (filesText files) (if o.printConfig then printSnippet files.privatePem last else last)

/-- Carry out an order. -/
def carryOut (o : Order) : Action Ending :=
  .print (banner "JWKS keygen") ((issue o.outDir o.spec).bind (tell o))

/-- The program, with the arguments of its command line. -/
def program (args : List String) : Action Ending :=
  match parse args with
  | .error p => .done (.ofProblem programName grammar p)
  | .ok o    => carryOut o

end OperatorKit.Command.KeyIssue
