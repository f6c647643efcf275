import OperatorKit.Key.Action
import OperatorKit.Key.Prime
import OperatorKit.Live.Random

/-!
# Actions on the machine's disk

Carries out an action call by call on the file system that the program runs on,
and tells its words to the operator: text on standard output, important lines of
the log on standard error.
-/

namespace OperatorKit.Live

open Disk Key

/-- Tell a line of the log to the operator, unless it is a detail. -/
def tell (line : LogLine) : IO Unit :=
  match line.level with
  | .debug => pure ()
  | _      => IO.eprintln line.text

/-- Print a text at once. -/
def print (text : String) : IO Unit := do
  let out ← IO.getStdout
  out.putStr text
  out.flush

/-- The number and the wording of an error of the machine. What has no number counts
as an error of the device. -/
def codeOf : IO.Error → Nat × String
  | .noFileOrDirectory _ code details    => (code.toNat, details)
  | .alreadyExists _ code details        => (code.toNat, details)
  | .inappropriateType _ code details    => (code.toNat, details)
  | .permissionDenied _ code details     => (code.toNat, details)
  | .invalidArgument _ code details      => (code.toNat, details)
  | .resourceExhausted _ code details    => (code.toNat, details)
  | .unsatisfiedConstraints code details => (code.toNat, details)
  | .hardwareFault code details          => (code.toNat, details)
  | .otherError code details             => (code.toNat, details)
  | e                                    => (5, e.toString)

/-- The result of a call, with the reason of a refusal. -/
def attempt {α : Type} (call : IO α) : IO (Except Refusal α) := do
  match ← call.toBaseIO with
  | .ok a    => return .ok a
  | .error e => return .error (.ofCode (codeOf e).1 (codeOf e).2)

/-- Whether a path leads to a directory: only a directory has itself in it. -/
def isDirectory (path : String) : IO Bool := do
  match ← attempt (IO.FS.Handle.mk (path ++ "/.") .read) with
  | .ok _    => return true
  | .error _ => return false

/-- The rights of a file with the given permissions; nobody may execute it. -/
def rightsOf (mode : Nat) : IO.FileRight :=
  let access (shift : Nat) : IO.AccessRight :=
    { read := (mode >>> shift).testBit 2, write := (mode >>> shift).testBit 1, execution := false }
  { user := access 6, group := access 3, other := access 0 }

/-- Make a file where nothing is. Before the text goes into a private file, nobody
but its owner may read it. -/
def createFile (path : String) (mode : Nat) (text : String) : IO Unit := do
  let file ← IO.FS.Handle.mk path .writeNew
  if mode &&& 0o077 = 0 then IO.setAccessRights path (rightsOf mode)
  file.putStr text
  file.flush

/-- The text of a file. -/
def fileText (path : String) : IO (Except Refusal String) := do
  match ← attempt (IO.FS.readBinFile path) with
  | .error e => return .error e
  | .ok bytes =>
    match Text.ofBytes? bytes.toList with
    | some text => return .ok text
    | none      => return .error .notText

/-- Carry out an action. -/
def perform {α : Type} : Action α → IO α
  | .done a                         => pure a
  | .makeDir path next              => do perform (next (← attempt (IO.FS.createDir path)))
  | .isDir path next                => do perform (next (← isDirectory path))
  | .createFile path mode text next => do perform (next (← attempt (createFile path mode text)))
  | .fileText path next             => do perform (next (← fileText path))
  | .makeKey bits next              => do
    perform (next (makeKey (← randomWords (wordsForKey bits)) bits))
  | .log line next                  => do tell line; perform next
  | .print text next                => do print text; perform next

end OperatorKit.Live
