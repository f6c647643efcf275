import OperatorKit.Disk.Path
import OperatorKit.Disk.Refusal
import OperatorKit.Text.Bytes

/-!
# File trees

Directories and files below one root, and a working directory. A place in the
tree is the row of names that leads to it, the innermost first, so that `..` is
the tail of a place. There are no links: each directory and file has one place.

Calls on the tree name a path, which is walked name by name from the working
directory or from the root. What is called for either happens as a whole or is
refused: a tree has room for all that is written to it. Permissions are kept for
what has them, and nobody is refused by them.
-/

namespace OperatorKit.Disk

/-- A place in the tree. -/
abbrev Place : Type := List String

/-- What is at a place, with its permissions. -/
inductive Entry where
  | dir (mode : Nat := 0o755)
  | file (mode : Nat) (bytes : List UInt8)
  deriving DecidableEq, Repr

/-- Whether an entry is a directory. -/
def Entry.isDir : Entry → Bool
  | .dir _   => true
  | .file .. => false

/-- What a listing shows of an entry. -/
inductive Shown where
  | dir
  | file (mode : Nat) (text : String)
  deriving DecidableEq, Repr

/-- A file that is no text is shown as an empty one. -/
def Entry.shown : Entry → Shown
  | .dir _           => .dir
  | .file mode bytes => .file mode ((Text.ofBytes? bytes).getD "")

/-- A file tree with its working directory. Permissions in `umask` are taken from
every directory and file that is made. -/
structure Tree where
  entries : List (Place × Entry)
  workDir : Place
  umask : Nat
  deriving DecidableEq, Repr

namespace Tree

/-- Look a place up in a list of entries. -/
def lookup (p : Place) : List (Place × Entry) → Option Entry
  | []             => none
  | (q, e) :: rest => if p = q then some e else lookup p rest

/-- What is at a place. The root is always there. -/
def get? (t : Tree) (p : Place) : Option Entry :=
  if p = [] then some .dir else lookup p t.entries

/-- Whether a directory is at a place. -/
def isDirAt (t : Tree) (p : Place) : Bool := (t.get? p).any (·.isDir)

/-- Put an entry to a place where nothing is. -/
def add (t : Tree) (p : Place) (e : Entry) : Tree := { t with entries := t.entries ++ [(p, e)] }

/-- Put an entry in the place of what is there. -/
def replace (t : Tree) (p : Place) (e : Entry) : Tree :=
  { t with entries := t.entries.map fun (q, f) => (q, if q = p then e else f) }

/-! ## Walking -/

/-- The longest name, in bytes. -/
abbrev nameLimit : Nat := 255

/-- The longest path, in bytes. -/
abbrev pathLimit : Nat := 4095

/-- The place that a name leads to from a directory, if the name is no `.` or `..`. -/
def child (p : Place) (name : String) : Except Refusal Place :=
  if nameLimit < name.utf8ByteSize then .error .nameTooLong else .ok (name :: p)

/-- Follow a name from a place, which has to be a directory. -/
def follow (t : Tree) (p : Place) (name : String) : Except Refusal Place :=
  if !t.isDirAt p then .error .notADirectory
  else if name = "." then .ok p
  else if name = ".." then .ok p.tail
  else
    match child p name with
    | .error e => .error e
    | .ok q    => if (t.get? q).isSome then .ok q else .error .notFound

/-- Follow a row of names from a place. -/
def walk (t : Tree) (p : Place) : List String → Except Refusal Place
  | []            => .ok p
  | name :: names =>
    match t.follow p name with
    | .error e => .error e
    | .ok q    => t.walk q names

/-- Where a walk begins. -/
def start (t : Tree) (path : String) : Place := if Path.isAbsolute path then [] else t.workDir

/-- A text that can be a path. -/
def checkPath (path : String) : Except Refusal Unit :=
  if path.toList.contains '\x00' then .error .nulCharacter
  else if path.toList.isEmpty then .error .notFound
  else if pathLimit < path.utf8ByteSize then .error .nameTooLong
  else .ok ()

/-- A path that names a directory by the slash at its end. -/
def endsInSlash (path : String) : Bool := path.toList.getLast? == some '/'

/-- The place that a path leads to. -/
def resolve (t : Tree) (path : String) : Except Refusal Place :=
  match checkPath path with
  | .error e => .error e
  | .ok ()   =>
    match t.walk (t.start path) (Path.names path) with
    | .error e => .error e
    | .ok p    =>
      if endsInSlash path && !t.isDirAt p then .error .notADirectory else .ok p

/-- The place of a path's last name in the directory of the other names. It is
refused if it is taken, as `.` and `..` always are. Only a directory can get a name
with a slash behind it. -/
def vacancy (t : Tree) (path : String) (dir : Bool) : Except Refusal Place :=
  match checkPath path with
  | .error e => .error e
  | .ok ()   =>
    match (Path.names path).getLast? with
    | none      => .error .taken
    | some last =>
      match t.walk (t.start path) (Path.names path).dropLast with
      | .error e => .error e
      | .ok p    =>
        if !t.isDirAt p then .error .notADirectory
        else if last = "." ∨ last = ".." then .error .taken
        else if !dir && endsInSlash path then .error .isADirectory
        else
          match child p last with
          | .error e => .error e
          | .ok q    => if (t.get? q).isSome then .error .taken else .ok q

/-! ## Calls -/

/-- Permissions without those that the tree takes away. -/
def masked (t : Tree) (mode : Nat) : Nat := mode &&& (0o777 ^^^ (t.umask &&& 0o777))

/-- A new directory. -/
def newDir (t : Tree) : Entry := .dir (t.masked 0o777)

/-- Make a directory where nothing is. -/
def makeDir (t : Tree) (path : String) : Except Refusal Tree :=
  match t.vacancy path true with
  | .error e => .error e
  | .ok p    => .ok (t.add p t.newDir)

/-- Whether a path leads to a directory. -/
def isDir (t : Tree) (path : String) : Bool :=
  match t.resolve path with
  | .error _ => false
  | .ok p    => t.isDirAt p

/-- Make a file where nothing is. -/
def createFile (t : Tree) (path : String) (mode : Nat) (bytes : List UInt8) :
    Except Refusal Tree :=
  match t.vacancy path false with
  | .error e => .error e
  | .ok p    => .ok (t.add p (.file (t.masked mode) bytes))

/-- The text of a file. -/
def fileText (t : Tree) (path : String) : Except Refusal String :=
  match t.resolve path with
  | .error e => .error e
  | .ok p    =>
    match t.get? p with
    | some (.file _ bytes) =>
      match Text.ofBytes? bytes with
      | some text => .ok text
      | none      => .error .notText
    | some (.dir _)        => .error .isADirectory
    | none                 => .error .notFound

/-- The permissions of a file. -/
def fileMode? (t : Tree) (path : String) : Option Nat :=
  match t.resolve path with
  | .error _ => none
  | .ok p    =>
    match t.get? p with
    | some (.file mode _) => some mode
    | _                   => none

/-- Give a file a new text. A file that is not there is made. -/
def writeFile (t : Tree) (path text : String) : Except Refusal Tree :=
  match t.resolve path with
  | .error .notFound => t.createFile path 0o666 (Text.bytes text)
  | .error e         => .error e
  | .ok p            =>
    match t.get? p with
    | some (.file mode _) => .ok (t.replace p (.file mode (Text.bytes text)))
    | _                   => .error .isADirectory

/-- Remove a file, or a directory with all that is in it. The working directory
and the directories that it is in stay. -/
def remove (t : Tree) (path : String) : Except Refusal Tree :=
  match t.resolve path with
  | .error e => .error e
  | .ok p    =>
    if p.isSuffixOf t.workDir then .error (.other 22 "Invalid argument")
    else .ok { t with entries := t.entries.filter fun (q, _) => !p.isSuffixOf q }

/-- What lies below a directory, of a row of entries, by the path from there. A
directory's path ends in a slash. -/
def listing (base : Place) (es : List (Place × Entry)) : List (String × Entry) :=
  (es.filter fun (p, _) => base.isSuffixOf p && p != base).map fun (p, e) =>
    let names := (p.take (p.length - base.length)).reverse
    ("/".intercalate names ++ (if e.isDir then "/" else ""), e)

/-- Everything below a directory. -/
def contents (t : Tree) (base : Place) : List (String × Entry) := listing base t.entries

/-- Everything below a directory, as it is shown. -/
def below (t : Tree) (base : Place) : List (String × Shown) :=
  (t.contents base).map fun x => (x.1, x.2.shown)

end Tree
end OperatorKit.Disk
