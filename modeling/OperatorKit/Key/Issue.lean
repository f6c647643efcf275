import OperatorKit.Key.Action
import OperatorKit.Key.Jwk
import OperatorKit.Key.PrivateKeyInfo

/-!
# Issuing keys

A key pair is issued into a directory of its own, which must not exist before:
making it is the test for it, so that of several issues into one directory at
most one goes on. The directories above it are made if they are missing. Then a
key is made, written in its three forms and stored in three new files, of which
those with the private key are readable for their owner only.
-/

namespace OperatorKit.Key

open Disk

/-- The key that is wanted. -/
structure KeySpec where
  name : String
  bits : Nat
  alg : String
  deriving DecidableEq, Repr

/-- The files of a key. -/
structure KeyFiles where
  privateJwk : String
  publicJwk : String
  privatePem : String
  deriving DecidableEq, Repr

/-- The files of a key of the given name in a directory. -/
def KeyFiles.of (dir name : String) : KeyFiles :=
  { privateJwk := Path.join dir (name ++ "_private.json")
    publicJwk := Path.join dir (name ++ "_public.json")
    privatePem := Path.join dir (name ++ ".pem") }

/-- What became of an issue that met no problem. -/
inductive IssueOutcome where
  | created (files : KeyFiles)
  /-- The directory was there already, and no key was made. -/
  | alreadyExists (dir : String)
  deriving DecidableEq, Repr

/-- The permissions of a file that only its owner may read. -/
def privateMode : Nat := 0o600

/-- The permissions of any other file. -/
def publicMode : Nat := 0o666

/-! ## Directories -/

/-- Make a directory together with those that it is in, given as a row of paths,
the innermost first. What is there already is fine, if it is a directory. -/
def makeDirs : List String → Action (Except Refusal Unit)
  | []            => .done (.ok ())
  | path :: outer =>
    .makeDir path fun
      | .ok ()           => .done (.ok ())
      | .error .notFound =>
        (makeDirs outer).bind fun
          | .error e => .done (.error e)
          | .ok ()   =>
            .makeDir path fun
              | .ok ()   => .done (.ok ())
              | .error e => .isDir path fun there => .done (if there then .ok () else .error e)
      | .error e         => .isDir path fun there => .done (if there then .ok () else .error e)

/-- Make a directory together with those that it is in. The empty path stands for
the working directory, which is there. -/
def makeDirPath (path : String) : Action (Except Refusal Unit) :=
  if path.toList.isEmpty then .done (.ok ()) else makeDirs (path :: Path.ancestors path)

/-- Make the directories above a path. -/
def makeParents (path : String) : Action (Except KeyProblem Unit) :=
  match Path.parent? path with
  | none        => .done (.ok ())
  | some parent =>
    (makeDirPath parent).bind fun
      | .ok ()   => .done (.ok ())
      | .error e => .done (.error (.disk parent e))

/-! ## Files -/

/-- The three forms of a key. -/
structure KeyTexts where
  privateJwk : String
  publicJwk : String
  privatePem : String
  deriving DecidableEq, Repr

/-- Write a key in its three forms. -/
def KeyTexts.of (k : RsaKey) (spec : KeySpec) : Except KeyProblem KeyTexts :=
  match Jwk.ofPrivate k spec.name keyPurpose spec.alg with
  | .error e     => .error e
  | .ok privateJwk =>
    match k.pem with
    | .error e => .error e
    | .ok pem  =>
      .ok ⟨privateJwk.text, (Jwk.ofPublic k spec.name keyPurpose spec.alg).text, pem⟩

/-- Store a text in a new file. -/
def store (path : String) (mode : Nat) (text : String) : Action (Except KeyProblem Unit) :=
  .createFile path mode text fun
    | .error e => .done (.error (.disk path e))
    | .ok ()   => .log ⟨.debug, "Wrote " ++ path⟩ (.done (.ok ()))

/-- Store the three forms of a key, the private ones for their owner only. -/
def storeAll (files : KeyFiles) (texts : KeyTexts) : Action (Except KeyProblem Unit) :=
  (store files.privateJwk privateMode texts.privateJwk).bind fun
    | .error e => .done (.error e)
    | .ok ()   =>
      (store files.publicJwk publicMode texts.publicJwk).bind fun
        | .error e => .done (.error e)
        | .ok ()   => store files.privatePem privateMode texts.privatePem

/-! ## The issue -/

/-- Make a key and store it in a directory that was made for it. -/
def fill (dir : String) (spec : KeySpec) : Action (Except KeyProblem IssueOutcome) :=
  .log ⟨.info, "Generating " ++ Decimal.text spec.bits ++ "-bit " ++ keyType ++ " key '" ++
      spec.name ++ "'"⟩ <|
  .makeKey spec.bits fun
    | .error e => .done (.error (.rsa e))
    | .ok k    =>
      match KeyTexts.of k spec with
      | .error e  => .done (.error e)
      | .ok texts =>
        (storeAll (.of dir spec.name) texts).bind fun
          | .error e => .done (.error e)
          | .ok ()   => .done (.ok (.created (.of dir spec.name)))

/-- Issue a key into a directory. -/
def issue (dir : String) (spec : KeySpec) : Action (Except KeyProblem IssueOutcome) :=
  (makeParents dir).bind fun
    | .error e => .done (.error e)
    | .ok ()   =>
      .makeDir dir fun
        | .ok ()         => fill dir spec
        | .error .taken =>
          .log ⟨.warn, dir ++ " already exists, not generating keys"⟩
            (.done (.ok (.alreadyExists dir)))
        | .error e       => .done (.error (.disk dir e))

end OperatorKit.Key
