import OperatorKit.Decimal.Natural

/-!
# Refusals of the disk

Why the file system does not do what it is asked to. Each reason has a number
and a wording.
-/

namespace OperatorKit.Disk

/-- Why a call on the file system failed. -/
inductive Refusal where
  /-- Something on the way to the path is not there. -/
  | notFound
  /-- The path is taken. -/
  | taken
  /-- Something on the way to the path is no directory. -/
  | notADirectory
  /-- The path is a directory. -/
  | isADirectory
  /-- A component of the path, or the path itself, is too long. -/
  | nameTooLong
  /-- The path has a character that no path can have. -/
  | nulCharacter
  /-- The bytes of the file are no text. -/
  | notText
  /-- Any other reason, with its number and wording. -/
  | other (code : Nat) (wording : String)
  deriving DecidableEq, Repr

namespace Refusal

/-- The number of a reason, if it has one. -/
def code? : Refusal → Option Nat
  | .notFound      => some 2
  | .taken         => some 17
  | .notADirectory => some 20
  | .isADirectory  => some 21
  | .nameTooLong   => some 36
  | .nulCharacter  => none
  | .notText       => none
  | .other code _  => some code

/-- The reason with a given number; a reason that is not known here keeps its wording. -/
def ofCode (code : Nat) (wording : String) : Refusal :=
  if code = 2 then .notFound
  else if code = 17 then .taken
  else if code = 20 then .notADirectory
  else if code = 21 then .isADirectory
  else if code = 36 then .nameTooLong
  else .other code wording

theorem code?_ofCode (code : Nat) (wording : String) :
    (ofCode code wording).code? = some code := by
  unfold ofCode
  split
  · subst_vars; rfl
  split
  · subst_vars; rfl
  split
  · subst_vars; rfl
  split
  · subst_vars; rfl
  split
  · subst_vars; rfl
  · rfl

/-- The wording of a reason, without its number. -/
def wording : Refusal → String
  | .notFound      => "No such file or directory"
  | .taken         => "File exists"
  | .notADirectory => "Not a directory"
  | .isADirectory  => "Is a directory"
  | .nameTooLong   => "File name too long"
  | .nulCharacter  => "file name contained an unexpected NUL byte"
  | .notText       => "stream did not contain valid UTF-8"
  | .other _ w     => w

/-- The wording of a reason with its number behind it. -/
def message (r : Refusal) : String :=
  match r.code? with
  | some n => r.wording ++ " (os error " ++ Decimal.text n ++ ")"
  | none   => r.wording

end Refusal
end OperatorKit.Disk
