/-
TableMapper.Files.Access — what a program needs of the files around it,
and how that can fail.

The program is written for any kind of file access. `Files.Disk` holds
one that is a plain value; the command line has the real one.
-/

namespace TableMapper

/-! ## 1. Failures -/

/-- Why a file cannot be read or written. -/
inductive FileError where
  | missing
  | notDirectory
  | isDirectory
  | notText
  | other (code : Nat) (text : String)
deriving DecidableEq, Repr

namespace FileError

/-- The wording of a failure that the operating system reports. -/
def systemText (text : String) (code : Nat) : String :=
  text ++ " (os error " ++ String.ofList (Nat.toDigits 10 code) ++ ")"

/-- The wording of a failure. -/
def message : FileError → String
  | missing => systemText "No such file or directory" 2
  | notDirectory => systemText "Not a directory" 20
  | isDirectory => systemText "Is a directory" 21
  | notText => "stream did not contain valid UTF-8"
  | other code text => systemText text code

end FileError

/-! ## 2. Access -/

/-- Access to files by their paths. -/
structure FileAccess (m : Type → Type) where
  /-- The bytes of a file. -/
  read : String → m (Except FileError ByteArray)
  /-- Whether there is a file or a directory. -/
  hasEntry : String → m (Except FileError Bool)
  /-- Replaces the content of a file, or makes a new one in a directory
  that is there. -/
  write : String → String → m (Except FileError Unit)

namespace FileAccess

/-- The text of a file, which has to be UTF-8. -/
def readText {m : Type → Type} [Monad m] (files : FileAccess m) (path : String) :
    m (Except FileError String) := do
  match ← files.read path with
  | .error e => return .error e
  | .ok bytes =>
    match String.fromUTF8? bytes with
    | some text => return .ok text
    | none => return .error .notText

end FileAccess

end TableMapper
