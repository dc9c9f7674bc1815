/-
TableMapper.Generated.Writing — a whole run: the files of a
configuration, written to where they belong.

Nothing is written unless all files can be generated. A file that may
not be overwritten is left alone where something is in its place.
-/
import TableMapper.Files.Access
import TableMapper.Generated.Run

namespace TableMapper

open TypeScript (Style)

/-! ## 1. Reports and failures -/

/-- The paths of the files that were written, and of those that were
left alone. -/
structure Report where
  written : List String := []
  skipped : List String := []
deriving DecidableEq, Repr

/-- Puts a path before the others of its list. -/
def Report.cons (path : String) (isWritten : Bool) (r : Report) : Report :=
  if isWritten then { r with written := path :: r.written }
  else { r with skipped := path :: r.skipped }

/-- Why a run fails. -/
inductive RunError where
  | generation (error : GenerationError)
  | write (path : String) (error : FileError)
deriving DecidableEq, Repr

namespace RunError

/-- The wording of the error. -/
def message : RunError → String
  | generation error => error.message
  | write path _ => "failed to write \"" ++ path ++ "\""

/-- The wording of what is behind the error. -/
def causes : RunError → List String
  | generation error => error.causes
  | write _ error => [error.message]

end RunError

/-! ## 2. Writing -/

section Writing

variable {m : Type → Type} [Monad m] (files : FileAccess m)

/-- Writes a file, unless it has to be left alone. The answer tells
whether it was written. -/
def SourceFile.write (f : SourceFile) : m (Except FileError Bool) := do
  let kept ← if f.overwrite then pure (.ok false) else files.hasEntry f.path
  match kept with
  | .error e => return .error e
  | .ok true => return .ok false
  | .ok false => return (← files.write f.path f.content).map fun _ => true

/-- Writes files in order. One that fails does not keep the others from
being written, and the first failure is the one that is reported. -/
def SourceFile.writeAll : List SourceFile → m (Except RunError Report)
  | [] => return .ok {}
  | f :: rest => do
    let outcome ← f.write files
    let report ← writeAll rest
    match outcome with
    | .error e => return .error (.write f.path e)
    | .ok isWritten => return report.map (·.cons f.path isWritten)

/-- Generates the files of a configuration, seen from a working
directory, and writes them. -/
def Settings.generate (s : Settings) (style : Style) (base : Location) :
    m (Except RunError Report) := do
  match s.generateFiles style base with
  | .error e => return .error (.generation e)
  | .ok sources => SourceFile.writeAll files sources

end Writing

end TableMapper
