/-
TableMapper.Main — the program: its arguments, the files around it, and
its output.
-/
import TableMapper.CommandLine

namespace TableMapper.Program

/-- The failure behind an error of the operating system. -/
def fileErrorOf : IO.Error → FileError
  | .noFileOrDirectory .. => .missing
  | .inappropriateType _ code _ => if code = 21 then .isDirectory else .notDirectory
  | .permissionDenied _ code text => .other code.toNat text
  | .resourceExhausted _ code text => .other code.toNat text
  | .invalidArgument _ code text => .other code.toNat text
  | .otherError code text => .other code.toNat text
  | e => .other 5 e.toString

/-- The answer of an action, or its failure. -/
def attempt {α : Type} (action : IO α) : IO (Except FileError α) := do
  try
    return .ok (← action)
  catch e => return .error (fileErrorOf e)

/-- Access to the files of the machine. A path that leads nowhere for
whatever reason has no entry: writing to it tells the reason. -/
def files : FileAccess IO where
  read path := attempt (IO.FS.readBinFile path)
  hasEntry path := do
    match ← attempt (IO.FS.realPath path) with
    | .ok _ => return .ok true
    | .error _ => return .ok false
  write path content := attempt (IO.FS.writeFile path content)

/-- The working directory, or the empty path where there is none. -/
def workingDirectory : IO Location := do
  match ← attempt IO.currentDir with
  | .ok path => return .ofString path.toString
  | .error _ => return .ofString ""

end TableMapper.Program

open TableMapper in
/-- Runs the command in the arguments. -/
def main (arguments : List String) : IO UInt32 := do
  let result ← Command.run Program.files (← Program.workingDirectory) arguments
  IO.print result.output
  for line in result.errorLines do IO.eprintln line
  if result.showsUsage then
    if result.exitCode = 0 then IO.print CommandResult.usage
    else IO.eprint CommandResult.usage
  return result.exitCode.toUInt32
