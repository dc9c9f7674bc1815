/-
TableMapper.Location — file paths as sequences of steps, and their
arithmetic without a look at the file system.

A location starts at the root or at the working directory and goes on
by names, by `..`, or, as its very first step only, by `.`. Doubled and
closing slashes and every other `.` leave no trace in it.
-/
import TableMapper.Text.Basic

namespace TableMapper

/-! ## 1. Steps and locations -/

/-- One step of a path: stay, go up, or go into the directory of that
name. -/
inductive Step where
  | here
  | up
  | name (s : String)
deriving DecidableEq, Repr

/-- The written form of a step. -/
def Step.text : Step → String
  | .here => "."
  | .up => ".."
  | .name s => s

/-- A path: whether it starts at the root, and its steps. -/
structure Location where
  rooted : Bool
  steps : List Step
deriving DecidableEq, Repr

namespace Location

/-- The step a part between slashes stands for, if it is one. -/
def stepOf? (part : List Char) : Option Step :=
  if part = [] ∨ part = ['.'] then none
  else if part = ['.', '.'] then some .up
  else some (.name (String.ofList part))

/-- Reads a path. -/
def ofString (path : String) : Location :=
  match Text.splitOn '/' path.toList with
  | [] :: rest@(_ :: _) => ⟨true, rest.filterMap stepOf?⟩
  | ['.'] :: rest => ⟨false, .here :: rest.filterMap stepOf?⟩
  | parts => ⟨false, parts.filterMap stepOf?⟩

/-! ## 2. Arithmetic -/

/-- The location `target` seen from the directory `base`. -/
def join (base target : Location) : Location :=
  if target.rooted then target
  else if base.steps.isEmpty && !base.rooted then target
  else ⟨base.rooted, base.steps ++ target.steps.filter (· ≠ .here)⟩

/-- Takes one step from the end of a path: `..` removes the last step,
and stays as a step of its own only where there is none to remove. -/
def walk (steps : List Step) : Step → List Step
  | .here => steps
  | .up => if steps.isEmpty then [.up] else steps.dropLast
  | .name s => steps ++ [.name s]

/-- The location with its steps taken one after the other. -/
def normalize (l : Location) : Location :=
  ⟨l.rooted, l.steps.foldl walk []⟩

/-- The directory a location lies in, if it has a last step. -/
def parent? (l : Location) : Option Location :=
  if l.steps.isEmpty then none else some ⟨l.rooted, l.steps.dropLast⟩

/-- Removes the longest common start of two lists. -/
def dropCommon : List Step → List Step → List Step × List Step
  | a :: as, b :: bs => if a = b then dropCommon as bs else (a :: as, b :: bs)
  | as, bs => (as, bs)

/-- The way from the directory `origin` to `target`: up to the last
common directory, then down. A rooted target is its own way from an
origin that is not rooted; from a rooted origin to a target that is not,
the way leaves the root as well. -/
def relative (origin target : Location) : Location :=
  match origin.rooted, target.rooted with
  | false, true => target
  | true, false => ⟨false, List.replicate (origin.steps.length + 1) .up ++ target.steps⟩
  | _, _ =>
    let (back, forth) := dropCommon origin.steps target.steps
    ⟨false, back.map (fun _ => .up) ++ forth⟩

/-- The parts of a path as they are written, the root as a slash. -/
def segments (l : Location) : List String :=
  (if l.rooted then ["/"] else []) ++ l.steps.map Step.text

end Location

end TableMapper
