/-
TableMapper.ImportPath — how one generated file refers to a module: a
package by its name, a file by the way to it.
-/
import TableMapper.Location
import TableMapper.Provider

namespace TableMapper.ImportPath

/-- The extensions a module specifier leaves out. -/
def inferredExtensions : List (List Char) := [['j', 's'], ['t', 's']]

/-- The stem of a file name that ends in an inferred extension; a name
that is all extension is its own stem. -/
def stem (name : String) : String :=
  match Text.splitAtFirst? '.' name.toList.reverse with
  | some (extension, stem) =>
    if !stem.isEmpty && inferredExtensions.contains extension.reverse then
      String.ofList stem.reverse
    else name
  | none => name

/-- Applies a function to the last element of a list. -/
def mapLast (f : String → String) : List String → List String
  | [] => []
  | [last] => [f last]
  | first :: rest => first :: mapLast f rest

/-- The specifier for a way from the importing directory: its parts
between slashes, the last as a stem, with a leading `./` if there is at
most one part. -/
def specifier (way : Location) : String :=
  let parts := mapLast stem way.segments
  let joined := Text.joinWith "/" parts
  if 1 < parts.length then joined else "./" ++ joined

/-- The way from the directory of the file `origin` to `target`, both
seen from `base`. -/
def way (base : Location) (origin target : String) : Location :=
  let file := (base.join (Location.ofString origin)).normalize
  let directory := file.parent?.getD ⟨true, []⟩
  directory.relative (base.join (Location.ofString target)).normalize

/-- The specifier by which the file `origin` imports `target`. -/
def resolve (base : Location) (origin target : String) : String :=
  if Provider.isFilePath target then specifier (way base origin target) else target

end TableMapper.ImportPath
