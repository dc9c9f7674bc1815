/-
TableMapper.Generated.SourceFile — a generated source file, and the
list of those that wait to be written.
-/
import TableMapper.Location

namespace TableMapper

/-! ## 1. Files -/

/-- A file to be written: where, what below the header, and whether it
may replace a file that is there. -/
structure SourceFile where
  path : String
  body : String
  overwrite : Bool := true
deriving DecidableEq, Repr

namespace SourceFile

/-- The comment at the top of every generated file. -/
def header : String :=
  "/* tslint:disable */\n\n/**\n * This file was generated with Dynogen.\n * DO NOT EDIT!\n */"

/-- The whole text of the file. -/
def content (f : SourceFile) : String := header ++ "\n" ++ f.body

/-- Whether two files are the same: paths are compared as locations. -/
def same (f g : SourceFile) : Bool :=
  Location.ofString f.path == Location.ofString g.path && f.content == g.content
    && f.overwrite == g.overwrite

end SourceFile

/-! ## 2. Staging -/

/-- The files that wait to be written, in the order in which they came.
Nothing is replaced: of two files with one path both are kept. -/
structure Staging where
  files : List SourceFile := []

namespace Staging

/-- Adds files after all others, with nothing between them. -/
def stage (s : Staging) (files : List SourceFile) : Staging := ⟨s.files ++ files⟩

/-- How many files wait. -/
def size (s : Staging) : Nat := s.files.length

end Staging

end TableMapper
