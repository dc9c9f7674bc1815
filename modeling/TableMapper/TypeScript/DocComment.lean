/-
TableMapper.TypeScript.DocComment — descriptions as comments above a
declaration or a member.
-/
import TableMapper.Text.Basic

namespace TableMapper.TypeScript.DocComment

/-- The text with a backslash put into every `*/`, so that it cannot
close a comment. -/
def guarded : List Char → List Char
  | [] => []
  | '*' :: '/' :: cs => '*' :: '\\' :: '/' :: guarded cs
  | c :: cs => c :: guarded cs

/-- One line of a description behind its gutter. -/
def bodyLine (line : String) : String :=
  if line.isEmpty then " *" else " * " ++ String.ofList (guarded line.toList)

/-- The lines of the comment for a description at a level. -/
def lines (level : Nat) (description : String) : List String :=
  let body := (Text.lines description).map bodyLine
  (("/**" :: body) ++ [" */"]).map (Text.indent level ++ ·)

/-- The lines of the comment for a description, if there is one. -/
def lines? (level : Nat) : Option String → List String
  | none => []
  | some description => lines level description

end TableMapper.TypeScript.DocComment
