/-
TableMapper.TypeScript.Declaration — exported declarations and their
text.
-/
import TableMapper.TypeScript.TypeExpr

namespace TableMapper.TypeScript

/-! ## 1. Declarations -/

/-- A named enumeration: its members in order, each with its value. -/
structure Enumeration where
  name : String
  members : List (String × Json)

/-- What is declared for a type: an interface with its members, or an
alias of an expression. -/
inductive TypeBody where
  | interface (members : List (PropertyHead × TypeExpr)) (further : Option TypeExpr)
  | alias (type : TypeExpr)

/-- A type declaration together with the enumerations its expressions
refer to, in the order of their first use. -/
structure Declarations where
  name : String
  description : Option String
  body : TypeBody
  enumerations : List Enumeration

/-- How declarations are written: the text above them, if any, and
whether enumerations are `const`. -/
structure Style where
  banner : Option String := none
  constEnums : Bool := true
deriving DecidableEq, Repr

/-! ## 2. Text -/

namespace Enumeration

/-- The members with their values written out. -/
def writtenMembers (e : Enumeration) : List (String × String) :=
  e.members.map fun (name, value) => (name, value.compact)

/-- The text of an enumeration. -/
def text (style : Style) (e : Enumeration) : String :=
  let lines := e.writtenMembers.map fun (name, value) => "  " ++ name ++ " = " ++ value
  "export " ++ (if style.constEnums then "const enum " else "enum ") ++ e.name ++ " \x7b\n"
    ++ Text.joinWith ",\n" lines ++ "\n\x7d\n"

end Enumeration

namespace TypeBody

/-- The text of a type declaration of the given name. -/
def text (name : String) : TypeBody → String
  | .interface members further =>
    "export interface " ++ name ++ " " ++
      TypeExpr.braced 0 (TypeExpr.membersLines 1 members ++ TypeExpr.furtherLines 1 further)
      ++ "\n"
  | .alias type => "export type " ++ name ++ " = " ++ type.text 0 ++ ";\n"

end TypeBody

namespace Declarations

/-- The names that are declared, in order. -/
def names (d : Declarations) : List String := d.name :: d.enumerations.map (·.name)

/-- The text of the declarations: the banner, the comment and the type,
and each enumeration after an empty line. -/
def text (style : Style) (d : Declarations) : String :=
  let above := style.banner.toList ++ DocComment.lines? 0 d.description
  String.join (above.map (· ++ "\n")) ++ d.body.text d.name
    ++ String.join (d.enumerations.map fun e => "\n" ++ e.text style)

end Declarations

end TableMapper.TypeScript
