/-
TableMapper.TypeScript.Identifier — names that may stand bare in the
generated source, and the keys of properties.
-/
import TableMapper.Text.Quoted

namespace TableMapper.TypeScript

/-- A character an identifier may begin with: an ASCII letter, `_` or
`$`. -/
def isIdentifierStart (c : Char) : Bool := c.isAlpha || c = '_' || c = '$'

/-- A character an identifier may go on with: the above, or an ASCII
digit. -/
def isIdentifierPart (c : Char) : Bool := isIdentifierStart c || c.isDigit

/-- Whether the characters spell an identifier. -/
def isIdentifierChars : List Char → Bool
  | [] => false
  | c :: cs => isIdentifierStart c && cs.all isIdentifierPart

/-- Whether the name is an identifier. -/
def isIdentifier (name : String) : Bool := isIdentifierChars name.toList

/-- A property key: bare if it is an identifier, else a string
literal. -/
def propertyKey (name : String) : String :=
  if isIdentifier name then name else Text.quoted name

end TableMapper.TypeScript
