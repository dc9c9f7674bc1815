/-
TableMapper.Provider — where the initial value of a field comes from: a
symbol that a module exports.

A provider is written `symbol=module` for the default export of the
module, taken under that symbol, or `module#symbol` for a named export.
The default form is tried first, so `a=b#c` is the default export of
`b#c`.
-/
import TableMapper.Text.Basic

namespace TableMapper

/-! ## 1. Providers -/

/-- How a module offers the symbol. -/
inductive Provider.Form where
  | defaultExport
  | namedExport
deriving DecidableEq, Repr

/-- A symbol and the module that exports it. -/
structure Provider where
  form : Provider.Form
  modulePath : String
  symbol : String
deriving DecidableEq, Repr

namespace Provider

/-- The written form of a provider. -/
def text (p : Provider) : String :=
  match p.form with
  | .defaultExport => p.symbol ++ "=" ++ p.modulePath
  | .namedExport => p.modulePath ++ "#" ++ p.symbol

/-! ## 2. The characters of symbols and packages -/

/-- A letter of a symbol or of a package name: a character with a case
variant among `a` to `z`. Beside the ASCII letters these are the long s
and the Kelvin sign. -/
def isLetter (c : Char) : Bool := c.isAlpha || c = '\u017f' || c = '\u212a'

/-- A character a symbol may begin with. -/
def isSymbolStart (c : Char) : Bool := isLetter c || c = '_' || c = '$'

/-- A character a symbol may go on with. -/
def isSymbolPart (c : Char) : Bool := isSymbolStart c || c.isDigit

/-- Whether the characters spell a symbol. -/
def isSymbol : List Char → Bool
  | [] => false
  | c :: cs => isSymbolStart c && cs.all isSymbolPart

/-- A character of a package name after the first. -/
def isPackagePart (c : Char) : Bool := isLetter c || c = '-' || c = '_'

/-- Whether a module path names a package: a letter, at least one more
character of a package name, and then nothing or a slash with the rest
of a line. -/
def isPackagePath : List Char → Bool
  | [] => false
  | c :: cs =>
    isLetter c && (cs.head?.any isPackagePart) &&
      match cs.dropWhile isPackagePart with
      | [] => true
      | slash :: tail => slash = '/' && tail.all (· ≠ '\n')

/-- Whether a module path points into the file system: it does if it
names no package. -/
def isFilePath (modulePath : String) : Bool := !isPackagePath modulePath.toList

/-- Whether the module of the provider is a file. -/
def isLocal (p : Provider) : Bool := isFilePath p.modulePath

/-! ## 3. Reading -/

/-- Why a text is no provider: it has neither form. -/
structure SyntaxError where
  input : String
deriving DecidableEq, Repr

/-- The wording of the error. -/
def SyntaxError.message (e : SyntaxError) : String :=
  "invalid module binding string syntax: `" ++ e.input ++ "`"

/-- Reads `symbol=module`; the module path is not empty and has no
further `=`. -/
def readDefault? (cs : List Char) : Option Provider :=
  match Text.splitAtFirst? '=' cs with
  | some (symbol, path) =>
    if isSymbol symbol && !path.isEmpty && path.all (· ≠ '=') then
      some ⟨.defaultExport, String.ofList path, String.ofList symbol⟩
    else none
  | none => none

/-- Reads `module#symbol`; the module path is not empty. -/
def readNamed? (cs : List Char) : Option Provider :=
  match Text.splitAtFirst? '#' cs with
  | some (path, symbol) =>
    if !path.isEmpty && isSymbol symbol then
      some ⟨.namedExport, String.ofList path, String.ofList symbol⟩
    else none
  | none => none

/-- Reads a provider. -/
def parse (input : String) : Except SyntaxError Provider :=
  match readDefault? input.toList with
  | some p => .ok p
  | none => match readNamed? input.toList with
    | some p => .ok p
    | none => .error ⟨input⟩

end Provider

end TableMapper
