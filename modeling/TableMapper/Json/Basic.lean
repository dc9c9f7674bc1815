/-
TableMapper.Json.Basic — JSON documents whose objects keep the order of
their fields.
-/
import TableMapper.Number
import TableMapper.Text.Basic
import TableMapper.Text.Quoted

namespace TableMapper

/-! ## 1. Fields in order -/

/-- Named values in written order. -/
abbrev Fields (α : Type) := List (String × α)

namespace Fields

/-- The value of the first field of that name. -/
def get? {α : Type} (name : String) : Fields α → Option α
  | [] => none
  | (n, v) :: rest => if n = name then some v else get? name rest

/-- Whether a field has that name. -/
def contains {α : Type} (name : String) (fields : Fields α) : Bool :=
  (get? name fields).isSome

/-- Sets the field of that name: in its place if there is one, else
after all others. -/
def insert {α : Type} (name : String) (value : α) : Fields α → Fields α
  | [] => [(name, value)]
  | (n, v) :: rest =>
    if n = name then (n, value) :: rest else (n, v) :: insert name value rest

end Fields

/-! ## 2. Documents -/

/-- A JSON document. -/
inductive Json where
  | null
  | bool (b : Bool)
  | number (n : Number)
  | string (s : String)
  | array (items : List Json)
  | object (fields : List (String × Json))

namespace Json

/-- The truth values as they are written. -/
def boolText (b : Bool) : String := if b then "true" else "false"

/-- An array of strings. -/
def strings (items : List String) : Json := .array (items.map .string)

/-! ## 3. Compact text -/

mutual

/-- The text of a document, without any white space between tokens. -/
def compact : Json → String
  | .null => "null"
  | .bool b => boolText b
  | .number n => n.text
  | .string s => Text.quoted s
  | .array items => "[" ++ Text.joinWith "," (compactItems items) ++ "]"
  | .object fields => "\x7b" ++ Text.joinWith "," (compactFields fields) ++ "\x7d"

/-- The texts of the items of an array. -/
def compactItems : List Json → List String
  | [] => []
  | item :: rest => compact item :: compactItems rest

/-- The texts of the fields of an object. -/
def compactFields : Fields Json → List String
  | [] => []
  | (name, value) :: rest => (Text.quoted name ++ ":" ++ compact value) :: compactFields rest

end

end Json

end TableMapper
