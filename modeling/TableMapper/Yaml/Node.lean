/-
TableMapper.Yaml.Node — the values of a YAML document.
-/
import TableMapper.Json.Basic

namespace TableMapper.Yaml

/-- A number that is not whole, or an infinity, or no number at all. -/
inductive Real where
  | finite (x : Binary64)
  | infinite (negative : Bool)
  | notANumber
deriving DecidableEq, Repr

/-- A value. The keys of a mapping are values of any kind. -/
inductive Node where
  | null
  | bool (b : Bool)
  | whole (n : Int)
  | real (x : Real)
  | text (s : String)
  | sequence (items : List Node)
  | mapping (entries : List (Node × Node))

namespace Node

mutual

/-- The value of a JSON document. -/
def ofJson : Json → Node
  | .null => .null
  | .bool b => .bool b
  | .number (.whole n) => .whole n
  | .number (.double x) => .real (.finite x)
  | .string s => .text s
  | .array items => .sequence (ofItems items)
  | .object fields => .mapping (ofFields fields)

/-- The values of the items of an array. -/
def ofItems : List Json → List Node
  | [] => []
  | item :: rest => ofJson item :: ofItems rest

/-- The entries for the fields of an object. -/
def ofFields : List (String × Json) → List (Node × Node)
  | [] => []
  | (name, value) :: rest => (.text name, ofJson value) :: ofFields rest

end

end Node

end TableMapper.Yaml
