/-
TableMapper.JsonSchema.Pointer — places inside a document.
-/

namespace TableMapper.JsonSchema

/-- The keys and indexes on the way from the root to a place. -/
abbrev Pointer := List String

namespace Pointer

/-- A key with its tildes and slashes escaped. -/
def escapeKey : List Char → List Char
  | [] => []
  | '~' :: cs => '~' :: '0' :: escapeKey cs
  | '/' :: cs => '~' :: '1' :: escapeKey cs
  | c :: cs => c :: escapeKey cs

/-- The written form: a slash before each key. -/
def text (p : Pointer) : String :=
  String.join (p.map fun key => "/" ++ String.ofList (escapeKey key.toList))

end Pointer

end TableMapper.JsonSchema
