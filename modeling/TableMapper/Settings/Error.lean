/-
TableMapper.Settings.Error — why a value is no configuration.
-/
import TableMapper.Text.Shown
import TableMapper.Yaml.Node

namespace TableMapper.Settings

open Yaml (Node)

/-- What a place asks for. -/
inductive Wanted where
  | text
  | boolean
  | sequence
  | map
  | variant
  | fieldName
  | key
  | record (name : String)
deriving DecidableEq, Repr

/-- The wording of what is asked for. -/
def Wanted.phrase : Wanted → String
  | .text => "a string"
  | .boolean => "a boolean"
  | .sequence => "a sequence"
  | .map => "a map"
  | .variant => "a Value::Tagged enum"
  | .fieldName => "field identifier"
  | .key => "a string key"
  | .record name => "struct " ++ name

/-- Text between backquotes. -/
def ticked (s : String) : String := "`" ++ s ++ "`"

/-- The written form of a number that is not whole. -/
def realText : Yaml.Real → String
  | .finite x => x.positionalText
  | .infinite negative => if negative then "-inf" else "inf"
  | .notANumber => "NaN"

/-- The wording of what stands at a place. -/
def foundPhrase : Node → String
  | .null => "unit value"
  | .bool b => "boolean " ++ ticked (Json.boolText b)
  | .whole n => "integer " ++ ticked (Number.wholeText n)
  | .real x => "floating point " ++ ticked (realText x)
  | .text s => "string " ++ Text.shown s
  | .sequence _ => "sequence"
  | .mapping _ => "map"

/-- Why a value is no configuration. -/
inductive ShapeError where
  | wrongKind (found : Node) (wanted : Wanted)
  | unknownField (name : String) (known : List String)
  | missingField (name : String)
  | unknownVariant (name : String)
  | noSchemaType

/-- The wording of the error. -/
def ShapeError.message : ShapeError → String
  | .wrongKind found wanted =>
    "invalid type: " ++ foundPhrase found ++ ", expected " ++ wanted.phrase
  | .unknownField name [known] => "unknown field " ++ ticked name ++ ", expected " ++ ticked known
  | .unknownField name known =>
    "unknown field " ++ ticked name ++ ", expected one of "
      ++ Text.joinWith ", " (known.map ticked)
  | .missingField name => "missing field " ++ ticked name
  | .unknownVariant name => "unknown variant " ++ ticked name ++ ", expected " ++ ticked "object"
  | .noSchemaType => "data did not match any variant of untagged enum SchemaType"

end TableMapper.Settings
