/-
TableMapper.Proofs.JsonSchema.ReasonReading — reading the reason of an
error back.

A reason is a fixed text for most violations, and has a name between
backticks for two of them. `ofReason?_message` says that the reader,
which knows the texts of all rules, gets back what is wrong from the
wording, the quoted name included.
-/
import Mathlib.Data.List.Infix
import TableMapper.JsonSchema.Basic

namespace TableMapper.JsonSchema.Violation

/-! ## 1. The reader -/

/-- The reasons without a name in them, each with what it says. -/
def fixedReasons : List (String × Violation) :=
  [("schema must be an object", .rootNotObject),
    ("schema must be an object or a boolean", .notSchema),
    ("`tsType` must be a string", .verbatimNotString),
    ("`enum` must be an array", .choiceNotArray),
    ("`tsEnumNames` must be an array of identifiers", .memberNamesNotIdentifiers),
    ("`tsEnumNames` must have one name per `enum` value", .memberNamesCount),
    ("expected an array of schemas", .branchesNotArray),
    ("`type` must be a type name or a non-empty list of type names", .typeNotNames),
    ("`type` must list type names", .typeListNotNames),
    ("`required` must be an array of strings", .requiredNotNames),
    ("`properties` must be an object", .propertiesNotObject),
    ("`additionalProperties` must be a boolean or a schema", .furtherNotSchema),
    ("`items` must be a schema or an array of schemas", .itemsNotSchema)]

/-- What stands in a text between a beginning and an end. -/
def between? (beginning ending text : String) : Option String :=
  ((text.toList.dropPrefix? beginning.toList).bind (·.dropSuffix? ending.toList)).map String.ofList

/-- What a reason says is wrong. -/
def ofReason? (reason : String) : Option Violation :=
  match between? "unknown type `" "`" reason with
  | some name => some (.unknownType name)
  | none => match between? "`" "` is not a valid type name" reason with
    | some name => some (.invalidName name)
    | none => fixedReasons.lookup reason

/-! ## 2. Reading the wording back -/

theorem between?_append (beginning name ending : String) :
    between? beginning ending (beginning ++ name ++ ending) = some name := by
  have hending : (name.toList ++ ending.toList).dropSuffix? ending.toList = some name.toList :=
    List.dropSuffix?_eq_some_iff.mpr ⟨ending.toList, rfl, beq_self_eq_true _⟩
  rw [between?, String.toList_append, String.toList_append, List.append_assoc,
    List.dropPrefix?_append_of_beq _ (beq_self_eq_true _), Option.bind_some, hending,
    Option.map_some, String.ofList_toList]

/-- A name that is not valid is not quoted as an unknown type is. -/
theorem between?_invalidName (name : String) :
    between? "unknown type `" "`" ("`" ++ name ++ "` is not a valid type name") = none := by
  rw [between?, String.append_assoc, String.toList_append]
  rfl

/-- What is wrong is read back from its wording. -/
theorem ofReason?_message (violation : Violation) :
    ofReason? violation.message = some violation := by
  cases violation with
  | unknownType name =>
    show ofReason? ("unknown type `" ++ name ++ "`") = _
    rw [ofReason?]
    simp only [between?_append]
  | invalidName name =>
    show ofReason? ("`" ++ name ++ "` is not a valid type name") = _
    rw [ofReason?]
    simp only [between?_invalidName, between?_append]
  | _ => decide +kernel

end TableMapper.JsonSchema.Violation
