import Sift.Codec.Condition
import Sift.Criteria

namespace Sift

def FieldType.toJson (t : FieldType) : Json := .text t.name

def FieldType.ofJson? (j : Json) : Option FieldType := (Json.asText? j).map FieldType.ofName

def Direction.toJson (d : Direction) : Json := .text d.name

def Direction.ofJson? (j : Json) : Option Direction := (Json.asText? j).bind Direction.ofName?

def Options.toJson (o : Options) : Json := .object [("LIKE", .bool o.wildcards)]

namespace OrderBy

def toRecord (order : OrderBy) : Json :=
  .object [("entries", .array (order.map fun e => .array [.text e.1, e.2.toJson]))]

def ofPair? : Json → Option (String × Direction)
  | .array [.text field, d] => (Direction.ofJson? d).map fun d => (field, d)
  | _ => none

/-- Reads a record of pairs, which is not the short form that callers write. -/
def ofRecord? (j : Json) : Option OrderBy := do
  let r ← j.record? ["entries"]
  r.required 0 (Json.asList? ofPair?)

end OrderBy

namespace Combinator

def name : Combinator → String
  | .all => "And"
  | .any => "Or"

def ofJson? : Json → Option Combinator := Json.unit? .direct [("And", .all), ("Or", .any)]

end Combinator

namespace Junctor

def toJson : Junctor → Json
  | .close => .text "Close"
  | .opens combinator negated =>
    .object [("Open", .object [("combinator", .text combinator.name), ("negated", .bool negated)])]

def ofJson? (j : Json) : Option Junctor := do
  let (name, payload) ← Json.variant? j
  match name, payload with
  | "Close", payload => if Json.isUnit .direct payload then some .close else none
  | "Open", some body =>
    let r ← body.record? ["combinator", "negated"]
    let combinator ← r.required 0 Combinator.ofJson?
    let negated ← r.required 1 Json.asBool?
    return .opens combinator negated
  | _, _ => none

end Junctor

def Junctor.shape : Json.Shape := .members (.ofFields ["combinator", "negated"])

def Value.ofJson? (j : Json) : Option Value :=
  match Value.ofJson j.unique with
  | .ok v => some v
  | .error _ => none

namespace Criterion

def fieldNames : List String :=
  ["field", "field_type", "value", "modifiers", "junctors", "comparator", "literal", "index",
    "group_function", "sql_function"]

def shape : Json.Shape :=
  .record (fieldNames.map fun name => (name, if name = "junctors" then .items Junctor.shape else .whole))

def orNull {α : Type} (f : α → Json) : Option α → Json
  | none => .null
  | some a => f a

def toJson (c : Criterion) : Json :=
  .object (fieldNames.zip [.text c.field, orNull FieldType.toJson c.fieldType, c.value.toJson,
    .array (List.replicate c.negations (.text "Not")), .array (c.junctors.map Junctor.toJson),
    orNull Comparator.toJson c.comparator, .bool c.literal, .int c.index,
    orNull Json.text c.groupFunction, orNull Json.text c.sqlFunction])

def ofJson? (j : Json) : Option Criterion := do
  let r ← j.record? fieldNames
  let field ← r.required 0 Json.asText?
  let fieldType ← r.nullable 1 FieldType.ofJson?
  let value ← r.required 2 Value.ofJson?
  let negations ← r.required 3 (Json.asList? (Json.unit? .direct [("Not", ())]))
  let junctors ← r.required 4 (Json.asList? Junctor.ofJson?)
  let comparator ← r.nullable 5 (Comparator.ofJson? .direct)
  let literal ← r.required 6 Json.asBool?
  let index ← r.required 7 Json.asNat?
  let groupFunction ← r.nullable 8 Json.asText?
  let sqlFunction ← r.nullable 9 Json.asText?
  return { field, fieldType, value, negations := negations.length, junctors, comparator, literal
           index, groupFunction, sqlFunction }

end Criterion

end Sift
