import Sift.Condition
import Sift.Json.Record

namespace Sift

namespace Comparator

def toJson (op : Comparator) : Json := .text op.name

def ofJson? (origin : Json.Origin) : Json → Option Comparator :=
  Json.unit? origin (all.map fun op => (op.name, op))

end Comparator

namespace FieldRef

def toJson (f : FieldRef) : Json :=
  .object ([("alias", .text f.source), ("column", .text f.column)] ++
    (f.template.map fun t => ("template", Json.text t)).toList)

def fieldNames : List String := ["alias", "column", "template"]

def ofJson? (j : Json) : Option FieldRef := do
  let r ← j.record? fieldNames
  let source ← r.required 0 Json.asText?
  let column ← r.required 1 Json.asText?
  let template ← r.withDefault 2 none (Json.Record.orNull Json.asText?)
  return ⟨source, column, template⟩

end FieldRef

namespace Condition

mutual

def toJson : Condition → Json
  | .compare field op param =>
    .object [("type", .text "compare"), ("field", field.toJson), ("op", op.toJson), ("param", .text param)]
  | .isNull field => .object [("type", .text "is_null"), ("field", field.toJson)]
  | .isIn field param => .object [("type", .text "in"), ("field", field.toJson), ("param", .text param)]
  | .like field param => .object [("type", .text "like"), ("field", field.toJson), ("param", .text param)]
  | .memberOf param collection =>
    .object [("type", .text "member_of"), ("param", .text param), ("collection", collection.toJson)]
  | .regexp field param =>
    .object [("type", .text "regexp_match"), ("field", field.toJson), ("param", .text param)]
  | .never => .object [("type", .text "false")]
  | .not inner => .object [("type", .text "not"), ("inner", inner.toJson)]
  | .and components => .object [("type", .text "and"), ("components", .array (toJsons components))]
  | .or components => .object [("type", .text "or"), ("components", .array (toJsons components))]

def toJsons : List Condition → List Json
  | [] => []
  | c :: rest => c.toJson :: toJsons rest

end

def tags : List String :=
  ["compare", "is_null", "in", "like", "member_of", "regexp_match", "false", "not", "and", "or"]

/-- What a part of a document holds: a condition, or a list of conditions. -/
structure Reading where
  one : Option Condition
  many : Option (List Condition)

inductive Parts where
  | named (parts : List (String × Reading))
  | placed (parts : List Reading)

def Parts.only? (name : String) : Parts → Option Reading
  | .named parts => parts.lookup name
  | .placed (_ :: r :: _) => some r
  | .placed _ => none

def onField (rest : Json) (make : FieldRef → Condition) : Option Condition := do
  let r ← rest.record? ["field"]
  let f ← r.required 0 FieldRef.ofJson?
  return make f

def onParameter (rest : Json) (make : FieldRef → String → Condition) : Option Condition := do
  let r ← rest.record? ["field", "param"]
  let f ← r.required 0 FieldRef.ofJson?
  let param ← r.required 1 Json.asText?
  return make f param

def onComparator (rest : Json) : Option Condition := do
  let r ← rest.record? ["field", "op", "param"]
  let f ← r.required 0 FieldRef.ofJson?
  let op ← r.required 1 (Comparator.ofJson? .copied)
  let param ← r.required 2 Json.asText?
  return .compare f op param

def onCollection (rest : Json) : Option Condition := do
  let r ← rest.record? ["param", "collection"]
  let param ← r.required 0 Json.asText?
  let f ← r.required 1 FieldRef.ofJson?
  return .memberOf param f

def isBare : Json → Bool
  | .array items => items.isEmpty
  | _ => true

def ofParts? (origin : Json.Origin) (j : Json) (parts : Parts) : Option Condition := do
  let (tag, rest) ← Json.tagged? origin "type" tags j
  match tag with
  | "compare" => onComparator rest
  | "is_null" => onField rest .isNull
  | "in" => onParameter rest .isIn
  | "like" => onParameter rest .like
  | "member_of" => onCollection rest
  | "regexp_match" => onParameter rest .regexp
  | "false" => if isBare rest then some .never else none
  | "not" =>
    let _ ← rest.record? ["inner"]
    let r ← parts.only? "inner"
    r.one.map .not
  | "and" =>
    let _ ← rest.record? ["components"]
    let r ← parts.only? "components"
    r.many.map .and
  | "or" =>
    let _ ← rest.record? ["components"]
    let r ← parts.only? "components"
    r.many.map .or
  | _ => none

mutual

/-- Reads a part of a document. Parts are read from copies. -/
def reading : Json → Reading
  | .object members => ⟨ofParts? .copied (.object members) (.named (readMembers members)), none⟩
  | .array items =>
    let parts := readItems items
    ⟨ofParts? .copied (.array items) (.placed parts), parts.mapM Reading.one⟩
  | _ => ⟨none, none⟩

def readMembers : List (String × Json) → List (String × Reading)
  | [] => []
  | (name, j) :: rest => (name, reading j) :: readMembers rest

def readItems : List Json → List Reading
  | [] => []
  | j :: rest => reading j :: readItems rest

end

def ofJson? : Json → Option Condition
  | .object members => ofParts? .direct (.object members) (.named (readMembers members))
  | .array items => ofParts? .direct (.array items) (.placed (readItems items))
  | _ => none

end Condition

end Sift
