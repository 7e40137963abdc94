import Sift.Codec.Criterion
import Sift.Entity

namespace Sift

namespace Association

def toJson : Association → Json
  | .toOne target column =>
    .object [("kind", .text "to_one"), ("target", .text target), ("column", .text column)]
  | .toMany target mappedBy =>
    .object [("kind", .text "to_many"), ("target", .text target), ("mapped_by", .text mappedBy)]
  | .manyToMany target joinTable sourceColumn targetColumn =>
    .object [("kind", .text "many_to_many"), ("target", .text target), ("join_table", .text joinTable),
      ("source_column", .text sourceColumn), ("target_column", .text targetColumn)]

def ofJson? (j : Json) : Option Association := do
  let (tag, rest) ← Json.tagged? .direct "kind" ["to_one", "to_many", "many_to_many"] j
  match tag with
  | "to_one" =>
    let r ← rest.record? ["target", "column"]
    let target ← r.required 0 Json.asText?
    let column ← r.required 1 Json.asText?
    return .toOne target column
  | "to_many" =>
    let r ← rest.record? ["target", "mapped_by"]
    let target ← r.required 0 Json.asText?
    let mappedBy ← r.required 1 Json.asText?
    return .toMany target mappedBy
  | _ =>
    let r ← rest.record? ["target", "join_table", "source_column", "target_column"]
    let target ← r.required 0 Json.asText?
    let joinTable ← r.required 1 Json.asText?
    let sourceColumn ← r.required 2 Json.asText?
    let targetColumn ← r.required 3 Json.asText?
    return .manyToMany target joinTable sourceColumn targetColumn

end Association

namespace Entity

def toJson (e : Entity) : Json :=
  .object [("name", .text e.name), ("table", .text e.table),
    ("identifier", .array (e.identifier.map .text)),
    ("columns", .object (e.columns.entries.map fun c => (c.1, c.2.toJson))),
    ("associations", .object (e.associations.entries.map fun a => (a.1, a.2.toJson)))]

def fieldNames : List String := ["name", "table", "identifier", "columns", "associations"]

def ofJson? (j : Json) : Option Entity := do
  let r ← j.record? fieldNames
  let name ← r.withDefault 0 "" Json.asText?
  let table ← r.required 1 Json.asText?
  let identifier ← r.withDefault 2 defaultIdentifier (Json.asList? Json.asText?)
  let columns ← r.withDefault 3 [] (Json.asNamed? FieldType.ofJson?)
  let associations ← r.withDefault 4 [] (Json.asNamed? Association.ofJson?)
  return { name, table, identifier, columns := .ofList columns, associations := .ofList associations }

end Entity

namespace Schema

def toJson (s : Schema) : Json :=
  .object [("entities", .object (s.entities.entries.map fun e => (e.1, e.2.toJson)))]

def shape : Json.Shape := .record [("entities", .members (.ofFields Entity.fieldNames))]

def ofJson? (j : Json) : Option Schema := do
  let r ← j.record? ["entities"]
  let entities ← r.withDefault 0 [] (Json.asNamed? Entity.ofJson?)
  return ⟨.ofList entities⟩

end Schema

end Sift
