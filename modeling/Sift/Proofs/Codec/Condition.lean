import Sift.Codec.Condition
import Sift.Proofs.Json.Document

namespace Sift

theorem Comparator.ofJson?_toJson (origin : Json.Origin) (op : Comparator) :
    Comparator.ofJson? origin op.toJson = some op := by
  cases origin <;> cases op <;> rfl

theorem FieldRef.ofJson?_toJson (f : FieldRef) : FieldRef.ofJson? f.toJson = some f := by
  obtain ⟨source, column, template⟩ := f
  cases template <;> rfl

theorem FieldRef.member?_template_toJson (f : FieldRef) :
    f.toJson.member? "template" = f.template.map .text := by
  obtain ⟨source, column, template⟩ := f
  cases template <;> rfl

theorem FieldRef.isWorded_toJson (f : FieldRef) : f.toJson.isWorded = true := by
  obtain ⟨source, column, template⟩ := f
  cases template <;> rfl

namespace Condition

def words : Condition → List String
  | .compare .. => ["compare"]
  | .isNull _ => ["is", "null"]
  | .isIn .. => ["in"]
  | .like .. => ["like"]
  | .memberOf .. => ["member", "of"]
  | .regexp .. => ["regexp", "match"]
  | .never => ["false"]
  | .not _ => ["not"]
  | .and _ => ["and"]
  | .or _ => ["or"]

def tag (c : Condition) : String := "_".intercalate c.words

def members : Condition → List (String × Json)
  | .compare field op param => [("field", field.toJson), ("op", op.toJson), ("param", .text param)]
  | .isNull field => [("field", field.toJson)]
  | .isIn field param | .like field param | .regexp field param =>
    [("field", field.toJson), ("param", .text param)]
  | .memberOf param collection => [("param", .text param), ("collection", collection.toJson)]
  | .never => []
  | .not inner => [("inner", inner.toJson)]
  | .and components | .or components => [("components", .array (toJsons components))]

theorem toJson_eq (c : Condition) : c.toJson = .object (("type", .text c.tag) :: c.members) := by
  cases c <;> rfl

theorem tagged?_toJson (origin : Json.Origin) (c : Condition) :
    Json.tagged? origin "type" tags c.toJson = some (c.tag, .object c.members) := by
  cases c <;> rfl

theorem onField_members (field : FieldRef) (make : FieldRef → Condition) :
    onField (.object [("field", field.toJson)]) make = some (make field) := by
  change (FieldRef.ofJson? field.toJson).bind (fun f => some (make f)) = some (make field)
  rw [FieldRef.ofJson?_toJson, Option.bind_some]

theorem onParameter_members (field : FieldRef) (param : String) (make : FieldRef → String → Condition) :
    onParameter (.object [("field", field.toJson), ("param", .text param)]) make =
      some (make field param) := by
  change (FieldRef.ofJson? field.toJson).bind (fun f => some (make f param)) = some (make field param)
  rw [FieldRef.ofJson?_toJson, Option.bind_some]

theorem onComparator_members (field : FieldRef) (op : Comparator) (param : String) :
    onComparator (.object (members (.compare field op param))) = some (.compare field op param) := by
  change (FieldRef.ofJson? field.toJson).bind (fun f =>
    (Comparator.ofJson? .copied op.toJson).bind fun op => some (Condition.compare f op param)) = _
  rw [FieldRef.ofJson?_toJson, Comparator.ofJson?_toJson, Option.bind_some, Option.bind_some]

theorem onCollection_members (param : String) (collection : FieldRef) :
    onCollection (.object (members (.memberOf param collection))) = some (.memberOf param collection) := by
  change (FieldRef.ofJson? collection.toJson).bind (fun f => some (Condition.memberOf param f)) = _
  rw [FieldRef.ofJson?_toJson, Option.bind_some]

def parts (c : Condition) : Parts := .named (readMembers (("type", .text c.tag) :: c.members))

theorem one_reading_toJson (c : Condition) :
    (reading c.toJson).one = ofParts? .copied c.toJson c.parts := by
  rw [toJson_eq]
  rfl

mutual

theorem ofParts?_toJson (origin : Json.Origin) (c : Condition) :
    ofParts? origin c.toJson c.parts = some c := by
  rw [ofParts?, tagged?_toJson]
  match c with
  | .compare field op param => exact onComparator_members field op param
  | .isNull field => exact onField_members field .isNull
  | .isIn field param => exact onParameter_members field param .isIn
  | .like field param => exact onParameter_members field param .like
  | .memberOf param collection => exact onCollection_members param collection
  | .regexp field param => exact onParameter_members field param .regexp
  | .never => rfl
  | .not inner =>
      change (reading inner.toJson).one.map Condition.not = _
      rw [one_reading_toJson, ofParts?_toJson .copied inner, Option.map_some]
  | .and components =>
      change ((readItems (toJsons components)).mapM Reading.one).map Condition.and = _
      rw [mapM_readItems_toJsons components, Option.map_some]
  | .or components =>
      change ((readItems (toJsons components)).mapM Reading.one).map Condition.or = _
      rw [mapM_readItems_toJsons components, Option.map_some]

theorem mapM_readItems_toJsons (cs : List Condition) :
    (readItems (toJsons cs)).mapM Reading.one = some cs := by
  match cs with
  | [] => rfl
  | c :: cs =>
      rw [toJsons, readItems, List.mapM_cons, one_reading_toJson, ofParts?_toJson .copied c,
        mapM_readItems_toJsons cs]
      rfl

end

theorem ofJson?_toJson (c : Condition) : ofJson? c.toJson = some c := by
  have h := ofParts?_toJson .direct c
  rw [toJson_eq] at h ⊢
  exact h

mutual

theorem isWorded_toJson (c : Condition) : c.toJson.isWorded = true := by
  match c with
  | .compare field op param =>
      simp [toJson, Json.isWorded, Json.membersWorded, FieldRef.isWorded_toJson, Comparator.toJson]
  | .isNull field | .isIn field param | .like field param | .memberOf param field
  | .regexp field param => simp [toJson, Json.isWorded, Json.membersWorded, FieldRef.isWorded_toJson]
  | .never => rfl
  | .not inner => simp [toJson, Json.isWorded, Json.membersWorded, isWorded_toJson inner]
  | .and components | .or components =>
      simp [toJson, Json.isWorded, Json.membersWorded, areWorded_toJsons components]

theorem areWorded_toJsons (cs : List Condition) : Json.areWorded (toJsons cs) = true := by
  match cs with
  | [] => rfl
  | c :: cs => rw [toJsons, Json.areWorded, isWorded_toJson c, areWorded_toJsons cs, Bool.and_self]

end

theorem bind_ofJson?_read?_print (c : Condition) :
    (Json.read? c.toJson.print.toList).bind ofJson? =
      if c.toJson.nesting ≤ Json.Document.depthLimit then some c else none := by
  rw [Json.read?_print (isWorded_toJson c)]
  split
  · rw [Option.bind_some, ofJson?_toJson]
  · rw [Option.bind_none]

/-- A condition is read back from its document, however deep. It is read back from the text of the
document unless that is nested deeper than readers go. The document has a tag of lower-case words joined
by underscores, comparators in lower case, and a template where there is one. -/
theorem json_roundTrip :
    (∀ c : Condition, ofJson? c.toJson = some c ∧
      ((Json.read? c.toJson.print.toList).bind ofJson? = some c ↔
        c.toJson.nesting ≤ Json.Document.depthLimit) ∧
      c.toJson.member? "type" = some (.text ("_".intercalate c.words)) ∧
      ∀ w ∈ c.words, w.toList.all Char.isLower = true) ∧
    (∀ op : Comparator, op.toJson = .text op.name ∧ op.name.toList.all Char.isLower = true) ∧
    ∀ f : FieldRef, f.toJson.member? "template" = f.template.map .text := by
  refine ⟨fun c => ⟨ofJson?_toJson c, ?_, ?_, ?_⟩, fun op => ⟨rfl, ?_⟩, FieldRef.member?_template_toJson⟩
  · rw [bind_ofJson?_read?_print]
    exact ite_eq_left_iff.trans (by simp)
  · cases c <;> rfl
  · cases c <;> simp [words]
  · cases op <;> rfl

end Condition

end Sift
