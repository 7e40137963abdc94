import Sift.Proofs.Coercion
import Sift.Proofs.Sql.Render

namespace Sift

namespace Value

def wraps (kind : Value → Bool) : Value → Bool
  | .backed v => kind v.raw
  | _ => false

mutual

theorem toJson_raw (v : Value) : v.raw.toJson = v.toJson := by
  match v with
  | .backed v =>
      rw [raw, toJson]
      exact toJson_raw v
  | .array items => rw [raw, toJson, toJson, toJsonItems_rawItems items]
  | .null | .bool _ | .int _ | .float _ | .text _ => rfl

theorem toJsonItems_rawItems (vs : List Value) : toJsonItems (rawItems vs) = toJsonItems vs := by
  match vs with
  | [] => rfl
  | v :: vs => rw [rawItems, toJsonItems, toJsonItems, toJson_raw v, toJsonItems_rawItems vs]

end

mutual

theorem display_raw (v : Value) : v.raw.display = v.display := by
  match v with
  | .backed v =>
      rw [raw, display]
      exact display_raw v
  | .array items => rw [raw, display, display, displayItems_rawItems items]
  | .null | .bool _ | .int _ | .float _ | .text _ => rfl

theorem displayItems_rawItems (vs : List Value) : displayItems (rawItems vs) = displayItems vs := by
  match vs with
  | [] => rfl
  | v :: vs => rw [rawItems, displayItems, displayItems, display_raw v, displayItems_rawItems vs]

end

/-- The key of a value is that of what it stands for, unless it is a wrapped text, which is shown in quotes, or
a wrapped null, which is shown by its name. -/
theorem indexKey_raw_iff (v : Value) :
    v.raw.indexKey = v.indexKey ↔ v.wraps (fun w => w.isNull || w.text?.isSome) = false := by
  cases v with
  | null | bool | int | float | text => exact iff_of_true rfl rfl
  | array items => exact iff_of_true (display_raw (.array items)) rfl
  | backed v =>
      rw [raw, wraps]
      change v.raw.indexKey = v.display ↔ _
      rw [← display_raw]
      cases h : v.raw with
      | null => exact iff_of_false (by decide) (by decide)
      | text s =>
          refine iff_of_false ?_ (by simp [isNull, text?])
          intro he
          have hq : "'".length = 1 := by decide
          have hl := congrArg String.length he
          simp only [indexKey, display, String.length_append, hq] at hl
          omega
      | bool | int | float | array => exact iff_of_true rfl rfl
      | backed w => exact absurd h (raw_ne_backed v w)

end Value

namespace Coercion

mutual

theorem toType_raw (t : FieldType) (v : Value) : toType t v.raw = toType t v := by
  match v with
  | .backed v =>
      rw [Value.raw, toType]
      exact toType_raw t v
  | .array items => rw [Value.raw, toType, toType, itemsToType_rawItems t items]
  | .null | .bool _ | .int _ | .float _ | .text _ => rfl

theorem itemsToType_rawItems (t : FieldType) (vs : List Value) :
    itemsToType t (Value.rawItems vs) = itemsToType t vs := by
  match vs with
  | [] => rfl
  | v :: vs => rw [Value.rawItems, itemsToType, itemsToType, toType_raw t v, itemsToType_rawItems t vs]

end

end Coercion

namespace Sql.Bound

theorem ofValue_raw (v : Value) : ofValue v.raw = ofValue v := by
  match v with
  | .backed v =>
      rw [Value.raw, ofValue]
      exact ofValue_raw v
  | .array items => rw [Value.raw, ofValue, ofValue, Value.toJsonItems_rawItems]
  | .null | .bool _ | .int _ | .float _ | .text _ => rfl

theorem length_le_quoted (s : String) : s.length ≤ (Json.quoted s).length := by
  have he (cs : List Char) : cs.length ≤ (cs.flatMap Json.escape).length := by
    induction cs with
    | nil => exact Nat.le_refl 0
    | cons c cs ih =>
        have hc : 1 ≤ (Json.escape c).length := by
          unfold Json.escape
          split_ifs <;> simp
        rw [List.flatMap_cons, List.length_append, List.length_cons]
        omega
  have hs := he s.toList
  rw [Json.quoted, String.length_ofList, List.length_append, List.length_cons, ← String.length_toList]
  omega

theorem length_le_print {v : Value} {s : String} (h : ofValue v = .text s) :
    s.length ≤ v.toJson.print.length := by
  rw [← ofValue_raw] at h
  rw [← Value.toJson_raw]
  cases hv : v.raw with
  | text t =>
      rw [hv] at h
      obtain rfl := Bound.text.inj h
      rw [Value.toJson, Json.print]
      exact length_le_quoted t
  | array items =>
      rw [hv] at h
      obtain rfl := Bound.text.inj h
      exact Nat.le_refl _
  | backed w => exact absurd hv (Value.raw_ne_backed v w)
  | null | bool | int | float =>
      rw [hv] at h
      cases h

/-- The text of a list of one value is longer than the text that the value is bound as. -/
theorem ofValue_ne_singleton (v : Value) : ofValue v ≠ ofValue (.array [v]) := by
  intro h
  have hl := length_le_print (s := (Json.array (Value.toJsonItems [v])).print) h
  have ho : "[".length = 1 := by decide
  have hj : ",".intercalate [v.toJson.print] = v.toJson.print := by simp
  rw [Value.toJsonItems, Value.toJsonItems, Json.print, Json.printItems, Json.printItems, hj,
    String.length_append, String.length_append, ho] at hl
  omega

end Sql.Bound

end Sift
