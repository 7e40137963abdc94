import Sift.Proofs.Comparison
import Sift.Proofs.Raw
import Sift.Proofs.Shape.Value

namespace Sift

namespace Value

/-- What stands at a place of a value, which is given by the positions in the lists around it, from the outside
in. -/
def at? : List Nat → Value → Option Value
  | [], v => some v
  | i :: path, .array items => items[i]?.bind (at? path)
  | _ :: _, _ => none

def isSingle : Value → Bool
  | .bool _ | .int _ | .float _ | .text _ => true
  | .null | .array _ | .backed _ => false

variable {v : Value}

theorem shape_of_isSingle (h : v.isSingle = true) : v.shape = .scalar := by
  cases v <;> first | rfl | cases h

theorem isUnwrapped_of_isSingle (h : v.isSingle = true) : v.isUnwrapped = true := by
  cases v <;> first | rfl | cases h

theorem at?_cons_of_isSingle (h : v.isSingle = true) (i : Nat) (path : List Nat) :
    v.at? (i :: path) = none := by
  cases v <;> first | rfl | cases h

theorem areUnwrapped_iff {items : List Value} :
    areUnwrapped items = true ↔ ∀ v ∈ items, v.isUnwrapped = true := by
  induction items with
  | nil => simp [areUnwrapped]
  | cons v items ih => rw [areUnwrapped, Bool.and_eq_true, ih, List.forall_mem_cons]

end Value

namespace Coercion

open Value (isUnwrapped isSingle at?)

variable {t : FieldType} {v : Value}

theorem isSingle_of_isOf (h : isOf t v = true) : v.isSingle = true := by
  cases t <;> cases v <;> first | rfl | cases h

/-- A single value stays as it is or becomes one of the type. -/
theorem toType_of_isSingle (h : v.isSingle = true) : toType t v = v ∨ isOf t (toType t v) = true := by
  have hv : toType t v = (scalar? t v).getD v := by
    cases v <;> first | rfl | cases h
  rw [hv]
  cases hs : scalar? t v with
  | none => exact .inl rfl
  | some w => exact .inr (isOf_of_scalar? hs)

theorem isSingle_toType (h : v.isSingle = true) : (toType t v).isSingle = true := by
  rcases toType_of_isSingle (t := t) h with hv | ht
  · rwa [hv]
  · exact isSingle_of_isOf ht

theorem toType_twice_of_isSingle (h : v.isSingle = true) : toType t (toType t v) = toType t v := by
  rcases toType_of_isSingle (t := t) h with hv | ht
  · rw [hv, hv]
  · exact toType_of_isOf ht

mutual

theorem toType_toType (t : FieldType) (v : Value) : toType t (toType t v) = toType t v := by
  match v with
  | .null => rfl
  | .array items => rw [toType, toType, itemsToType_itemsToType t items]
  | .backed v =>
      rw [toType]
      exact toType_toType t v
  | .bool _ | .int _ | .float _ | .text _ => exact toType_twice_of_isSingle rfl

theorem itemsToType_itemsToType (t : FieldType) (items : List Value) :
    itemsToType t (itemsToType t items) = itemsToType t items := by
  match items with
  | [] => rfl
  | v :: items => rw [itemsToType, itemsToType, toType_toType t v, itemsToType_itemsToType t items]

end

mutual

theorem isUnwrapped_toType (t : FieldType) (v : Value) : (toType t v).isUnwrapped = true := by
  match v with
  | .null => rfl
  | .array items =>
      rw [toType, isUnwrapped]
      exact areUnwrapped_itemsToType t items
  | .backed v =>
      rw [toType]
      exact isUnwrapped_toType t v
  | .bool _ | .int _ | .float _ | .text _ => exact Value.isUnwrapped_of_isSingle (isSingle_toType rfl)

theorem areUnwrapped_itemsToType (t : FieldType) (items : List Value) :
    Value.areUnwrapped (itemsToType t items) = true := by
  match items with
  | [] => rfl
  | v :: items =>
      rw [itemsToType, Value.areUnwrapped, isUnwrapped_toType t v, areUnwrapped_itemsToType t items]
      rfl

end

theorem shape_toType (hv : v.isUnwrapped = true) : (toType t v).shape = v.shape := by
  cases v with
  | null => rfl
  | array items => rw [toType, itemsToType_eq_map, Value.shape, Value.shape, List.length_map]
  | backed => cases hv
  | bool | int | float | text => exact Value.shape_of_isSingle (isSingle_toType rfl)

/-- What stands at a place of a converted value is what stood there, converted for itself. -/
theorem at?_toType (hv : v.isUnwrapped = true) (path : List Nat) :
    (toType t v).at? path = (v.at? path).map (toType t) := by
  induction path generalizing v with
  | nil => rfl
  | cons i path ih =>
      cases v with
      | null => rfl
      | array items =>
          rw [isUnwrapped, Value.areUnwrapped_iff] at hv
          rw [toType, itemsToType_eq_map, at?, at?, List.getElem?_map]
          cases hi : items[i]? with
          | none => rfl
          | some w => exact ih (hv w (List.mem_of_getElem? hi))
      | backed => cases hv
      | bool | int | float | text =>
          rw [Value.at?_cons_of_isSingle (isSingle_toType rfl), Value.at?_cons_of_isSingle rfl]
          rfl

theorem isUnwrapped_of_at? {path : List Nat} {w : Value} (hv : v.isUnwrapped = true)
    (h : v.at? path = some w) : w.isUnwrapped = true := by
  induction path generalizing v with
  | nil => exact Option.some.inj h ▸ hv
  | cons i path ih =>
      cases v with
      | array items =>
          rw [isUnwrapped, Value.areUnwrapped_iff] at hv
          obtain ⟨u, hu, h⟩ := Option.bind_eq_some_iff.1 h
          exact ih (hv u (List.mem_of_getElem? hu)) h
      | null | bool | int | float | text | backed => cases h

/-- Converting a value again changes nothing, and wrappers have no part in it. No wrapper is left, and at every
place there is a null where there was one, a list of the same length where there was one, and a single value
where there was one. -/
theorem coerce_form (t : FieldType) (v : Value) :
    coerce (some t) (coerce (some t) v) = coerce (some t) v ∧
      coerce (some t) v.raw = coerce (some t) v ∧
      (coerce (some t) v).isUnwrapped = true ∧
      ∀ path, ((coerce (some t) v).at? path).map Value.shape = (v.raw.at? path).map Value.shape := by
  refine ⟨toType_toType t v, toType_raw t v, isUnwrapped_toType t v, ?_⟩
  intro path
  have hv := v.isUnwrapped_raw
  rw [coerce, ← toType_raw, at?_toType hv, Option.map_map]
  apply Option.map_congr
  intro w hw
  exact shape_toType (isUnwrapped_of_at? hv hw)

end Coercion

end Sift
