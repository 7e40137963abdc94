import Sift.Coercion
import Sift.Proofs.Number.Reading
import Sift.Proofs.Wildcard
import Sift.Leaf
import Sift.Sql.Bound

namespace Sift

namespace Value

theorem raw_ne_backed (v w : Value) : v.raw ≠ .backed w := by
  match v with
  | .backed v =>
      rw [raw]
      exact raw_ne_backed v w
  | .null | .bool _ | .int _ | .float _ | .text _ | .array _ => simp [raw]

theorem mem_of_raw_eq_array {v : Value} {items : List Value} (h : v.raw = .array items) {w : Value}
    (hw : w ∈ items) : ∃ u : Value, u.raw = w := by
  match v with
  | .backed v =>
      rw [raw] at h
      exact mem_of_raw_eq_array h hw
  | .array us =>
      rw [raw, rawItems_eq_map, Value.array.injEq] at h
      rw [← h] at hw
      obtain ⟨u, -, hu⟩ := List.mem_map.1 hw
      exact ⟨u, hu⟩
  | .null | .bool _ | .int _ | .float _ | .text _ => simp [raw] at h

end Value

theorem Text.mem_dropWhile {p : Char → Bool} {cs : List Char} {c : Char} (hc : c ∈ cs) (hp : p c = false) :
    c ∈ cs.dropWhile p := by
  rw [← List.takeWhile_append_dropWhile (p := p) (l := cs), List.mem_append] at hc
  apply hc.resolve_left
  intro ht
  rw [List.all_eq_true.1 List.all_takeWhile c ht] at hp
  cases hp

theorem Text.mem_trim {cs : List Char} {c : Char} (hc : c ∈ cs) (hb : isBlank c = false) : c ∈ trim cs :=
  List.mem_reverse.2 (mem_dropWhile (List.mem_reverse.2 (mem_dropWhile hc hb)) hb)

namespace Coercion

theorem itemsToType_eq_map (t : FieldType) (items : List Value) :
    itemsToType t items = items.map (toType t) := by
  induction items with
  | nil => rfl
  | cons v items ih => rw [itemsToType, ih, List.map_cons]

theorem coerce_array (declared : Option FieldType) (items : List Value) :
    coerce declared (.array items) = .array (items.map (coerce declared)) := by
  cases declared with
  | none => exact congrArg Value.array (List.map_id items).symm
  | some t => exact congrArg Value.array (itemsToType_eq_map t items)

theorem numeric_of_truth? {cs : List Char} {b : Bool} (h : truth? cs = some b) :
    Number.Numeric (Text.trim cs) := by
  unfold truth? at h
  dsimp only at h
  split at h
  · rename_i hw
    rw [Bool.or_eq_true, decide_eq_true_iff, decide_eq_true_iff] at hw
    rcases hw with hw | hw <;> exact Number.numeric_of_word (by decide) hw
  · split at h
    · rename_i hw
      simp only [Bool.or_eq_true, decide_eq_true_iff] at hw
      rcases hw with (hw | hw) | hw <;> exact Number.numeric_of_word (by decide) hw
    · cases h

theorem numeric_of_scalar? {t : FieldType} {s : String} {w : Value} (h : scalar? t (.text s) = some w) :
    Number.Numeric (Text.trim s.toList) := by
  cases t with
  | integer =>
      obtain ⟨i, hi, -⟩ := Option.map_eq_some_iff.1 h
      exact Number.numeric_of_int64? hi
  | float =>
      obtain ⟨x, hx, -⟩ := Option.map_eq_some_iff.1 h
      exact Number.numeric_of_binary64? hx
  | boolean =>
      obtain ⟨b, hb, -⟩ := Option.map_eq_some_iff.1 h
      exact numeric_of_truth? hb
  | string | custom => cases h

/-- A text with a character that is neither blank nor for numbers is kept as it is. -/
theorem coerce_of_mem (declared : Option FieldType) {s : String} {c : Char} (hc : c ∈ s.toList)
    (hb : Text.isBlank c = false) (hn : Number.isNumeric c = false) : coerce declared (.text s) = .text s := by
  cases declared with
  | none => rfl
  | some t =>
      change (scalar? t (.text s)).getD (.text s) = .text s
      cases h : scalar? t (.text s) with
      | none => rfl
      | some w =>
          have ht := numeric_of_scalar? h c (Text.mem_trim hc hb)
          rw [hn] at ht
          cases ht

/-- No word for a number or a truth value begins like an anchored expression. -/
theorem coerce_anchored (declared : Option FieldType) {s : String} (h : s.toList.head? = some '^') :
    coerce declared (.text s) = .text s :=
  coerce_of_mem declared (List.mem_of_mem_head? h) rfl rfl

theorem eq_of_getD_map {α : Type} {f : α → Value} {o : Option α} {s u : String} (hf : ∀ a, f a ≠ .text s)
    (h : (o.map f).getD (.text u) = .text s) : u = s := by
  cases o with
  | none => exact Value.text.inj h
  | some a => exact absurd h (hf a)

/-- A text in a declared type was a text before, or it is as long as the text of the value as a
pattern but for a single digit. -/
theorem length_toType_text {t : FieldType} {v : Value} {s : String} (hv : ∀ w, v ≠ .backed w)
    (h : toType t v = .text s) : s.length ≤ (Scope.patternText v).length + 1 := by
  cases v with
  | null | array => simp [toType] at h
  | backed w => exact absurd rfl (hv w)
  | bool b =>
      cases t with
      | string =>
          have hs : (if b then "1" else "0") = s := by simpa [toType, scalar?] using h
          have hl : s.length = 1 := by rw [← hs]; cases b <;> rfl
          omega
      | integer | float | boolean | custom => simp [toType, scalar?] at h
  | int i =>
      cases t with
      | string =>
          have hs : toString i.toInt = s := by simpa [toType, scalar?] using h
          rw [← hs]
          exact Nat.le_succ _
      | integer | float | boolean | custom => simp [toType, scalar?] at h
  | float x =>
      cases t with
      | string =>
          have hs : x.plainText = s := by simpa [toType, scalar?] using h
          rw [← hs]
          exact Nat.le_succ _
      | integer =>
          simp only [toType, scalar?] at h
          split at h <;> cases h
      | float | boolean | custom => simp [toType, scalar?] at h
  | text u =>
      have hu : u = s := by
        cases t with
        | integer | float | boolean => exact eq_of_getD_map (by simp) h
        | string | custom => simpa [toType, scalar?] using h
      rw [← hu]
      exact Nat.le_succ _

def isOf : FieldType → Value → Bool
  | .integer, .int _ | .float, .float _ | .boolean, .bool _ | .string, .text _ => true
  | _, _ => false

theorem isOf_of_scalar? {t : FieldType} {v w : Value} (h : scalar? t v = some w) : isOf t w = true := by
  unfold scalar? at h
  split at h
  case h_2 | h_5 | h_7 =>
      obtain ⟨_, -, rfl⟩ := Option.map_eq_some_iff.1 h
      rfl
  case h_3 =>
      split at h
      · obtain rfl := Option.some.inj h
        rfl
      · cases h
  case h_11 => cases h
  all_goals
    obtain rfl := Option.some.inj h
    rfl

theorem toType_of_isOf {t : FieldType} {v : Value} (h : isOf t v = true) : toType t v = v := by
  unfold isOf at h
  split at h
  case h_5 => cases h
  all_goals rfl

theorem scalar?_ne_backed (t : FieldType) (v w : Value) : scalar? t v ≠ some (.backed w) := by
  intro h
  have hw := isOf_of_scalar? h
  cases t <;> cases hw

theorem toType_ne_backed (t : FieldType) (v w : Value) : toType t v ≠ .backed w := by
  match v with
  | .backed v =>
      rw [toType]
      exact toType_ne_backed t v w
  | .null | .array _ => simp [toType]
  | .bool _ | .int _ | .float _ | .text _ =>
      simp only [toType]
      cases h : scalar? t _ with
      | none => simp
      | some u =>
          rintro rfl
          exact scalar?_ne_backed _ _ _ h

/-- What a value is bound as is never the expression for a list that begins with it. -/
theorem ofValue_coerce_ne_anyOf (declared : Option FieldType) {v : Value} (hv : ∀ w, v ≠ .backed w)
    (texts : List String) :
    Sql.Bound.ofValue (coerce declared v) ≠ .text (Wildcard.anyOf (Scope.patternText v :: texts)) := by
  have hl := Wildcard.length_lt_anyOf (Scope.patternText v) texts
  cases hc : coerce declared v with
  | null | bool | int | float => simp [Sql.Bound.ofValue]
  | text s =>
      have hs : s.length ≤ (Scope.patternText v).length + 1 := by
        cases declared with
        | none =>
            obtain rfl : v = .text s := hc
            exact Nat.le_succ _
        | some t => exact length_toType_text hv hc
      intro he
      rw [Sql.Bound.ofValue, Sql.Bound.text.injEq] at he
      rw [← he] at hl
      omega
  | array items =>
      intro he
      rw [Sql.Bound.ofValue, Sql.Bound.text.injEq] at he
      have hh := Wildcard.head?_anyOf (Scope.patternText v :: texts)
      rw [← he, Json.print, String.toList_append, String.toList_append] at hh
      cases hh
  | backed w =>
      cases declared with
      | none => exact absurd hc (hv w)
      | some t => exact absurd hc (toType_ne_backed t v w)

end Coercion

end Sift
