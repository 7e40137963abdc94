import Sift.Proofs.Except
import Sift.Value

namespace Sift

namespace Value

mutual

def isFinite : Value → Bool
  | .float x => x.isFinite
  | .array items => areFinite items
  | .backed v => v.isFinite
  | _ => true

def areFinite : List Value → Bool
  | [] => true
  | v :: rest => v.isFinite && areFinite rest

end

theorem ofInt_toInt (i : Int64) : ofInt i.toInt = .int i := by
  have hw : Number.IsWord i.toInt := by
    have hl := i.le_toInt
    have hu := i.toInt_lt
    simp only [Number.IsWord, Number.maxWord]
    omega
  rw [ofInt, Number.word?, if_pos hw, Int64.ofInt_toInt]

theorem toJson_ofInt_iff (i : Int) : (ofInt i).toJson = .int i ↔ Number.IsWord i := by
  by_cases hw : Number.IsWord i
  · have ht : (Int64.ofInt i).toInt = i := by
      apply Int64.toInt_ofInt_of_le <;> simp only [Number.IsWord, Number.maxWord] at hw <;> omega
    rw [ofInt, Number.word?, if_pos hw]
    exact iff_of_true (congrArg Json.int ht) hw
  · rw [ofInt, Number.word?, if_neg hw, toJson]
    exact iff_of_false (by split <;> simp) hw

theorem ofJsonItems_cons_eq_ok {j : Json} {js : List Json} {ws : List Value} :
    ofJsonItems (j :: js) = .ok ws ↔ ∃ v vs, ofJson j = .ok v ∧ ofJsonItems js = .ok vs ∧ v :: vs = ws := by
  simp only [ofJsonItems, Except.bind_eq_ok, Except.pure_eq_ok]
  constructor
  · rintro ⟨v, hv, vs, hvs, hw⟩
    exact ⟨v, vs, hv, hvs, hw⟩
  · rintro ⟨v, vs, hv, hvs, hw⟩
    exact ⟨v, hv, vs, hvs, hw⟩

mutual

theorem ofJson_toJson_iff (v : Value) : ofJson v.toJson = .ok v.raw ↔ v.isFinite = true := by
  match v with
  | .null | .bool _ | .text _ => exact iff_of_true rfl rfl
  | .int i => exact iff_of_true (congrArg Except.ok (ofInt_toInt i)) rfl
  | .float x =>
      rw [toJson, isFinite]
      cases hx : x.isFinite with
      | true => exact iff_of_true rfl rfl
      | false => exact iff_of_false (fun h => by cases h) Bool.false_ne_true
  | .array items =>
      rw [toJson, ofJson, raw, isFinite, Except.map_eq_ok, ← ofJsonItems_toJsonItems_iff items]
      simp
  | .backed v =>
      rw [toJson, raw, isFinite]
      exact ofJson_toJson_iff v

theorem ofJsonItems_toJsonItems_iff (vs : List Value) :
    ofJsonItems (toJsonItems vs) = .ok (rawItems vs) ↔ areFinite vs = true := by
  match vs with
  | [] => exact iff_of_true rfl rfl
  | v :: vs =>
      rw [toJsonItems, rawItems, areFinite, Bool.and_eq_true, ← ofJson_toJson_iff v,
        ← ofJsonItems_toJsonItems_iff vs, ofJsonItems_cons_eq_ok]
      simp

end

end Value

namespace Json

mutual

def isPlain : Json → Bool
  | .int i => decide (Number.IsWord i)
  | .float x => x.isFinite
  | .array items => arePlain items
  | .object _ => false
  | _ => true

def arePlain : List Json → Bool
  | [] => true
  | j :: rest => j.isPlain && arePlain rest

end

end Json

namespace Value

mutual

theorem toJson_ofJson_iff (j : Json) : (∃ v, ofJson j = .ok v ∧ v.toJson = j) ↔ j.isPlain = true := by
  match j with
  | .null => exact iff_of_true ⟨.null, rfl, rfl⟩ rfl
  | .bool b => exact iff_of_true ⟨.bool b, rfl, rfl⟩ rfl
  | .text s => exact iff_of_true ⟨.text s, rfl, rfl⟩ rfl
  | .int i => simp [ofJson, Json.isPlain, toJson_ofInt_iff]
  | .float x =>
      cases hx : x.isFinite <;> simp [ofJson, toJson, Json.isPlain, hx]
  | .array items =>
      rw [Json.isPlain, ← toJsonItems_ofJsonItems_iff items]
      simp [ofJson, Except.map_eq_ok, toJson]
  | .object members => exact iff_of_false (fun ⟨_, h, _⟩ => by cases h) Bool.false_ne_true

theorem toJsonItems_ofJsonItems_iff (js : List Json) :
    (∃ vs, ofJsonItems js = .ok vs ∧ toJsonItems vs = js) ↔ Json.arePlain js = true := by
  match js with
  | [] => exact iff_of_true ⟨[], rfl, rfl⟩ rfl
  | j :: js =>
      rw [Json.arePlain, Bool.and_eq_true, ← toJson_ofJson_iff j, ← toJsonItems_ofJsonItems_iff js]
      simp only [ofJsonItems_cons_eq_ok]
      constructor
      · rintro ⟨_, ⟨v, vs, hv, hvs, rfl⟩, he⟩
        rw [toJsonItems, List.cons.injEq] at he
        exact ⟨⟨v, hv, he.1⟩, vs, hvs, he.2⟩
      · rintro ⟨⟨v, hv, hj⟩, vs, hvs, hjs⟩
        exact ⟨v :: vs, ⟨v, vs, hv, hvs, rfl⟩, by rw [toJsonItems, hj, hjs]⟩

end

/-- Values and documents correspond. A value is read back from its document, without its wrappers, if
and only if all its numbers are finite; a document is that of the value read from it if and only if it
has no objects, its whole numbers are words and its other numbers are finite. -/
theorem json_inverse :
    (∀ v : Value, ofJson v.toJson = .ok v.raw ↔ v.isFinite = true) ∧
      ∀ j : Json, (∃ v, ofJson j = .ok v ∧ v.toJson = j) ↔ j.isPlain = true :=
  ⟨ofJson_toJson_iff, toJson_ofJson_iff⟩

end Value

end Sift
