import Sift.Proofs.Coercion.Form
import Sift.Proofs.Number.Exact

namespace Sift.Coercion

open Value (at?)

section Scalars

variable {x : Binary64} {i : Int64}

theorem toType_float (x : Binary64) :
    toType .integer (.float x) = if x.isWhole = true then .int x.toInt64 else .float x := by
  rw [show toType .integer (.float x) = (scalar? .integer (.float x)).getD (.float x) from rfl, scalar?]
  cases x.isWhole <;> rfl

/-- A double stays a double in an integer column if it is no whole number. -/
theorem toType_float_eq_iff : toType .integer (.float x) = .float x ↔ ∀ n, ¬ x.Denotes n := by
  rw [← not_exists, ← Binary64.isWhole_iff, toType_float]
  cases x.isWhole <;> simp

/-- A double stays the same number in an integer column unless it is a whole number beyond the words, of which it
becomes the first or the last. -/
theorem toType_float_exact_iff :
    (toType .integer (.float x) = .float x ∨
        ∃ j : Int64, toType .integer (.float x) = .int j ∧ x.Denotes j.toInt) ↔
      ∀ n, x.Denotes n → ∃ j : Int64, j.toInt = n := by
  rw [toType_float_eq_iff]
  constructor
  · rintro (hx | ⟨j, -, hj⟩) n hn
    · exact absurd hn (hx n)
    · exact ⟨j, hj.eq hn⟩
  · intro h
    by_cases hw : x.isWhole = true
    · obtain ⟨n, hn⟩ := Binary64.isWhole_iff.1 hw
      obtain ⟨j, rfl⟩ := h n hn
      refine .inr ⟨x.toInt64, ?_, Binary64.denotes_toInt64_iff.2 ⟨j, hn⟩⟩
      rw [toType_float, if_pos hw]
    · exact .inl (not_exists.1 (mt Binary64.isWhole_iff.2 hw))

/-- A word stays the same number in a float column if it fits in 53 bits once the zeros at its end are left
out. -/
theorem denotes_ofInt_word_iff :
    (Binary64.ofInt i.toInt).Denotes i.toInt ↔ ∃ m k, i.toInt.natAbs = m <<< k ∧ m < 1 <<< 53 := by
  have hl := i.le_toInt
  have hu := i.toInt_lt
  exact Binary64.denotes_ofInt_iff.trans (Binary64.exists_denotes_iff (by omega))

end Scalars

/-- Where numbers stand, at any depth, conversion to the other number type gives a number. It is the number that
stood there, a double that is no whole number being kept as it is, but for the whole doubles beyond the words and
the words that take more than 53 bits. -/
theorem coerce_number_exact_iff (v : Value) (path : List Nat) :
    (∀ x, v.raw.at? path = some (.float x) →
      ∃ w, (coerce (some .integer) v).at? path = some w ∧
        (w = .float x ↔ ∀ n, ¬ x.Denotes n) ∧
        ((w = .float x ∨ ∃ j : Int64, w = .int j ∧ x.Denotes j.toInt) ↔
          ∀ n, x.Denotes n → ∃ j : Int64, j.toInt = n)) ∧
    ∀ i, v.raw.at? path = some (.int i) →
      ∃ x, (coerce (some .float) v).at? path = some (.float x) ∧
        (x.Denotes i.toInt ↔ ∃ m k, i.toInt.natAbs = m <<< k ∧ m < 1 <<< 53) := by
  have hv := v.isUnwrapped_raw
  have ht : ∀ t, (coerce (some t) v).at? path = (v.raw.at? path).map (toType t) := by
    intro t
    rw [coerce, ← toType_raw, at?_toType hv]
  constructor
  · intro x hx
    exact ⟨_, by rw [ht, hx]; rfl, toType_float_eq_iff, toType_float_exact_iff⟩
  · intro i hi
    exact ⟨_, by rw [ht, hi]; rfl, denotes_ofInt_word_iff⟩

theorem coerce_number_exact_iff_nested :
    let three := Binary64.finite false (3 <<< 51) 1023 (by decide)
    let v : Value := .array [.int 7, .backed (.array [.backed (.float three), .int 5])]
    (∃ w, (coerce (some .integer) v).at? [1, 0] = some w ∧
        (w = .float three ∨ ∃ j : Int64, w = .int j ∧ three.Denotes j.toInt)) ∧
      ∃ x, (coerce (some .float) v).at? [1, 1] = some (.float x) ∧ x.Denotes 5 := by
  intro three v
  obtain ⟨w, hw, -, he⟩ := (coerce_number_exact_iff v [1, 0]).1 three rfl
  obtain ⟨x, hx, hi⟩ := (coerce_number_exact_iff v [1, 1]).2 5 rfl
  have ht : three.Denotes 3 := by decide
  exact ⟨⟨w, hw, he.2 fun n hn => ⟨3, ht.eq hn⟩⟩, x, hx, hi.2 ⟨5, 0, by decide, by decide⟩⟩

/-- The first double beyond the words becomes the last word, and the first word that takes 54 bits and is odd
loses its last one. -/
theorem not_coerce_exact :
    (¬∀ x : Binary64, x.isFinite = true →
        coerce (some .integer) (.float x) = .float x ∨
          ∃ j : Int64, coerce (some .integer) (.float x) = .int j ∧ x.Denotes j.toInt) ∧
      ¬∀ i : Int64,
        coerce (some .float) (.int i) = .int i ∨
          ∃ x, coerce (some .float) (.int i) = .float x ∧ x.Denotes i.toInt := by
  constructor
  · intro h
    rcases h (.finite false (1 <<< 52) 1085 (by decide)) rfl with hx | ⟨j, hj, hd⟩
    · cases hx
    · obtain rfl := Value.int.inj hj
      revert hd
      decide
  · intro h
    rcases h 9007199254740993 with hi | ⟨x, hx, hd⟩
    · cases hi
    · obtain rfl := Value.float.inj hx
      revert hd
      decide +kernel

end Sift.Coercion
