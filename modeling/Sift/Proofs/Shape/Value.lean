import Sift.Proofs.Coercion
import Sift.Proofs.Leaf
import Sift.Proofs.Sql.Width

namespace Sift

/-- What shows of a value: whether it is null, and how long it is if it is a list. -/
inductive Shape where
  | null
  | scalar
  | list (length : Nat)
  deriving DecidableEq

namespace Value

def shape : Value → Shape
  | .null => .null
  | .array items => .list items.length
  | _ => .scalar

/-- Whether a value is a pattern where wildcards count: a text with a wildcard, or a list where the text of an
element has one. -/
def isPattern : Value → Bool
  | .text s => Wildcard.occurs s
  | .array items => (items.map Scope.patternText).any Wildcard.occurs
  | _ => false

structure Alike (wildcards : Bool) (v w : Value) : Prop where
  shape : v.raw.shape = w.raw.shape
  pattern : wildcards = true → v.raw.isPattern = w.raw.isPattern

theorem isNull_eq (v : Value) : v.isNull = decide (v.shape = .null) := by
  cases v <;> rfl

theorem isArray_eq (v : Value) : v.isArray = decide (v.shape ≠ .null ∧ v.shape ≠ .scalar) := by
  cases v <;> rfl

theorem binds_eq (v : Value) : v.binds = decide (v.shape ≠ .null ∧ v.shape ≠ .list 0) := by
  match v with
  | .array [] | .array (_ :: _) => rfl
  | .null | .bool _ | .int _ | .float _ | .text _ | .backed _ => rfl

theorem width_eq_of_shape {v w : Value} (h : v.shape = w.shape) : v.width = w.width := by
  have hw (v : Value) : v.width = match v.shape with
      | .list length => length
      | _ => 1 := by cases v <;> rfl
  rw [hw v, hw w, h]

theorem Alike.and_isPattern {wildcards : Bool} {v w : Value} (h : Alike wildcards v w) :
    (wildcards && v.raw.isPattern) = (wildcards && w.raw.isPattern) := by
  cases hw : wildcards with
  | false => rfl
  | true => exact h.pattern hw

end Value

namespace Coercion

theorem scalar?_ne_array (t : FieldType) (v : Value) (items : List Value) :
    scalar? t v ≠ some (.array items) := by
  intro h
  have hw := isOf_of_scalar? h
  cases t <;> cases hw

theorem width_getD_scalar? (t : FieldType) {v : Value} (hv : v.width = 1) :
    ((scalar? t v).getD v).width = 1 := by
  cases h : scalar? t v with
  | none => exact hv
  | some w =>
      cases w with
      | array items => exact absurd h (scalar?_ne_array t v items)
      | null | bool | int | float | text | backed => rfl

theorem width_coerce (declared : Option FieldType) {v : Value} (hv : ∀ w, v ≠ .backed w) :
    (coerce declared v).width = v.width := by
  cases declared with
  | none => rfl
  | some t =>
      cases v with
      | null => rfl
      | backed w => exact absurd rfl (hv w)
      | array items =>
          rw [coerce_array]
          exact List.length_map _
      | bool | int | float | text =>
          simp only [coerce, toType]
          exact width_getD_scalar? t rfl

end Coercion

namespace Scope

variable (s : Scope)

def testOf (c : Criterion) : Shape → Bool → Condition
  | .null, _ => .isNull { Path.qualify c.field with template := c.template }
  | .list 0, _ => .never
  | .list _, true => .regexp { Path.qualify c.field with template := c.template } c.parameterName
  | .list _, false => .isIn { Path.qualify c.field with template := c.template } c.parameterName
  | .scalar, true => .like { Path.qualify c.field with template := c.template } c.parameterName
  | .scalar, false =>
    if s.isCollection (Path.qualify c.field) && c.resolvedComparator = .eq then
      .memberOf c.parameterName { Path.qualify c.field with template := c.template }
    else .compare { Path.qualify c.field with template := c.template } c.resolvedComparator c.parameterName

theorem condition_test (c : Criterion) :
    (s.test c).condition = s.testOf c c.value.shape (s.wildcards && c.value.isPattern) := by
  cases hv : c.value with
  | null => simp [test, hv, testOf, Value.shape]
  | array items =>
      cases items with
      | nil => simp [test, hv, testOf, Value.shape]
      | cons v items =>
          simp only [test, hv, Value.isPattern, Value.shape, List.length_cons]
          cases s.wildcards && ((v :: items).map patternText).any Wildcard.occurs <;> rfl
  | text t =>
      simp only [test, hv, Value.isPattern, Value.shape]
      cases s.wildcards && Wildcard.occurs t with
      | true => rfl
      | false =>
          simp only [testOf, Bool.false_eq_true, if_false]
          split <;> rfl
  | bool | int | float | backed =>
      simp only [test, hv, Value.isPattern, Value.shape, Bool.and_false, testOf]
      split <;> rfl

theorem isTest_test (c : Criterion) : (s.test c).condition.isTest = true := by
  rw [condition_test]
  unfold testOf
  split <;> try rfl
  split <;> rfl

theorem tests_compile (c : Criterion) : (s.compile c).condition.tests = [(s.test c).condition] := by
  rw [compile, tests_negate, Condition.tests_of_isTest (s.isTest_test c)]

variable {s} in
/-- Only a collection is asked for its members. -/
theorem memberOf_test {c : Criterion} {param : String} {f : FieldRef}
    (h : (s.test c).condition = .memberOf param f) :
    f = { Path.qualify c.field with template := c.template } ∧
      s.isCollection (Path.qualify c.field) = true := by
  rw [condition_test] at h
  unfold testOf at h
  split at h <;> try cases h
  split at h
  · rename_i hc
    rw [Bool.and_eq_true] at hc
    exact ⟨(Condition.memberOf.inj h).2.symm, hc.1⟩
  · cases h

theorem shape_carried (v : Value) :
    (s.carried v).shape = if s.wildcards && v.isPattern then .scalar else v.shape := by
  cases v with
  | array items =>
      rw [carried]
      split
      · rename_i h
        exact (if_pos h).symm
      · rename_i h
        exact (if_neg h).symm
  | text t => exact (ite_self _).symm
  | null | bool | int | float | backed => simp [carried, Value.isPattern]

theorem carried_ne_backed {v : Value} (hv : ∀ w, v ≠ .backed w) (w : Value) : s.carried v ≠ .backed w := by
  cases v with
  | array items =>
      rw [carried]
      split <;> simp
  | null | bool | int | float | text | backed => exact hv w

end Scope

end Sift
