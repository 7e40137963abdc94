import Sift.Leaf
import Sift.Proofs.Condition

namespace Sift

def Value.binds : Value → Bool
  | .null | .array [] => false
  | _ => true

def Criterion.parameterName (c : Criterion) : String :=
  Path.parameterName (Path.qualify c.field) c.index

namespace Scope

theorem parameterNames_negate (n : Nat) (c : Condition) :
    (negate n c).parameterNames = c.parameterNames := by
  induction n generalizing c with
  | zero => rfl
  | succ n ih => rw [negate, ih, Condition.parameterNames]

theorem tests_negate (n : Nat) (c : Condition) : (negate n c).tests = c.tests := by
  induction n generalizing c with
  | zero => rfl
  | succ n ih => rw [negate, ih, Condition.tests_not]

def carried (s : Scope) (v : Value) : Value :=
  match v with
  | .array items =>
    if s.wildcards && (items.map patternText).any Wildcard.occurs then
      .text (Wildcard.anyOf (items.map patternText))
    else v
  | _ => v

/-- A test binds a parameter if and only if it names one, and then it names the one of its term. -/
theorem test_parameter (s : Scope) (c : Criterion) :
    (s.test c).bound = (if c.value.binds then some (s.carried c.value) else none) ∧
      (s.test c).condition.parameterNames = if c.value.binds then [c.parameterName] else [] := by
  cases hv : c.value with
  | null => simp [test, hv, Value.binds, Condition.parameterNames]
  | array items =>
      cases items with
      | nil => simp [test, hv, Value.binds, Condition.parameterNames]
      | cons v items =>
          simp only [test, hv, Value.binds, carried, if_true]
          split <;> simp [Condition.parameterNames, Criterion.parameterName]
  | text t =>
      simp only [test, hv, Value.binds, carried, if_true]
      split
      · simp [Condition.parameterNames, Criterion.parameterName]
      · split <;> simp [Condition.parameterNames, Criterion.parameterName]
  | bool | int | float | backed =>
      simp only [test, hv, Value.binds, carried, if_true]
      split <;> simp [Condition.parameterNames, Criterion.parameterName]

theorem bound_compile (s : Scope) (c : Criterion) :
    (s.compile c).bound = if c.value.binds then some (s.carried c.value) else none :=
  (test_parameter s c).1

theorem parameterNames_compile (s : Scope) (c : Criterion) :
    (s.compile c).condition.parameterNames = if c.value.binds then [c.parameterName] else [] := by
  rw [compile, parameterNames_negate]
  exact (test_parameter s c).2

end Scope

end Sift
