import Sift.Condition

namespace Sift

def Combinator.combine : Combinator → List Bool → Bool
  | .all, bs => bs.all id
  | .any, bs => bs.any id

namespace Condition

def isTest : Condition → Bool
  | .not _ | .and _ | .or _ => false
  | _ => true

mutual

def tests : Condition → List Condition
  | .not inner => inner.tests
  | .and components | .or components => testsAll components
  | c => [c]

def testsAll : List Condition → List Condition
  | [] => []
  | c :: rest => c.tests ++ testsAll rest

end

mutual

/-- The truth of a condition whose single tests have the truth `truth`. -/
def holds (truth : Condition → Bool) : Condition → Bool
  | .not inner => !inner.holds truth
  | .and components => Combinator.all.combine (holdsEach truth components)
  | .or components => Combinator.any.combine (holdsEach truth components)
  | c => truth c

def holdsEach (truth : Condition → Bool) : List Condition → List Bool
  | [] => []
  | c :: rest => c.holds truth :: holdsEach truth rest

end

theorem testsAll_eq_flatMap (cs : List Condition) : testsAll cs = cs.flatMap tests := by
  induction cs with
  | nil => rfl
  | cons c cs ih => simp [testsAll, ih]

theorem holdsEach_eq_map (truth : Condition → Bool) (cs : List Condition) :
    holdsEach truth cs = cs.map (holds truth) := by
  induction cs with
  | nil => rfl
  | cons c cs ih => simp [holdsEach, ih]

@[simp] theorem tests_not (c : Condition) : (Condition.not c).tests = c.tests := by rw [tests]

@[simp] theorem tests_group (k : Combinator) (cs : List Condition) :
    (group k cs).tests = cs.flatMap tests := by
  cases k <;> simp [group, tests, testsAll_eq_flatMap]

@[simp] theorem holds_not (truth : Condition → Bool) (c : Condition) :
    (Condition.not c).holds truth = !c.holds truth := by rw [holds]

@[simp] theorem holds_group (truth : Condition → Bool) (k : Combinator) (cs : List Condition) :
    (group k cs).holds truth = k.combine (cs.map (holds truth)) := by
  cases k <;> simp [group, holds, holdsEach_eq_map]

theorem tests_of_isTest {c : Condition} (h : c.isTest = true) : c.tests = [c] := by
  cases c with
  | not | and | or => cases h
  | compare | isNull | isIn | like | memberOf | regexp | never => rw [tests] <;> simp

mutual

theorem parameterNames_eq_flatMap (c : Condition) :
    c.parameterNames = c.tests.flatMap parameterNames := by
  cases c with
  | not inner => rw [parameterNames, tests, parameterNames_eq_flatMap inner]
  | and components | or components =>
      rw [parameterNames, tests, parameterNamesAll_eq_flatMap components]
  | compare | isNull | isIn | like | memberOf | regexp | never => simp [tests]

theorem parameterNamesAll_eq_flatMap (cs : List Condition) :
    parameterNamesAll cs = (testsAll cs).flatMap parameterNames := by
  cases cs with
  | nil => rfl
  | cons c cs =>
      rw [parameterNamesAll, testsAll, List.flatMap_append, parameterNames_eq_flatMap c,
        parameterNamesAll_eq_flatMap cs]

end

theorem flatMap_parameterNames (cs : List Condition) :
    cs.flatMap parameterNames = (cs.flatMap tests).flatMap parameterNames := by
  rw [List.flatMap_assoc]
  exact congrArg cs.flatMap (funext parameterNames_eq_flatMap)

theorem parameterNamesAll_eq_flatMap_names (cs : List Condition) :
    parameterNamesAll cs = cs.flatMap parameterNames := by
  induction cs with
  | nil => rfl
  | cons c cs ih => rw [parameterNamesAll, ih, List.flatMap_cons]

@[simp] theorem parameterNames_group (k : Combinator) (cs : List Condition) :
    (group k cs).parameterNames = cs.flatMap parameterNames := by
  cases k <;> simp [group, parameterNames, parameterNamesAll_eq_flatMap_names]

end Condition

end Sift
