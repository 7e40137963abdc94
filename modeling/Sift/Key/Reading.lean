import Sift.Key.Operators

namespace Sift.Key

def splitMark (mark : Char) (cs : List Char) : List Char × Option (List Char) :=
  match Text.cutFirst mark cs with
  | some (before, []) => (before, none)
  | some (before, after) => (before, some after)
  | none => (cs, none)

/-- Reads `operators field.path :type #inline @aggregate`. The marks are split off from the back, the
aggregate first, so a template may hold the marks of what stands before it. -/
def read (key : String) (value : Value) (index : Nat) : Except CriteriaError Criterion := do
  let value := value.raw
  let (rest, groupFunction) := splitMark '@' key.toList
  let (rest, sqlFunction) := splitMark '#' rest
  let (rest, fieldType) := splitMark ':' rest
  let field := String.ofList (rest.dropWhile isOperator)
  let ops ← reduce field value maxPasses .none (rest.takeWhile isOperator)
  return {
    field, value, index
    fieldType := fieldType.map fun t => FieldType.ofName (String.ofList t)
    negations := ops.negations
    junctors := ops.junctors
    comparator := ops.comparator
    literal := false
    groupFunction := groupFunction.map String.ofList
    sqlFunction := sqlFunction.map String.ofList }

end Sift.Key
