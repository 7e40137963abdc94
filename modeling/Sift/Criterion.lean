import Sift.Condition
import Sift.FieldType
import Sift.Value

namespace Sift

inductive Junctor where
  | opens (combinator : Combinator) (negated : Bool)
  | close
  deriving DecidableEq

/-- One filter term: a dotted path, the value it is compared with, and the operators around it. A
path may be empty in a term that only closes groups. -/
structure Criterion where
  field : String
  fieldType : Option FieldType
  value : Value
  negations : Nat
  junctors : List Junctor
  /-- none compiles as equality -/
  comparator : Option Comparator
  literal : Bool
  index : Nat
  /-- an aggregate template, which makes the term a condition on groups of rows -/
  groupFunction : Option String
  sqlFunction : Option String

namespace Criterion

def plain (field : String) (value : Value) : Criterion :=
  { field, value, fieldType := none, negations := 0, junctors := [], comparator := none
    literal := false, index := 0, groupFunction := none, sqlFunction := none }

def closer : Criterion := { plain "" (.bool true) with junctors := [.close] }

def isAggregate (c : Criterion) : Bool := c.groupFunction.isSome

def isNegated (c : Criterion) : Bool := c.negations != 0

def resolvedComparator (c : Criterion) : Comparator := c.comparator.getD .eq

def template (c : Criterion) : Option String := c.groupFunction <|> c.sqlFunction

end Criterion

/-- The rules of an explicit comparison: equality is not for null, and none is for an array. -/
def Comparator.check (op : Comparator) (key : String) (v : Value) : Except CriteriaError Unit :=
  if op = .eq && v.isNull then .error (.nullComparison key)
  else if v.isArray then .error (.arrayComparison key)
  else .ok ()

end Sift
