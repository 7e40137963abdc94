import Sift.Comparator
import Sift.Text.Cut

namespace Sift

/-- A column of one source of rows, which a query knows by an alias. A template wraps it in a function:
its first `%s` stands for the column. -/
structure FieldRef where
  source : String
  column : String
  template : Option String
  deriving DecidableEq

namespace FieldRef

def plain (source column : String) : FieldRef := ⟨source, column, none⟩

def qualified (f : FieldRef) : String := f.source ++ "." ++ f.column

def apply (f : FieldRef) (column : String) : String :=
  match f.template with
  | none => column
  | some t => String.ofList (Text.replaceFirst ['%', 's'] column.toList t.toList)

def display (f : FieldRef) : String := f.apply f.qualified

end FieldRef

inductive Combinator where
  | all
  | any
  deriving DecidableEq

inductive Condition where
  | compare (field : FieldRef) (op : Comparator) (param : String)
  | isNull (field : FieldRef)
  | isIn (field : FieldRef) (param : String)
  | like (field : FieldRef) (param : String)
  | memberOf (param : String) (collection : FieldRef)
  | regexp (field : FieldRef) (param : String)
  | never
  | not (inner : Condition)
  | and (components : List Condition)
  | or (components : List Condition)
  deriving Inhabited

namespace Condition

def group : Combinator → List Condition → Condition
  | .all, components => .and components
  | .any, components => .or components

mutual

def parameterNames : Condition → List String
  | .compare _ _ param | .isIn _ param | .like _ param | .memberOf param _ | .regexp _ param => [param]
  | .isNull _ | .never => []
  | .not inner => inner.parameterNames
  | .and components | .or components => parameterNamesAll components

def parameterNamesAll : List Condition → List String
  | [] => []
  | c :: rest => c.parameterNames ++ parameterNamesAll rest

end

def displayGroup (junction empty : String) : List String → String
  | [] => empty
  | [one] => one
  | parts => "(" ++ (" " ++ junction ++ " ").intercalate parts ++ ")"

mutual

def display : Condition → String
  | .compare field op param => field.display ++ " " ++ op.symbol ++ " :" ++ param
  | .isNull field => field.display ++ " IS NULL"
  | .isIn field param => field.display ++ " IN(:" ++ param ++ ")"
  | .like field param => field.display ++ " LIKE :" ++ param
  | .memberOf param collection => ":" ++ param ++ " MEMBER OF " ++ collection.display
  | .regexp field param => "REGEXP(" ++ field.display ++ ", :" ++ param ++ ") = 1"
  | .never => "1 = 0"
  | .not inner => "NOT(" ++ inner.display ++ ")"
  | .and components => displayGroup "AND" "1 = 1" (displayAll components)
  | .or components => displayGroup "OR" "1 = 0" (displayAll components)

def displayAll : List Condition → List String
  | [] => []
  | c :: rest => c.display :: displayAll rest

end

/-- Both conditions; a conjunction takes the second one as a further member. -/
def conjoin : Option Condition → Condition → Condition
  | none, c => c
  | some (.and components), c => .and (components ++ [c])
  | some existing, c => .and [existing, c]

end Condition

end Sift
