import Sift.Criterion
import Sift.Named
import Sift.Ordering

namespace Sift

def rootSource : String := "main"

/-- One step along an association, from the source `parent` to the source `name`. -/
structure Step where
  parent : String
  association : String
  name : String
  deriving DecidableEq

namespace Path

/-- The source and the column of a dotted path: the part before the last dot names the source, with
underscores for its dots. -/
def qualify (path : String) : FieldRef :=
  match Text.cutLast '.' path.toList with
  | some (source, column) =>
    .plain (String.ofList (Text.swap '.' '_' source)) (String.ofList column)
  | none => .plain rootSource path

def stepsFrom (parent : String) (done : List String) : List String → List Step
  | [] => []
  | association :: names =>
    let name := "_".intercalate (done ++ [association])
    ⟨parent, association, name⟩ :: stepsFrom name (done ++ [association]) names

def steps (path : String) : List Step :=
  stepsFrom rootSource [] (((Text.segments '.' path.toList).map String.ofList).dropLast)

def parameterName (f : FieldRef) (index : Nat) : String :=
  String.ofList (Text.swap '.' '_' (f.source ++ "_" ++ f.column ++ "_" ++ toString index).toList)

end Path

structure Resolution where
  joins : Named Step
  indexBy : Named String
  orderBy : List (FieldRef × Direction)

namespace Resolution

def empty : Resolution := ⟨Named.empty, Named.empty, []⟩

/-- Steps with a name that is there are taken to be there already. -/
def addPath (r : Resolution) (path : String) : Resolution :=
  { r with joins := (Path.steps path).foldl (fun joins s => joins.putNew s.name s) r.joins }

def addOrdering (r : Resolution) (key : String) (d : Direction) : Resolution :=
  let r := r.addPath key
  let f := Path.qualify key
  match d with
  | .index => { r with indexBy := r.indexBy.put f.source f.column }
  | d => { r with orderBy := r.orderBy ++ [(f, d)] }

def resolve (fields : List String) (order : OrderBy) : Resolution :=
  order.foldl (fun r e => r.addOrdering e.1 e.2) (fields.foldl addPath empty)

end Resolution

end Sift
