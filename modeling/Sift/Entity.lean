import Sift.FieldType
import Sift.Named

namespace Sift

inductive Association where
  /-- a column of the owner holds the identifier of the target -/
  | toOne (target column : String)
  /-- a column of the target holds the identifier of the owner -/
  | toMany (target mappedBy : String)
  /-- pairs of identifiers stand in a table of their own -/
  | manyToMany (target joinTable sourceColumn targetColumn : String)
  deriving DecidableEq

namespace Association

def target : Association → String
  | .toOne target _ | .toMany target _ | .manyToMany target _ _ _ => target

def isCollection : Association → Bool
  | .toOne .. => false
  | _ => true

end Association

structure Entity where
  name : String
  table : String
  identifier : List String
  columns : Named FieldType
  associations : Named Association

namespace Entity

def defaultIdentifier : List String := ["id"]

def typeOf? (e : Entity) (field : String) : Option FieldType := e.columns.get? field

def target? (e : Entity) (field : String) : Option String :=
  (e.associations.get? field).map Association.target

def isCollection (e : Entity) (field : String) : Bool :=
  (e.associations.get? field).any Association.isCollection

end Entity

/-- Entities by key. The key is the name unless it was stored otherwise. -/
structure Schema where
  entities : Named Entity

namespace Schema

def empty : Schema := ⟨Named.empty⟩

def entity? (s : Schema) (key : String) : Option Entity := s.entities.get? key

def add (s : Schema) (key : String) (e : Entity) : Schema := ⟨s.entities.put key e⟩

def named (s : Schema) : Schema :=
  ⟨s.entities.mapEntries fun key e => if e.name = "" then { e with name := key } else e⟩

end Schema

structure Catalog where
  schema : Schema
  root : Entity

/-- The root answers to its own name, all others to their keys. -/
def Catalog.entity? (c : Catalog) (name : String) : Option Entity :=
  if name = c.root.name then some c.root else c.schema.entity? name

end Sift
