import Sift.Criteria

namespace Sift

inductive Projection where
  | entity
  | count
  deriving DecidableEq

structure Join where
  parent : String
  association : String
  name : String
  entity : Option String
  indexBy : Option String
  deriving DecidableEq

structure Parameter where
  value : Value
  declared : Option FieldType

structure Query where
  entity : String
  root : String
  indexBy : Option String
  projection : Projection
  joins : List Join
  groupBy : List FieldRef
  whereCondition : Option Condition
  havingCondition : Option Condition
  parameters : Named Parameter
  orderBy : List (FieldRef × Direction)
  maxResults : Option Nat
  firstResult : Option Nat

namespace Query

def select (entity root : String) (indexBy : Option String) : Query :=
  { entity, root, indexBy, projection := .entity, joins := [], groupBy := []
    whereCondition := none, havingCondition := none, parameters := Named.empty, orderBy := []
    maxResults := none, firstResult := none }

def andWhere (q : Query) (c : Condition) : Query :=
  { q with whereCondition := some (Condition.conjoin q.whereCondition c) }

def andHaving (q : Query) (c : Condition) : Query :=
  { q with havingCondition := some (Condition.conjoin q.havingCondition c) }

def setParameter (q : Query) (name : String) (v : Value) (declared : Option FieldType) : Query :=
  { q with parameters := q.parameters.put name ⟨v, declared⟩ }

def addOrder (q : Query) (f : FieldRef) (d : Direction) : Query :=
  { q with orderBy := q.orderBy ++ [(f, d)] }

/-- Adds compiled criteria. Their parameters take the place of others with the same name, and so does
their paging. -/
def addSelectable (q : Query) (s : Selectable) : Query :=
  let q := match s.filter with
    | some c => q.andWhere c
    | none => q
  let q := s.parameters.entries.foldl (fun q e => q.setParameter e.1 e.2 none) q
  let q := s.orderings.foldl (fun q e => q.addOrder e.1 e.2) q
  { q with firstResult := s.firstResult <|> q.firstResult, maxResults := s.maxResults <|> q.maxResults }

def displayIndex (source : String) : Option String → String
  | none => ""
  | some column => " INDEX BY " ++ source ++ "." ++ column

def Join.display (j : Join) : String :=
  " LEFT JOIN " ++ j.parent ++ "." ++ j.association ++ " " ++ j.name ++ displayIndex j.name j.indexBy

def clause (word : String) : List String → String
  | [] => ""
  | parts => " " ++ word ++ " " ++ ", ".intercalate parts

def display (q : Query) : String :=
  "SELECT " ++ (match q.projection with
    | .entity => q.root
    | .count => "COUNT(DISTINCT " ++ q.root ++ ")") ++
  " FROM " ++ q.entity ++ " " ++ q.root ++ displayIndex q.root q.indexBy ++
  String.join (q.joins.map Join.display) ++
  clause "WHERE" (q.whereCondition.map Condition.display).toList ++
  clause "GROUP BY" (q.groupBy.map FieldRef.display) ++
  clause "HAVING" (q.havingCondition.map Condition.display).toList ++
  clause "ORDER BY" (q.orderBy.map fun e => e.1.display ++ " " ++ e.2.name)

end Query

end Sift
