import Sift.Sql.Expr

namespace Sift.Sql

inductive Item where
  | column (source column : String)
  | allOf (source : String)
  | countDistinct (source column : String)
  deriving DecidableEq

def Item.isCount : Item → Bool
  | .countDistinct .. => true
  | .column .. | .allOf _ => false

structure TableJoin where
  table : String
  name : String
  column : String
  other : String
  otherColumn : String
  deriving DecidableEq

structure Select where
  items : List Item
  table : String
  name : String
  joins : List TableJoin
  filter : Option Expr
  groupBy : List (String × String)
  having : Option Expr
  orderBy : List (Expr × Bool)
  limit : Option Nat
  offset : Option Nat

structure FromClause where
  table : String
  name : String
  joins : List TableJoin

namespace Select

def fromClause (s : Select) : FromClause := ⟨s.table, s.name, s.joins⟩

/-- The expressions of a statement, in the order in which they are written. -/
def exprs (s : Select) : List Expr := s.filter.toList ++ s.having.toList ++ s.orderBy.map Prod.fst

end Select

inductive Statement where
  | rows (s : Select)
  | countOf (s : Select)

def Statement.select : Statement → Select
  | .rows s | .countOf s => s

/-- Joined rows that count as one, and the row that stands for them. A joined row has a row of each table. -/
structure Group (ρ : Type) where
  row : List ρ
  rows : List (List ρ)

def Group.single {ρ : Type} (r : List ρ) : Group ρ := ⟨r, [r]⟩

def countColumn : String := "count"

end Sift.Sql
