import Sift.Condition
import Sift.Sql.Bound

namespace Sift.Sql

/-- The keys of the rows that belong to an owner: `key` of the rows in `table` whose `column` equals the
key of the owner. -/
structure Members where
  table : String
  name : String
  key : String
  column : String
  owner : String
  ownerKey : String
  deriving DecidableEq

inductive Expr where
  | column (source column : String)
  | template (text source column : String)
  | bound (b : Bound)
  | compare (op : Comparator) (left right : Expr)
  | isIn (left : Expr) (items : List Bound)
  | inMembers (b : Bound) (members : Members)
  | isNull (e : Expr)
  | like (e : Expr) (pattern : String)
  | matches (e : Expr) (pattern : Bound)
  | not (e : Expr)
  | and (left right : Expr)
  | or (left right : Expr)
  deriving DecidableEq

def Expr.always (holds : Bool) : Expr :=
  .compare .eq (.bound (.constant 1)) (.bound (.constant (if holds then 1 else 0)))

/-- A test on rows as groups of tests. The flag of a group negates all of it. -/
inductive Filter where
  | test (e : Expr)
  | group (negated : Bool) (combinator : Combinator) (members : List Filter)

namespace Filter

def leaf (e : Expr) : Filter := .group false .all [.test e]

def negate : Filter → Filter
  | .test e => .group true .all [.test e]
  | .group negated combinator members => .group (!negated) combinator members

def combine : Combinator → Expr → Expr → Expr
  | .all => .and
  | .any => .or

mutual

def toExpr : Filter → Expr
  | .test e => e
  | .group negated combinator members =>
    let e := match toExprs members with
      | [] => Expr.always (combinator = .all)
      | e :: es => es.foldl (combine combinator) e
    if negated then .not e else e

def toExprs : List Filter → List Expr
  | [] => []
  | f :: rest => f.toExpr :: toExprs rest

end

end Filter

end Sift.Sql
