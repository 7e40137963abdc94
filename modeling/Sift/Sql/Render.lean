import Sift.Coercion
import Sift.Entity
import Sift.Query
import Sift.Sql.Error
import Sift.Sql.Writer

namespace Sift

namespace Schema

def require (s : Schema) (key : String) : Except SqlError Entity :=
  match s.entity? key with
  | some e => .ok e
  | none => .error (.unknownEntity key)

def association (s : Schema) (owner : Entity) (field : String) : Except SqlError (Association × Entity) :=
  match owner.associations.get? field with
  | none => .error (.unknownAssociation owner.name field)
  | some a => do
    let target ← s.require a.target
    return (a, target)

end Schema

def Entity.key (e : Entity) : Except SqlError String :=
  match e.identifier with
  | k :: _ => .ok k
  | [] => .error (.missingIdentifier e.name)

namespace Sql

/-- What is needed to write the conditions of a query. `sources` holds the entity of each source. -/
structure Context where
  schema : Schema
  dialect : Dialect
  parameters : Named Parameter
  sources : Named Entity

namespace Context

def parameter (x : Context) (name : String) : Except SqlError Value :=
  match x.parameters.get? name with
  | some p => .ok (Coercion.coerce p.declared p.value)
  | none => .error (.missingParameter name)

def scalar (x : Context) (name : String) : Except SqlError Bound := (x.parameter name).map .ofValue

def field (f : FieldRef) : Expr :=
  match f.template with
  | some t => .template t f.source f.column
  | none => .column f.source f.column

def source (x : Context) (name : String) : Except SqlError Entity :=
  match x.sources.get? name with
  | some e => .ok e
  | none => .error (.unknownAlias name)

def memberTest (x : Context) (b : Bound) (f : FieldRef) : Except SqlError Expr := do
  let owner ← x.source f.source
  let ownerKey ← owner.key
  let (a, target) ← x.schema.association owner f.column
  let name := f.source ++ "_" ++ f.column ++ "__member"
  match a with
  | .toOne _ column => return .compare .eq (.column f.source column) (.bound b)
  | .toMany _ mappedBy =>
    let key ← target.key
    return .inMembers b ⟨target.table, name, key, mappedBy, f.source, ownerKey⟩
  | .manyToMany _ joinTable sourceColumn targetColumn =>
    return .inMembers b ⟨joinTable, name, targetColumn, sourceColumn, f.source, ownerKey⟩

def leaf (x : Context) : Condition → Except SqlError Expr
  | .compare f op param => do
    let b ← x.scalar param
    return .compare op (field f) (.bound b)
  | .isIn f param => do
    match ← x.parameter param with
    | .array [] => return .always false
    | .array items => return .isIn (field f) (items.map .ofValue)
    | v => return .isIn (field f) [.ofValue v]
  | .like f param => do
    let v ← x.parameter param
    return .like (field f) v.indexKey
  | .regexp f param => do
    let b ← x.scalar param
    let matched := Expr.matches (field f) b
    return if x.dialect.patternIsBoolean then matched
      else .compare .eq matched (.bound (.constant 1))
  | .memberOf param f => do
    let b ← x.scalar param
    x.memberTest b f
  | .isNull f => return .isNull (field f)
  | _ => return .always false

mutual

/-- The filter of a condition. Groups without members become tests of constants. -/
def filter (x : Context) : Condition → Except SqlError Filter
  | .and [] => .ok (.leaf (.always true))
  | .or [] => .ok (.leaf (.always false))
  | .and components => (filters x components).map (.group false .all)
  | .or components => (filters x components).map (.group false .any)
  | .not inner => (filter x inner).map .negate
  | c => (x.leaf c).map .leaf

def filters (x : Context) : List Condition → Except SqlError (List Filter)
  | [] => .ok []
  | c :: rest => do
    let f ← filter x c
    let fs ← filters x rest
    return f :: fs

end

def expr (x : Context) (c : Condition) : Except SqlError Expr := (x.filter c).map Filter.toExpr

def expr? (x : Context) : Option Condition → Except SqlError (Option Expr)
  | none => .ok none
  | some c => (x.expr c).map some

end Context

/-- The joins of tables that one join along an association takes, and the entity it leads to. An
association through a table of pairs takes two. -/
def joinTables (schema : Schema) (sources : Named Entity) (j : Join) :
    Except SqlError (List TableJoin × Entity) := do
  let parent ← match sources.get? j.parent with
    | some e => .ok e
    | none => .error (.unknownAlias j.parent)
  let (a, target) ← schema.association parent j.association
  let key ← target.key
  match a with
  | .toOne _ column => return ([⟨target.table, j.name, key, j.parent, column⟩], target)
  | .toMany _ mappedBy =>
    let parentKey ← parent.key
    return ([⟨target.table, j.name, mappedBy, j.parent, parentKey⟩], target)
  | .manyToMany _ joinTable sourceColumn targetColumn =>
    let parentKey ← parent.key
    let link := j.name ++ "__link"
    return ([⟨joinTable, link, sourceColumn, j.parent, parentKey⟩,
      ⟨target.table, j.name, key, link, targetColumn⟩], target)

def addJoin (schema : Schema) (done : Named Entity × List TableJoin) (j : Join) :
    Except SqlError (Named Entity × List TableJoin) := do
  let (tables, target) ← joinTables schema done.1 j
  return (done.1.put j.name target, done.2 ++ tables)

/-- The columns of an entity, all there are if none are declared, and the column that rows are indexed
by if it is not among them. -/
def entityItems (q : Query) (root : Entity) : List Item :=
  if root.columns.entries.isEmpty then [.allOf q.root]
  else
    root.columns.names.map (.column q.root) ++
      match q.indexBy with
      | some column => if root.columns.contains column then [] else [.column q.root column]
      | none => []

def orderItems (q : Query) : List (Expr × Bool) :=
  (q.orderBy.filter fun e => e.2 ≠ .index).map fun e => (Context.field e.1, e.2 = .desc)

def maxRows : Nat := Number.maxWord

def limitOf (d : Dialect) (q : Query) : Option Nat :=
  match q.maxResults, q.firstResult with
  | none, some _ => if d.needsLimitForOffset then some maxRows else none
  | limit, _ => limit

def groupItems (q : Query) (root : Entity) : List (String × String) :=
  if q.groupBy.isEmpty && q.havingCondition.isSome then root.identifier.map fun i => (q.root, i)
  else q.groupBy.map fun f => (f.source, f.column)

/-- Counts the different values of the identifier; if it has several fields, or there is a condition on
groups, the groups are counted. -/
def countStatement (x : Context) (q : Query) (root : Entity) (base : Select) : Except SqlError Statement :=
  match root.identifier, q.havingCondition with
  | [], _ => .error (.missingIdentifier root.name)
  | [identifier], none => .ok (.rows { base with items := [.countDistinct q.root identifier] })
  | identifiers, _ => do
    let having ← x.expr? q.havingCondition
    return .countOf { base with
      items := identifiers.map (.column q.root)
      groupBy := identifiers.map fun i => (q.root, i)
      having }

def render (schema : Schema) (d : Dialect) (q : Query) : Except SqlError Statement := do
  let root ← schema.require q.entity
  let (sources, joins) ← q.joins.foldlM (addJoin schema) (Named.empty.put q.root root, [])
  let x : Context := ⟨schema, d, q.parameters, sources⟩
  let filter ← x.expr? q.whereCondition
  let base : Select :=
    { items := [], table := root.table, name := q.root, joins, filter, groupBy := [], having := none
      orderBy := [], limit := none, offset := none }
  match q.projection with
  | .count => countStatement x q root base
  | .entity =>
    let having ← x.expr? q.havingCondition
    return .rows { base with
      items := entityItems q root
      groupBy := groupItems q root
      having
      orderBy := orderItems q
      limit := limitOf d q
      offset := q.firstResult }

structure Prepared where
  text : String
  values : List Bound
  deriving DecidableEq

def build (schema : Schema) (d : Dialect) (q : Query) : Except SqlError Prepared := do
  let s ← render schema d q
  let ps := d.statement s
  return ⟨d.prepare ps, Piece.values ps⟩

def inlined (schema : Schema) (d : Dialect) (q : Query) : Except SqlError String := do
  let s ← render schema d q
  return d.inline (d.statement s)

end Sql

end Sift
