import Sift.Classes
import Sift.Group
import Sift.Leaf
import Sift.Query

namespace Sift

structure Plan where
  options : Options
  whereTerms : List Criterion
  havingTerms : List Criterion
  orderBy : List (FieldRef × Direction)
  joins : List Step
  indexBy : Named String
  selectables : List Selectable
  /-- the entity behind each source, as far as it is known -/
  sources : Named String

namespace Plan

def targetOf (catalog : Catalog) (sources : Named String) (s : Step) : Option String := do
  let parent ← sources.get? s.parent
  let e ← catalog.entity? parent
  e.target? s.association

def addSource (catalog : Catalog) (sources : Named String) (s : Step) : Named String :=
  match targetOf catalog sources s with
  | some target => sources.put s.name target
  | none => sources

def prepare (catalog : Catalog) (criteria : Criteria) (order : OrderBy) : Except CriteriaError Plan := do
  let p ← Classes.ofCriteria criteria
  let r := Resolution.resolve (p.terms.map Criterion.field) order
  let sources := r.joins.values.foldl (addSource catalog) (Named.empty.put rootSource catalog.root.name)
  return {
    options := p.options, whereTerms := p.whereTerms, havingTerms := p.havingTerms
    orderBy := r.orderBy, joins := r.joins.values, indexBy := r.indexBy
    selectables := p.selectables, sources }

def terms (p : Plan) : List Criterion := p.whereTerms ++ p.havingTerms

def scope (p : Plan) (catalog : Catalog) : Scope := ⟨p.options.wildcards, catalog, p.sources⟩

/-- The type of a parameter: the one the key names, or that of a plain root field with a scalar. -/
def declaredType (catalog : Catalog) (c : Criterion) (f : FieldRef) (bound : Value) : Option FieldType :=
  match c.fieldType with
  | some t => some t
  | none =>
    if f.source ≠ rootSource || bound.isArray || c.template.isSome then none
    else catalog.root.typeOf? f.column

def bind (p : Plan) (catalog : Catalog) (q : Query) (c : Criterion) : Query :=
  if c.field = "" then q
  else match ((p.scope catalog).compile c).bound with
    | none => q
    | some v =>
      let f := Path.qualify c.field
      q.setParameter (Path.parameterName f c.index) v (declaredType catalog c f v)

/-- Zero limits nothing, as an offset too. -/
def page : Option Nat → Option Nat
  | some 0 => none
  | n => n

def joinOf (p : Plan) (s : Step) : Join :=
  ⟨s.parent, s.association, s.name, p.sources.get? s.name, p.indexBy.get? s.name⟩

/-- The query of a plan. Joins multiply root rows, so with joins the rows are grouped by the root
identifier; a count of different identifiers needs no grouping. -/
def assemble (catalog : Catalog) (p : Plan) (projection : Projection) (limit offset : Option Nat) :
    Except CriteriaError Query := do
  let leaf := fun c => ((p.scope catalog).compile c).condition
  let whereCondition ← Group.build leaf p.whereTerms
  let havingCondition ← Group.build leaf p.havingTerms
  let grouped := !p.joins.isEmpty && projection = .entity
  let q := { Query.select catalog.root.name rootSource (p.indexBy.get? rootSource) with
    projection
    joins := p.joins.map p.joinOf
    groupBy := if grouped then catalog.root.identifier.map (.plain rootSource) else []
    whereCondition, havingCondition }
  let q := p.terms.foldl (p.bind catalog) q
  let q := { q with orderBy := p.orderBy, maxResults := page limit, firstResult := page offset }
  return p.selectables.foldl Query.addSelectable q

end Plan

def Query.compile (catalog : Catalog) (criteria : Criteria) (order : OrderBy) (projection : Projection)
    (limit offset : Option Nat) : Except CriteriaError Query := do
  let p ← Plan.prepare catalog criteria order
  p.assemble catalog projection limit offset

end Sift
