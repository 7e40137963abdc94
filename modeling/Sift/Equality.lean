import Sift.Plan

namespace Sift

/-- A conjunction of root fields with the values they have. Null asks for a field that is null, an
array for one of its elements. -/
abbrev EqualityFilter := List (String × Value)

namespace EqualityFilter

def hasWildcards (v : Value) : Bool := v.text?.any Wildcard.occurs

def isPlain (catalog : Catalog) (wildcards : Bool) (c : Criterion) : Bool :=
  !c.isNegated && c.junctors.isEmpty && c.comparator.isNone && c.template.isNone &&
    c.fieldType.isNone && c.field ≠ "" && !catalog.root.isCollection c.field &&
    match c.value with
    | .array [] => false
    | .array items => !(wildcards && items.any hasWildcards)
    | v => !(wildcards && hasWildcards v)

def ofPlan? (catalog : Catalog) (p : Plan) : Option EqualityFilter :=
  if p.joins.isEmpty && p.indexBy.entries.isEmpty && p.selectables.isEmpty && p.havingTerms.isEmpty &&
      p.whereTerms.all (isPlain catalog p.options.wildcards) then
    some (p.whereTerms.map fun c => (c.field, c.value))
  else none

/-- Adds the test of one field, the term of that number. Its value has the type of the root column. -/
def addTerm (root : Entity) (index : Nat) (field : String) (v : Value) (q : Query) : Query × Condition :=
  let f := Path.qualify field
  let name := Path.parameterName f index
  match v with
  | .null => (q, .isNull f)
  | .array _ => (q.setParameter name v (root.columns.get? f.column), .isIn f name)
  | _ => (q.setParameter name v (root.columns.get? f.column), .compare f .eq name)

def addTerms (root : Entity) (index : Nat) (q : Query) : EqualityFilter → Query × List Condition
  | [] => (q, [])
  | (field, v) :: rest =>
    let (q, c) := addTerm root index field v q
    let (q, cs) := addTerms root (index + 1) q rest
    (q, c :: cs)

def toQuery (root : Entity) (filter : EqualityFilter) (order : OrderBy) (limit offset : Option Nat)
    (projection : Projection) : Query :=
  let (q, terms) := addTerms root 0 { Query.select root.name rootSource none with projection } filter
  let q := if terms.isEmpty then q else q.andWhere (.and terms)
  { q with
    orderBy := (order.filter fun e => e.2 ≠ .index).map fun e => (Path.qualify e.1, e.2)
    maxResults := Plan.page limit
    firstResult := Plan.page offset }

end EqualityFilter

end Sift
