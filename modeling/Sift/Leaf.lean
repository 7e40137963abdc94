import Sift.Entity
import Sift.Path
import Sift.Wildcard

namespace Sift

structure Leaf where
  condition : Condition
  bound : Option Value

/-- What terms are compiled against. `sources` names the entity behind each source. -/
structure Scope where
  wildcards : Bool
  catalog : Catalog
  sources : Named String

namespace Scope

def isCollection (s : Scope) (f : FieldRef) : Bool :=
  if f.source = rootSource then s.catalog.root.isCollection f.column
  else ((s.sources.get? f.source).bind s.catalog.entity?).any (·.isCollection f.column)

def patternText : Value → String
  | .text s => s
  | .null => ""
  | .bool b => if b then "1" else ""
  | v => v.display

/-- The test without the negations of the term. Null and the empty list bind nothing. A list with
wildcards is bound as one pattern. -/
def test (s : Scope) (c : Criterion) : Leaf :=
  let plain := Path.qualify c.field
  let param := Path.parameterName plain c.index
  let field := { plain with template := c.template }
  let op := c.resolvedComparator
  let scalar : Leaf :=
    if s.isCollection plain && op = .eq then ⟨.memberOf param field, some c.value⟩
    else ⟨.compare field op param, some c.value⟩
  match c.value with
  | .null => ⟨.isNull field, none⟩
  | .array [] => ⟨.never, none⟩
  | .array items =>
    let texts := items.map patternText
    if s.wildcards && texts.any Wildcard.occurs then
      ⟨.regexp field param, some (.text (Wildcard.anyOf texts))⟩
    else ⟨.isIn field param, some c.value⟩
  | .text t =>
    if s.wildcards && Wildcard.occurs t then ⟨.like field param, some c.value⟩ else scalar
  | _ => scalar

def negate : Nat → Condition → Condition
  | 0, c => c
  | n + 1, c => negate n (.not c)

def compile (s : Scope) (c : Criterion) : Leaf :=
  let leaf := s.test c
  { leaf with condition := negate c.negations leaf.condition }

end Scope

end Sift
