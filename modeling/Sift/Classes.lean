import Sift.Criteria
import Sift.Key.Reading

namespace Sift

/-- Criteria after reading: terms on rows, terms on groups of rows, and what is passed through. The
depths count the groups that are open in each class. -/
structure Classes where
  options : Options
  whereTerms : List Criterion
  havingTerms : List Criterion
  selectables : List Selectable
  whereDepth : Nat
  havingDepth : Nat

namespace Classes

def start (o : Options) : Classes := ⟨o, [], [], [], 0, 0⟩

def terms (p : Classes) : List Criterion := p.whereTerms ++ p.havingTerms

def nextIndex (p : Classes) : Nat := p.whereTerms.length + p.havingTerms.length

def nest (depth : Nat) (js : List Junctor) : Nat :=
  js.foldl (fun depth j => match j with
    | .opens .. => depth + 1
    | .close => depth - 1) depth

/-- Aggregates are conditions on groups. A term without a field goes where a group is open, to the
rows first. -/
def goesToHaving (p : Classes) (c : Criterion) : Bool :=
  c.isAggregate || (c.field = "" && p.whereDepth = 0 && 0 < p.havingDepth)

def push (p : Classes) (c : Criterion) : Classes :=
  if p.goesToHaving c then
    { p with havingTerms := p.havingTerms ++ [c], havingDepth := nest p.havingDepth c.junctors }
  else
    { p with whereTerms := p.whereTerms ++ [c], whereDepth := nest p.whereDepth c.junctors }

/-- Reads one entry. A term that was built beforehand obeys the same rules as one with a key. -/
def add (p : Classes) : Entry → Except CriteriaError Classes
  | .options _ => .ok p
  | .term key value => do
    let c ← Key.read key value p.nextIndex
    return p.push c
  | .criterion c => do
    if let some op := c.comparator then op.check c.field c.value
    return p.push { c with index := p.nextIndex, value := c.value.raw, literal := false }
  | .selectable s => .ok { p with selectables := p.selectables ++ [s] }

def ofCriteria (cs : Criteria) : Except CriteriaError Classes := do
  let o ← cs.options
  cs.foldlM add (start o)

end Classes

end Sift
