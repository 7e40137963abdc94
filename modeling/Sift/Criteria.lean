import Sift.Criterion
import Sift.Json.Record
import Sift.Named
import Sift.Ordering

namespace Sift

structure Options where
  /-- whether `%` and `_` in texts are wildcards unless escaped -/
  wildcards : Bool
  deriving DecidableEq

namespace Options

def default : Options := ⟨false⟩

def like : Options := ⟨true⟩

def ofJson? (j : Json) : Option Options := do
  let r ← j.record? ["LIKE"]
  let wildcards ← r.withDefault 0 false Json.asBool?
  return ⟨wildcards⟩

end Options

/-- Criteria that were compiled elsewhere. They are added to a query as they are, after all else. -/
structure Selectable where
  filter : Option Condition
  parameters : Named Value
  orderings : List (FieldRef × Direction)
  firstResult : Option Nat
  maxResults : Option Nat

namespace Selectable

def empty : Selectable := ⟨none, Named.empty, [], none, none⟩

def andWhere (s : Selectable) (c : Condition) : Selectable :=
  { s with filter := some (match s.filter with
    | some existing => .and [existing, c]
    | none => c) }

def parameter (s : Selectable) (name : String) (v : Value) : Selectable :=
  { s with parameters := s.parameters.put name v }

def orderBy (s : Selectable) (f : FieldRef) (d : Direction) : Selectable :=
  { s with orderings := s.orderings ++ [(f, d)] }

end Selectable

inductive Entry where
  | options (o : Options)
  | term (key : String) (value : Value)
  | criterion (c : Criterion)
  | selectable (s : Selectable)

/-- An ordered list of criteria. The order counts: groups reach from one term to another, and options
are only taken in the first place. -/
abbrev Criteria := List Entry

namespace Criteria

def withOptions (o : Options) : Criteria → Criteria
  | .options _ :: rest => .options o :: rest
  | entries => .options o :: entries

def isOptions : Entry → Bool
  | .options _ => true
  | _ => false

def options (cs : Criteria) : Except CriteriaError Options :=
  if cs.tail.any isOptions then .error .misplacedOptions
  else match cs with
    | .options o :: _ => .ok o
    | _ => .ok .default

def optionsKey : String := "__OPTIONS__"

def pair : Json → Except CriteriaError (String × Json)
  | .object [m] => .ok m
  | j => .error (.decode (.pairShape j))

def isNumbered (key : String) : Bool := key ≠ "" && key.toList.all Char.isDigit

/-- The key and value of an entry. Numbers as keys, and places in an array, hold a pair of their own. -/
def unwrap : Option String × Json → Except CriteriaError (String × Json)
  | (some key, j) => if isNumbered key then pair j else .ok (key, j)
  | (none, j) => pair j

def entryOf (first : Bool) (key : String) (j : Json) : Except CriteriaError Entry :=
  if key = optionsKey then
    if first then
      match Options.ofJson? j with
      | some o => .ok (.options o)
      | none => .error .json
    else .error .misplacedOptions
  else
    match Value.ofJson j with
    | .ok v => .ok (.term key v)
    | .error e => .error (e.withKey key)

def entriesOf (first : Bool) : List (Option String × Json) → Except CriteriaError Criteria
  | [] => .ok []
  | p :: rest => do
    let (key, j) ← unwrap p
    let e ← entryOf first key j
    let es ← entriesOf false rest
    return e :: es

def ofJson : Json → Except CriteriaError Criteria
  | .null => .ok []
  | .object members => entriesOf true (members.map fun m => (some m.1, m.2))
  | .array items => entriesOf true (items.map fun j => (none, j))
  | j => .error (.decode (.criteriaShape j))

end Criteria

end Sift
