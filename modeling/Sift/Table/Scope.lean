import Sift.Sql.Expr
import Sift.Table.Basic
import Sift.Table.Phrase
import Sift.Table.Term

namespace Sift.Table

structure Source where
  name : String
  columns : List String

structure Scope where
  db : Database
  sources : List Source

namespace Scope

def candidates (x : Scope) (source : Option String) : List (Source × Nat) :=
  x.sources.zipIdx.filter fun (s, _) => source.all (sameName s.name)

def slot (x : Scope) (source : Option String) (column : String) : Except SqlError Slot :=
  match (x.candidates source).filterMap fun (s, i) => (place? s.columns column).map (Slot.mk i) with
  | [s] => .ok s
  | _ => .error .database

def nameOf (x : Scope) (s : Slot) : String :=
  ((x.sources[s.source]?).bind (·.columns[s.column]?)).getD ""

/-- A function by its name. Aggregates are only known where groups are looked at, and not inside each
other. -/
def call (aggregates : Bool) (name : String) (distinct : Bool) : Option Term → Except SqlError Term
  | none =>
    if aggregates && name = "count" && !distinct then .ok .rowCount else .error .database
  | some t =>
    match Function.all.lookup name, Aggregate.all.lookup name with
    | some f, _ => .ok (.apply f t)
    | none, some f => if aggregates then .ok (.aggregate f distinct t) else .error .database
    | none, none => .error .database

def phrase (x : Scope) (aggregates : Bool) : Phrase → Except SqlError Term
  | .column source name => (x.slot source name).map .slot
  | .literal c => .ok (.const c)
  | .call f distinct none => call aggregates f.toLower distinct none
  | .call f distinct (some arg) => do
    let inner := aggregates && (Aggregate.all.lookup f.toLower).isNone
    let t ← phrase x inner arg
    call aggregates f.toLower distinct (some t)

def members (x : Scope) (m : Sql.Members) : Except SqlError (List (Cell × Cell) × Slot) := do
  let some t := x.db.table? m.table | throw .database
  let inner : Scope := { x with sources := [⟨m.name, t.columns⟩] }
  let key ← inner.slot (some m.name) m.key
  let link ← inner.slot (some m.name) m.column
  let owner ← x.slot (some m.owner) m.ownerKey
  return (t.rows.map fun cells => (Row.cell [cells] key, Row.cell [cells] link), owner)

def term (x : Scope) (aggregates : Bool) : Sql.Expr → Except SqlError Term
  | .column source column => (x.slot (some source) column).map .slot
  | .template text source column =>
    let f : FieldRef := ⟨source, column, some text⟩
    match Phrase.ofText? (f.apply (Sql.Dialect.sqlite.qualify source column)) with
    | some p => x.phrase aggregates p
    | none => .error .database
  | .bound b => .ok (.const (.ofBound b))
  | .compare op left right => do
    let l ← x.term aggregates left
    let r ← x.term aggregates right
    return .compare op l r
  | .isIn left items => do return .isIn (← x.term aggregates left) (items.map .ofBound)
  | .inMembers b m => do
    let (pairs, owner) ← x.members m
    return .isMember (.ofBound b) pairs owner
  | .isNull e => do return .isNull (← x.term aggregates e)
  | .like e pattern => do return .like (← x.term aggregates e) pattern
  | .matches e pattern => do return .matches (← x.term aggregates e) (.ofBound pattern)
  | .not e => do return .not (← x.term aggregates e)
  | .and left right => do
    let l ← x.term aggregates left
    let r ← x.term aggregates right
    return .and l r
  | .or left right => do
    let l ← x.term aggregates left
    let r ← x.term aggregates right
    return .or l r

def term? (x : Scope) (aggregates : Bool) : Option Sql.Expr → Except SqlError (Option Term)
  | none => .ok none
  | some e => (x.term aggregates e).map some

end Scope

end Sift.Table
