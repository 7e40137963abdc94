import Sift.Sql.Statement
import Sift.Table.Scope

namespace Sift.Table

def maxSources : Nat := 64

def sourceTable (db : Database) (table name : String) : Except SqlError (String × Table) :=
  match db.table? table with
  | some t => .ok (name, t)
  | none => .error .database

def sourceTables (db : Database) (f : Sql.FromClause) : Except SqlError (List (String × Table)) := do
  let first ← sourceTable db f.table f.name
  let joined ← f.joins.mapM fun j => sourceTable db j.table j.name
  return first :: joined

structure Link where
  rows : List (List Cell)
  left : Slot
  right : Slot

namespace Link

def fits (l : Link) (r : Row) (cells : List Cell) : Bool :=
  (Row.cell (r ++ [cells]) l.left).compareWith .eq (Row.cell (r ++ [cells]) l.right) = some true

def extend (l : Link) (r : Row) : List Row :=
  match l.rows.filter (l.fits r) with
  | [] => [r ++ [[]]]
  | found => found.map fun cells => r ++ [cells]

end Link

def joined (rows : List (List Cell)) (links : List Link) : List Row :=
  links.foldl (fun rows l => rows.flatMap l.extend) (rows.map ([·]))

/-- The join of a table that has a number of tables before it. It refers to none that come after it. -/
def linkOf (x : Scope) (i : Nat) (j : Sql.TableJoin) (t : Table) : Except SqlError Link := do
  let left ← x.slot (some j.name) j.column
  let right ← x.slot (some j.other) j.otherColumn
  if left.source ≤ i && right.source ≤ i then return ⟨t.rows, left, right⟩
  else throw .database

def linksOf (x : Scope) (tables : List (String × Table)) (joins : List Sql.TableJoin) :
    Except SqlError (List Link) :=
  ((joins.zip (tables.drop 1)).zipIdx 1).mapM fun ((j, (_, t)), i) => linkOf x i j t

def keyOf (slots : List Slot) (r : Row) : List Key := slots.map fun s => (r.cell s).key

def compareKeys : List Key → List Key → Ordering
  | a :: as, b :: bs => (a.compare b).then (compareKeys as bs)
  | [], [] => .eq
  | [], _ => .lt
  | _, [] => .gt

/-- The row that stands for a group: the first one, or the one with the last of the least and greatest
values that are asked for. -/
def representative (extremes : List (Bool × Term)) (rows : List Row) : Except SqlError Row :=
  match extremes.eraseDups.getLast? with
  | none => .ok (rows.head?.getD [])
  | some (greatest, arg) => do
    let (_, row) ← rows.foldlM (fun (best, row) r => do
      let c ← arg.value (.single r)
      return if best.isNull || (!c.isNull && Aggregate.improves greatest best c) then (c, r)
        else (best, row)) (Cell.null, [])
    return row

def groupsBy (slots : List Slot) (rows : List Row) : List (List Row) :=
  let keys := (rows.map (keyOf slots)).eraseDups.mergeSort fun a b => compareKeys a b ≠ .gt
  keys.map fun k => rows.filter fun r => keyOf slots r = k

structure Output where
  name : String
  term : Term

def outputsOf (x : Scope) : Sql.Item → Except SqlError (List Output)
  | .column source column => do
    let s ← x.slot (some source) column
    return [⟨x.nameOf s, .slot s⟩]
  | .allOf source =>
    ((x.candidates (some source)).flatMap fun (s, _) => s.columns).mapM fun column => do
      let s ← x.slot (some source) column
      return ⟨x.nameOf s, .slot s⟩
  | .countDistinct source column => do
    let s ← x.slot (some source) column
    return [⟨Sql.countColumn, .aggregate .count true (.slot s)⟩]

def compareSorted : List (Key × Bool) → List (Key × Bool) → Ordering
  | (a, descending) :: as, (b, _) :: bs =>
    ((if descending then b.compare a else a.compare b)).then (compareSorted as bs)
  | _, _ => .eq

def page {α : Type} (limit offset : Option Nat) (rows : List α) : List α :=
  let rows := rows.drop (min (offset.getD 0) Number.maxWord)
  match limit with
  | none => rows
  | some n => rows.take (min n Number.maxWord)

structure Program where
  rows : List (List Cell)
  links : List Link
  filter : List Term
  groupBy : Option (List Slot)
  having : Option Term
  orderBy : List (Term × Bool)
  outputs : List Output
  limit : Option Nat
  offset : Option Nat

namespace Program

/-- Resolves all names of a statement, which is done before any row is looked at. A condition on groups
needs a grouping. -/
def ofSelect (db : Database) (s : Sql.Select) : Except SqlError Program := do
  let tables ← sourceTables db s.fromClause
  if maxSources < tables.length then throw .database
  let x : Scope := ⟨db, tables.map fun (name, t) => ⟨name, t.columns⟩⟩
  let rows := ((tables.head?.map fun t => t.2.rows)).getD []
  let links ← linksOf x tables s.joins
  let filter ← x.term? false s.filter
  let keys ← s.groupBy.mapM fun (source, column) => x.slot (some source) column
  let counts := s.items.any Sql.Item.isCount
  let grouped := !keys.isEmpty || counts
  if s.having.isSome && !grouped then throw .database
  let having ← x.term? true s.having
  let orderBy ← s.orderBy.mapM fun (e, descending) => do return (← x.term grouped e, descending)
  let outputs ← s.items.mapM (outputsOf x)
  return {
    rows, links, having, orderBy, outputs := outputs.flatten, limit := s.limit, offset := s.offset
    filter := ((filter.map Term.conjuncts).getD []).mergeSort fun a b => a.level ≤ b.level
    groupBy := if grouped then some keys else none }

/-- The groups of the rows. Without keys all rows are one group, even if there are none. -/
def groups (p : Program) (rows : List Row) : Except SqlError (List Group) :=
  match p.groupBy with
  | none => .ok (rows.map .single)
  | some slots => do
    let extremes := p.orderBy.flatMap (fun e => e.1.extremes) ++ (p.having.map Term.extremes).getD []
    let lists := if slots.isEmpty then [rows] else groupsBy slots rows
    lists.mapM fun rows => do return ⟨← representative extremes rows, rows⟩

def isKept (p : Program) (g : Group) : Except SqlError Bool :=
  match p.having with
  | none => .ok true
  | some t => t.holds g false

def run (p : Program) : Except SqlError Table := do
  let rows ← (joined p.rows p.links).filterM fun r => passes (.single r) p.filter
  let groups ← (← p.groups rows).filterM p.isKept
  let selected ← groups.mapM fun g => do
    let keys ← p.orderBy.mapM fun (t, descending) => do return ((← t.value g).key, descending)
    let cells ← p.outputs.mapM fun o => o.term.value g
    return (keys, cells)
  let sorted := selected.mergeSort fun a b => compareSorted a.1 b.1 ≠ .gt
  return ⟨p.outputs.map Output.name, (page p.limit p.offset sorted).map Prod.snd⟩

end Program

/-- What tables in memory answer, whose columns have no types. It is what SQLite answers as long as all functions in
the statement are known here, and an error otherwise. -/
def run (db : Database) : Sql.Statement → Except SqlError Table
  | .rows s => do (← Program.ofSelect db s).run
  | .countOf s => do
    let t ← (← Program.ofSelect db s).run
    return ⟨[Sql.countColumn], [[.ofRows t.rows.length]]⟩

end Sift.Table
