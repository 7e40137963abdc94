import Sift.Pattern.Like
import Sift.Pattern.Reading
import Sift.Sql.Error
import Sift.Sql.Statement
import Sift.Table.Amount
import Sift.Truth

namespace Sift.Table

structure Slot where
  source : Nat
  column : Nat
  deriving DecidableEq

/-- A row of joined tables, source by source. A source without a partner has no cells. -/
abbrev Row := List (List Cell)

def Row.cell (r : Row) (s : Slot) : Cell := ((r[s.source]?).bind (·[s.column]?)).getD .null

abbrev Group := Sql.Group (List Cell)

inductive Function where
  | lower
  | upper
  | length
  deriving DecidableEq

namespace Function

def all : List (String × Function) := [("lower", .lower), ("upper", .upper), ("length", .length)]

def lengthOf : Cell → Cell
  | .null => .null
  | .blob bytes => .ofRows bytes.length
  | .text s => .ofRows (s.toList.takeWhile (· ≠ '\x00')).length
  | c => .ofRows ((c.text?.map String.length).getD 0)

def value (f : Function) (c : Cell) : Cell :=
  match f with
  | .length => lengthOf c
  | .lower => (c.text?.map fun s => Cell.text s.toLower).getD .null
  | .upper => (c.text?.map fun s => Cell.text s.toUpper).getD .null

end Function

inductive Aggregate where
  | count
  | sum
  | min
  | max
  deriving DecidableEq

namespace Aggregate

def all : List (String × Aggregate) := [("count", .count), ("sum", .sum), ("min", .min), ("max", .max)]

def improves (greatest : Bool) (best c : Cell) : Bool :=
  best.key.compare c.key = if greatest then .lt else .gt

def extreme (greatest : Bool) (cells : List Cell) : Cell :=
  cells.foldl (fun best c => if best.isNull || improves greatest best c then c else best) .null

def inputs (distinct : Bool) (cells : List Cell) : List Cell :=
  let cells := cells.filter (!·.isNull)
  if distinct then cells.eraseDupsBy fun a b => a.key == b.key else cells

def value (f : Aggregate) (distinct : Bool) (cells : List Cell) : Except SqlError Cell :=
  let cells := inputs distinct cells
  match f with
  | .count => .ok (.ofRows cells.length)
  | .min => .ok (extreme false cells)
  | .max => .ok (extreme true cells)
  | .sum =>
    match (Sum.ofCells cells).cell? with
    | some c => .ok c
    | none => .error .database

end Aggregate

inductive Term where
  | slot (s : Slot)
  | const (c : Cell)
  | apply (f : Function) (arg : Term)
  | aggregate (f : Aggregate) (distinct : Bool) (arg : Term)
  | rowCount
  | compare (op : Comparator) (left right : Term)
  | isIn (left : Term) (cells : List Cell)
  /-- whether a cell is among the first ones of those pairs whose second one is that of the owner -/
  | isMember (c : Cell) (pairs : List (Cell × Cell)) (owner : Slot)
  | isNull (t : Term)
  | like (t : Term) (pattern : String)
  | matches (t : Term) (pattern : Cell)
  | not (t : Term)
  | and (left right : Term)
  | or (left right : Term)
  deriving DecidableEq

def keysOf (pairs : List (Cell × Cell)) (owner : Cell) : List Cell :=
  (pairs.filter fun p => p.2.compareWith .eq owner = some true).map Prod.fst

def likeCell (c : Cell) (pattern : String) : Except SqlError Truth :=
  if Like.maxSize < pattern.utf8ByteSize then .error .database
  else .ok (c.text?.map fun s => Sift.like pattern s)

def matchCell (c pattern : Cell) : Except SqlError Truth :=
  match pattern with
  | .text s =>
    match Pattern.ofText? s, c with
    | none, _ => .error .database
    | some p, .text t => .ok (some (p.occursIn t))
    | some _, _ => .ok none
  | _ => .ok none

namespace Term

def value (g : Group) : Term → Except SqlError Cell
  | .slot s => .ok (Row.cell g.row s)
  | .const c => .ok c
  | .apply f arg => do return f.value (← arg.value g)
  | .aggregate f distinct arg => do
    let cells ← g.rows.mapM fun r => arg.value (.single r)
    f.value distinct cells
  | .rowCount => .ok (.ofRows g.rows.length)
  | .compare op left right => do
    let a ← left.value g
    let b ← right.value g
    return .ofTruth (a.compareWith op b)
  | .isIn left cells => do return .ofTruth ((← left.value g).among cells)
  | .isMember c pairs owner => .ok (.ofTruth (c.among (keysOf pairs (Row.cell g.row owner))))
  | .isNull t => do return .ofBool (← t.value g).isNull
  | .like t pattern => do return .ofTruth (← likeCell (← t.value g) pattern)
  | .matches t pattern => do return .ofTruth (← matchCell (← t.value g) pattern)
  | .not t => do return .ofTruth (Truth.not (← t.value g).truth?)
  | .and left right => do
    let a ← left.value g
    let b ← right.value g
    return .ofTruth (Truth.and a.truth? b.truth?)
  | .or left right => do
    let a ← left.value g
    let b ← right.value g
    return .ofTruth (Truth.or a.truth? b.truth?)

/-- Whether a term is true, where `unknown` stands for what is unknown. The right side of a connection is
only looked at if the left one leaves it open. -/
def holds (g : Group) (unknown : Bool) : Term → Except SqlError Bool
  | .not t => do return !(← t.holds g (!unknown))
  | .and left right => do if ← left.holds g unknown then right.holds g unknown else return false
  | .or left right => do if ← left.holds g unknown then return true else right.holds g unknown
  | t => do return ((← t.value g).truth?).getD unknown

def conjuncts : Term → List Term
  | .and left right => left.conjuncts ++ right.conjuncts
  | t => [t]

def level : Term → Nat
  | .slot s | .isMember _ _ s => s.source + 1
  | .const _ | .rowCount => 0
  | .apply _ t | .aggregate _ _ t | .isIn t _ | .isNull t | .like t _ | .matches t _ | .not t => t.level
  | .compare _ left right | .and left right | .or left right => max left.level right.level

def extremes : Term → List (Bool × Term)
  | .aggregate .min _ t => [(false, t)]
  | .aggregate .max _ t => [(true, t)]
  | .slot _ | .const _ | .rowCount | .isMember .. | .aggregate .. => []
  | .apply _ t | .isIn t _ | .isNull t | .like t _ | .matches t _ | .not t => t.extremes
  | .compare _ left right | .and left right | .or left right => left.extremes ++ right.extremes

end Term

def passes (g : Group) : List Term → Except SqlError Bool
  | [] => .ok true
  | t :: rest => do if ← t.holds g false then passes g rest else return false

end Sift.Table
