import Sift.Number.Reading
import Sift.Table.Cell

namespace Sift.Table

inductive Amount where
  | int (i : Int64)
  | real (x : Binary64)

namespace Amount

def isSpace (c : Char) : Bool := c = ' ' || ('\t' ≤ c && c ≤ '\r')

def exponent (cs : List Char) : Int × List Char :=
  match cs with
  | c :: rest =>
    let (negative, tail) := Number.splitSign rest
    let ds := tail.takeWhile Char.isDigit
    if (c = 'e' || c = 'E') && !ds.isEmpty then
      let n : Int := Number.ofDigits ds
      (if negative then -n else n, tail.dropWhile Char.isDigit)
    else (0, cs)
  | [] => (0, [])

/-- The number a text begins with, zero if it begins with none. A text that is a whole number and nothing
else counts as one. -/
def ofText (s : String) : Amount :=
  let (negative, cs) := Number.splitSign (s.toList.dropWhile isSpace)
  let whole := cs.takeWhile Char.isDigit
  let rest := cs.dropWhile Char.isDigit
  let (fraction, tail) := match rest with
    | '.' :: rest => (rest.takeWhile Char.isDigit, rest.dropWhile Char.isDigit)
    | rest => ([], rest)
  let (e, _) := exponent tail
  let n := Number.ofDigits whole
  let i : Int := if negative then -n else n
  if !whole.isEmpty && (rest.dropWhile isSpace).isEmpty && Number.IsWord i then .int (Int64.ofInt i)
  else if whole.isEmpty && fraction.isEmpty then .real (.zero false)
  else .real (.ofDecimal negative (Number.ofDigits (whole ++ fraction)) (e - fraction.length))

def toBinary64 : Amount → Binary64
  | .int i => .ofInt i.toInt
  | .real x => x

def ofCell? : Cell → Option Amount
  | .null => none
  | .int i => some (.int i)
  | .real x => some (.real x)
  | .text s => some (ofText s)
  | .blob bytes => some (.real (ofText (Cell.textOfBytes bytes)).toBinary64)

def isZero : Amount → Bool
  | .int i => i = 0
  | .real x => x.units? = some 0

end Amount

def Cell.truth? (c : Cell) : Option Bool := (Amount.ofCell? c).map fun a => !a.isZero

structure Compensated where
  sum : Binary64
  error : Binary64

namespace Compensated

def start : Compensated := ⟨.zero false, .zero false⟩

def add (c : Compensated) (x : Binary64) : Compensated :=
  let t := c.sum.add x
  let lost := if c.sum.abs.compare? x.abs = some .gt then (c.sum.sub t).add x else (x.sub t).add c.sum
  ⟨t, c.error.add lost⟩

/-- A whole number that may not be a double is added in two parts. -/
def addInt (c : Compensated) (i : Int) : Compensated :=
  if i.natAbs < 1 <<< 52 then c.add (.ofInt i)
  else
    let small := i.tmod 16384
    (c.add (.ofInt (i - small))).add (.ofInt small)

def ofInt (i : Int) : Compensated :=
  if i.natAbs < 1 <<< 52 then ⟨.ofInt i, .zero false⟩
  else
    let small := i.tmod 16384
    ⟨.ofInt (i - small), .ofInt small⟩

def total (c : Compensated) : Binary64 := if c.error.isFinite then c.sum.add c.error else c.sum

end Compensated

/-- A sum is whole until a double comes or it leaves the signed range of 64 bits; the latter is an error
if no double comes afterwards. -/
inductive Sum where
  | empty
  | whole (total : Int)
  | real (c : Compensated) (overflow : Bool)

namespace Sum

def add (s : Sum) (a : Amount) : Sum :=
  match s, a with
  | .empty, .int i => .whole i.toInt
  | .empty, .real x => .real (Compensated.start.add x) false
  | .whole n, .int i =>
    let t := n + i.toInt
    if Number.IsWord t then .whole t
    else .real ((Compensated.ofInt n).addInt i.toInt) true
  | .whole n, .real x => .real ((Compensated.ofInt n).add x) false
  | .real c overflow, .int i => .real (c.addInt i.toInt) overflow
  | .real c _, .real x => .real (c.add x) false

def cell? : Sum → Option Cell
  | .empty => some .null
  | .whole n => some (.int (Int64.ofInt n))
  | .real c false => some (.ofBinary64 c.total)
  | .real _ true => none

def ofCells (cells : List Cell) : Sum := (cells.filterMap Amount.ofCell?).foldl add .empty

end Sum

end Sift.Table
