import Sift.Comparator
import Sift.Number.Significant
import Sift.Sql.Bound

namespace Sift.Table

inductive Cell where
  | null
  | int (i : Int64)
  | real (x : Binary64)
  | text (s : String)
  | blob (bytes : List UInt8)
  deriving DecidableEq

inductive Measure where
  | below
  | units (u : Int)
  | above
  deriving DecidableEq

def Measure.ofBinary64 (x : Binary64) : Measure :=
  match x.units? with
  | some u => .units u
  | none => if x.isNegative then .below else .above

def Measure.compare : Measure → Measure → Ordering
  | .below, .below | .above, .above => .eq
  | .below, _ | _, .above => .lt
  | .above, _ | _, .below => .gt
  | .units a, .units b => Ord.compare a b

/-- What cells are compared by: two cells are equal if they have the same key. Whole numbers and doubles
are compared exactly. -/
inductive Key where
  | null
  | number (m : Measure)
  | text (s : String)
  | blob (bytes : List UInt8)
  deriving DecidableEq

namespace Key

def compare : Key → Key → Ordering
  | .null, .null => .eq
  | .null, _ => .lt
  | _, .null => .gt
  | .number a, .number b => a.compare b
  | .number _, _ => .lt
  | _, .number _ => .gt
  | .text a, .text b => Ord.compare a b
  | .text _, .blob _ => .lt
  | .blob _, .text _ => .gt
  | .blob a, .blob b => if a < b then .lt else if a = b then .eq else .gt

end Key

namespace Cell

def key : Cell → Key
  | .null => .null
  | .int i => .number (.units (i.toInt * Binary64.one))
  | .real x => .number (.ofBinary64 x)
  | .text s => .text s
  | .blob bytes => .blob bytes

def isNull : Cell → Bool
  | .null => true
  | _ => false

def ofBool (b : Bool) : Cell := .int (if b then 1 else 0)

def ofTruth : Option Bool → Cell
  | none => .null
  | some b => ofBool b

def ofBinary64 (x : Binary64) : Cell := if x.isNaN then .null else .real x

def ofRows (n : Nat) : Cell := .int (Int64.ofInt (min n Number.maxWord))

def ofBound : Sql.Bound → Cell
  | .null => .null
  | .bool b => ofBool b
  | .constant n | .rows n => ofRows n
  | .int i => .int i
  | .double x => ofBinary64 x
  | .text s => .text s

def textOfBytes (bytes : List UInt8) : String :=
  match String.fromUTF8? ⟨bytes.toArray⟩ with
  | some s => s
  | none => String.ofList (bytes.map fun b => if b < 0x80 then Char.ofNat b.toNat else '\ufffd')

def text? : Cell → Option String
  | .null => none
  | .int i => some (toString i.toInt)
  | .real x => some x.columnText
  | .text s => some s
  | .blob bytes => some (textOfBytes bytes)

def compareWith (op : Comparator) (a b : Cell) : Option Bool :=
  if a.isNull || b.isNull then none
  else
    let o := a.key.compare b.key
    some (match op with
      | .eq => o = .eq
      | .lt => o = .lt
      | .lte => o ≠ .gt
      | .gt => o = .gt
      | .gte => o ≠ .lt)

/-- Whether a cell is among others. It is unknown if only a null could decide. -/
def among (a : Cell) (cells : List Cell) : Option Bool :=
  if cells.isEmpty then some false
  else if a.isNull then none
  else if cells.any fun c => c.key = a.key then some true
  else if cells.any isNull then none
  else some false

end Cell

end Sift.Table
