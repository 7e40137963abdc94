import Sift.Value

namespace Sift.Sql

inductive Bound where
  | null
  | bool (b : Bool)
  /-- a number of the statement itself -/
  | constant (n : Nat)
  | int (i : Int64)
  | double (x : Binary64)
  | text (s : String)
  | rows (n : Nat)
  deriving DecidableEq

/-- A single value. An array that stands where one value is needed becomes the text of its
document. -/
def Bound.ofValue : Value → Bound
  | .null => .null
  | .bool b => .bool b
  | .int i => .int i
  | .float x => .double x
  | .text s => .text s
  | .array items => .text (Json.array (Value.toJsonItems items)).print
  | .backed v => ofValue v

end Sift.Sql
