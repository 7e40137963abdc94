import Sift.FieldType
import Sift.Number.Reading
import Sift.Text.Blank
import Sift.Value

namespace Sift.Coercion

def truth? (cs : List Char) : Option Bool :=
  let word := String.ofList ((Text.trim cs).map Char.toLower)
  if word = "1" || word = "true" then some true
  else if word = "0" || word = "false" || word = "" then some false
  else none

def scalar? : FieldType → Value → Option Value
  | .integer, .bool b => some (.int (if b then 1 else 0))
  | .integer, .text s => (Number.int64? (Text.trim s.toList)).map .int
  | .integer, .float x => if x.isWhole then some (.int x.toInt64) else none
  | .float, .int i => some (.float (Binary64.ofInt i.toInt))
  | .float, .text s => (Number.binary64? (Text.trim s.toList)).map .float
  | .boolean, .int i => some (.bool (i != 0))
  | .boolean, .text s => (truth? s.toList).map .bool
  | .string, .int i => some (.text (toString i.toInt))
  | .string, .float x => some (.text x.plainText)
  | .string, .bool b => some (.text (if b then "1" else "0"))
  | _, _ => none

mutual

/-- The value in its declared type, element by element. What cannot be one is kept as it is. -/
def toType (t : FieldType) : Value → Value
  | .null => .null
  | .array items => .array (itemsToType t items)
  | .backed v => toType t v
  | v => (scalar? t v).getD v

def itemsToType (t : FieldType) : List Value → List Value
  | [] => []
  | v :: rest => toType t v :: itemsToType t rest

end

def coerce (declared : Option FieldType) (v : Value) : Value :=
  match declared with
  | none => v
  | some t => toType t v

end Sift.Coercion
