import Sift.Error

namespace Sift

/-- What a term is compared with. A backed value stands for the value of an enumeration; what it
wraps is what counts. -/
inductive Value where
  | null
  | bool (b : Bool)
  | int (i : Int64)
  | float (x : Binary64)
  | text (s : String)
  | array (items : List Value)
  | backed (inner : Value)
  deriving Inhabited

namespace Value

mutual

def raw : Value → Value
  | .backed v => v.raw
  | .array items => .array (rawItems items)
  | v => v

def rawItems : List Value → List Value
  | [] => []
  | v :: rest => v.raw :: rawItems rest

end

theorem rawItems_eq_map (items : List Value) : rawItems items = items.map raw := by
  induction items with
  | nil => rfl
  | cons v rest ih => simp [rawItems, ih]

def isNull : Value → Bool
  | .null => true
  | _ => false

def isArray : Value → Bool
  | .array _ => true
  | _ => false

def text? : Value → Option String
  | .text s => some s
  | _ => none

def items? : Value → Option (List Value)
  | .array items => some items
  | _ => none

mutual

def display : Value → String
  | .null => "NULL"
  | .bool b => if b then "true" else "false"
  | .int i => toString i.toInt
  | .float x => x.plainText
  | .text s => "'" ++ s ++ "'"
  | .array items => "[" ++ ", ".intercalate (displayItems items) ++ "]"
  | .backed v => v.display

def displayItems : List Value → List String
  | [] => []
  | v :: rest => v.display :: displayItems rest

end

def indexKey : Value → String
  | .null => ""
  | .text s => s
  | v => v.display

mutual

/-- Numbers that are not finite become null. -/
def toJson : Value → Json
  | .null => .null
  | .bool b => .bool b
  | .int i => .int i.toInt
  | .float x => if x.isFinite then .float x else .null
  | .text s => .text s
  | .array items => .array (toJsonItems items)
  | .backed v => v.toJson

def toJsonItems : List Value → List Json
  | [] => []
  | v :: rest => v.toJson :: toJsonItems rest

end

/-- Whole numbers beyond the signed range of 64 bits become doubles. -/
def ofInt (i : Int) : Value :=
  match Number.word? i with
  | some word => .int word
  | none => .float (.ofInt i)

mutual

def ofJson : Json → Except CriteriaError Value
  | .null => .ok .null
  | .bool b => .ok (.bool b)
  | .int i => .ok (ofInt i)
  | .float x => .ok (.float x)
  | .text s => .ok (.text s)
  | .array items => (ofJsonItems items).map .array
  | .object _ => .error (.unsupportedValue "" "objects cannot be used as criteria values")

def ofJsonItems : List Json → Except CriteriaError (List Value)
  | [] => .ok []
  | j :: rest => do
    let v ← ofJson j
    let vs ← ofJsonItems rest
    return v :: vs

end

end Value

end Sift
