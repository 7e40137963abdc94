import Sift.Entity
import Sift.Json.Printer
import Sift.Sql.Error
import Sift.Sql.Statement
import Sift.Table.Basic

namespace Sift

abbrev Record := Named Json

namespace Record

/-- What a cell is read as. A whole number in a column of truth values is one of them, anything else is
read as it is stored. -/
def readCell (declared : Option FieldType) (c : Table.Cell) : Json :=
  match c with
  | .null => .null
  | .int i => if declared = some .boolean then .bool (i ≠ 0) else .int i.toInt
  | .real x => if x.isFinite then .float x else .null
  | .text s => .text s
  | .blob bytes => .array (bytes.map fun b => .int b.toNat)

def ofRow (root : Entity) (columns : List String) (cells : List Table.Cell) : Record :=
  .ofList ((columns.zip cells).map fun (name, c) => (name, readCell (root.typeOf? name) c))

def ofTable (root : Entity) (t : Table) : List Record := t.rows.map (ofRow root t.columns)

/-- The key under which a record is indexed: a text as it is, nothing for null, and the document of any
other value. -/
def indexKey (index : String) (r : Record) : String :=
  match r.get? index with
  | some (.text s) => s
  | some .null | none => ""
  | some j => j.print

/-- One record for each key: the last one, at the place of the first one. -/
def collapse (index : String) (records : List Record) : List Record :=
  (records.foldl (fun (t : Named Record) r => t.put (indexKey index r) r) .empty).values

def count (records : List Record) : Except SqlError Nat :=
  match records.head?.bind (·.get? Sql.countColumn) with
  | some (.int i) => if 0 ≤ i then .ok i.toNat else .error (.invalidCount (Json.int i).print)
  | some j => .error (.invalidCount j.print)
  | none => .error (.invalidCount "no count column")

end Record

end Sift
