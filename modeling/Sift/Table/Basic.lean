import Sift.Table.Cell

namespace Sift

structure Table where
  columns : List String
  rows : List (List Table.Cell)

namespace Table

/-- Names of tables and columns do not differ by the case of ASCII letters. -/
def sameName (a b : String) : Bool := a.toLower == b.toLower

theorem sameName_refl (a : String) : sameName a a = true := beq_self_eq_true _

def place? (columns : List String) (column : String) : Option Nat := columns.findIdx? (sameName column)

end Table

structure Database where
  tables : List (String × Table)

def Database.table? (db : Database) (name : String) : Option Table :=
  (db.tables.find? fun t => Table.sameName t.1 name).map Prod.snd

end Sift
