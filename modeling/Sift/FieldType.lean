namespace Sift

inductive FieldType where
  | integer
  | float
  | boolean
  | string
  | custom (name : String)
  deriving DecidableEq

namespace FieldType

/-- Known names are read in any case, any other name is kept as it is. -/
def ofName (name : String) : FieldType :=
  let n := name.map Char.toLower
  if n ∈ ["integer", "int", "smallint", "bigint"] then .integer
  else if n ∈ ["float", "double", "decimal", "real"] then .float
  else if n ∈ ["boolean", "bool"] then .boolean
  else if n ∈ ["string", "text", "varchar"] then .string
  else .custom name

def name : FieldType → String
  | .integer => "integer"
  | .float => "float"
  | .boolean => "boolean"
  | .string => "string"
  | .custom name => name

end FieldType

end Sift
