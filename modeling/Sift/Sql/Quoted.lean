import Sift.Sql.Dialect

namespace Sift.Sql

/-- Reads up to the quote that ends an identifier, after the one that begins it. Two quotes stand for
one. -/
def unquoteRest (q : Char) : List Char → Option (List Char × List Char)
  | [] => none
  | [c] => if c = q then some ([], []) else none
  | c :: d :: rest =>
    if c = q then
      if d = q then (unquoteRest q rest).map fun (s, after) => (q :: s, after) else some ([], d :: rest)
    else (unquoteRest q (d :: rest)).map fun (s, after) => (c :: s, after)

def unquote? (q : Char) : List Char → Option (List Char × List Char)
  | c :: rest => if c = q then unquoteRest q rest else none
  | [] => none

/-- Reads two identifiers with a dot between them. -/
def unqualify? (q : Char) (cs : List Char) : Option ((List Char × List Char) × List Char) :=
  match unquote? q cs with
  | some (source, '.' :: rest) => (unquote? q rest).map fun (column, after) => ((source, column), after)
  | _ => none

end Sift.Sql
