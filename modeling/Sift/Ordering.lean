import Sift.Error

namespace Sift

/-- How a field orders the result. An index does not sort: the rows are collected by that field. -/
inductive Direction where
  | asc
  | desc
  | index
  deriving DecidableEq

namespace Direction

def name : Direction → String
  | .asc => "ASC"
  | .desc => "DESC"
  | .index => "INDEX"

def ofName? (name : String) : Option Direction :=
  let n := name.map Char.toUpper
  if n = "ASC" then some .asc
  else if n = "DESC" then some .desc
  else if n = "INDEX" then some .index
  else none

def read (name : String) : Except CriteriaError Direction :=
  match ofName? name with
  | some d => .ok d
  | none => .error (.invalidDirection "" name)

end Direction

abbrev OrderBy := List (String × Direction)

namespace OrderBy

def ofMembers : List (String × Json) → Except CriteriaError OrderBy
  | [] => .ok []
  | (key, .text s) :: rest =>
    match Direction.ofName? s with
    | some d => (ofMembers rest).map ((key, d) :: ·)
    | none => .error (.invalidDirection key s)
  | (key, j) :: _ => .error (.invalidDirection key j.print)

def ofJson : Json → Except CriteriaError OrderBy
  | .null => .ok []
  | .object members => ofMembers members
  | j => .error (.decode (.orderingShape j))

end OrderBy

end Sift
