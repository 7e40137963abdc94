import Sift.Number.Binary64

namespace Sift

/-- A document. Whole numbers from `-2 ^ 63` up to below `2 ^ 64` are kept as such. Members keep the
order of the text. -/
inductive Json where
  | null
  | bool (b : Bool)
  | int (i : Int)
  | float (x : Binary64)
  | text (s : String)
  | array (items : List Json)
  | object (members : List (String × Json))
  deriving Inhabited

namespace Json

def putMember (name : String) (j : Json) : List (String × Json) → List (String × Json)
  | [] => [(name, j)]
  | (n, k) :: rest => if n = name then (n, j) :: rest else (n, k) :: putMember name j rest

/-- Each name once, at its first place and with its last value. -/
def distinct (members : List (String × Json)) : List (String × Json) :=
  members.foldl (fun done m => putMember m.1 m.2 done) []

mutual

def unique : Json → Json
  | .array items => .array (uniqueItems items)
  | .object members => .object (distinct (uniqueMembers members))
  | j => j

def uniqueItems : List Json → List Json
  | [] => []
  | j :: rest => unique j :: uniqueItems rest

def uniqueMembers : List (String × Json) → List (String × Json)
  | [] => []
  | (name, j) :: rest => (name, unique j) :: uniqueMembers rest

end

def member? (j : Json) (name : String) : Option Json :=
  match j with
  | .object members => members.reverse.lookup name
  | _ => none

end Json

end Sift
