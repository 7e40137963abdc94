namespace Sift

inductive Comparator where
  | eq
  | lt
  | lte
  | gt
  | gte
  deriving DecidableEq

namespace Comparator

def all : List Comparator := [.eq, .lt, .lte, .gt, .gte]

def name : Comparator → String
  | .eq => "eq"
  | .lt => "lt"
  | .lte => "lte"
  | .gt => "gt"
  | .gte => "gte"

def symbol : Comparator → String
  | .eq => "="
  | .lt => "<"
  | .lte => "<="
  | .gt => ">"
  | .gte => ">="

end Comparator

end Sift
