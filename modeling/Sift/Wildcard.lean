namespace Sift.Wildcard

/-- Without the occurrences of `c` that follow a backslash, and those backslashes. -/
def dropEscaped (c : Char) : List Char → List Char
  | '\\' :: d :: rest => if d = c then dropEscaped c rest else '\\' :: dropEscaped c (d :: rest)
  | d :: rest => d :: dropEscaped c rest
  | [] => []

def occurs (s : String) : Bool :=
  ['%', '_'].any fun c => (dropEscaped c s.toList).contains c

def expand (previous : Option Char) : List Char → List Char
  | [] => []
  | c :: rest =>
    let tail := expand (some c) rest
    if c = '%' && previous ≠ some '\\' then '.' :: '*' :: tail
    else if c = '_' && previous ≠ some '\\' then '.' :: '?' :: tail
    else c :: tail

/-- `%` becomes `.*` and `_` becomes `.?`, unless escaped. -/
def toPattern (s : String) : String := String.ofList (expand none s.toList)

def anyOf (texts : List String) : String := "^(" ++ "|".intercalate (texts.map toPattern) ++ ")$"

end Sift.Wildcard
