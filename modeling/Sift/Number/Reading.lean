import Sift.Number.Binary64

namespace Sift.Number

def digitValue (c : Char) : Nat := c.toNat - '0'.toNat

def ofDigits (ds : List Char) : Nat := ds.foldl (fun n c => 10 * n + digitValue c) 0

def splitSign : List Char → Bool × List Char
  | '-' :: rest => (true, rest)
  | '+' :: rest => (false, rest)
  | cs => (false, cs)

def digits? (cs : List Char) : Option Nat :=
  if !cs.isEmpty && cs.all Char.isDigit then some (ofDigits cs) else none

def int64? (cs : List Char) : Option Int64 :=
  let (negative, rest) := splitSign cs
  (digits? rest).bind fun n => word? (if negative then -n else n)

def exponent? : List Char → Option Int
  | [] => some 0
  | c :: rest =>
    if c = 'e' || c = 'E' then
      let (negative, ds) := splitSign rest
      (digits? ds).map fun n => if negative then -(n : Int) else n
    else none

def decimal? (cs : List Char) : Option (Nat × Int) :=
  let whole := cs.takeWhile Char.isDigit
  let rest := cs.dropWhile Char.isDigit
  let (fraction, tail) := match rest with
    | '.' :: rest => (rest.takeWhile Char.isDigit, rest.dropWhile Char.isDigit)
    | rest => ([], rest)
  if whole.isEmpty && fraction.isEmpty then none
  else (exponent? tail).map fun e => (ofDigits (whole ++ fraction), e - fraction.length)

/-- A decimal, `inf`, `infinity` or `nan` in any case, with an optional sign; the nearest double. -/
def binary64? (cs : List Char) : Option Binary64 :=
  let (negative, rest) := splitSign cs
  match decimal? rest with
  | some (digits, exponent) => some (Binary64.ofDecimal negative digits exponent)
  | none =>
    let word := String.ofList (rest.map Char.toLower)
    if word = "inf" || word = "infinity" then some (.infinity negative)
    else if word = "nan" then some .nan
    else none

end Sift.Number
