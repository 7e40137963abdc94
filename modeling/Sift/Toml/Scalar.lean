import Sift.Json.Basic
import Sift.Number.Reading
import Sift.Text.Hex

namespace Sift.Toml

/-- Digits of a base, with single underscores between them. -/
def digitsOf? (isDigit : Char → Bool) : List Char → Option (List Char)
  | [] => none
  | [c] => if isDigit c then some [c] else none
  | c :: '_' :: rest => if isDigit c then (digitsOf? isDigit rest).map (c :: ·) else none
  | c :: rest => if isDigit c then (digitsOf? isDigit rest).map (c :: ·) else none

def isHexDigit (c : Char) : Bool := (Text.hexValue? c).isSome

def ofBase (base : Nat) (ds : List Char) : Nat := ds.foldl (fun n c => base * n + (Text.hexValue? c).getD 0) 0

def int? (i : Int) : Option Json :=
  if -(1 <<< 127 : Nat) ≤ i && i < (1 <<< 128 : Nat) then some (.int i) else none

def decimalDigits? (cs : List Char) : Option (List Char) :=
  match digitsOf? Char.isDigit cs with
  | some ('0' :: _ :: _) => none
  | ds => ds

def based? (base : Nat) (isDigit : Char → Bool) (cs : List Char) : Option Json :=
  (digitsOf? isDigit cs).bind fun ds => int? (ofBase base ds)

def exponent? : List Char → Option Int
  | [] => some 0
  | c :: rest =>
    if c = 'e' || c = 'E' then
      let (negative, ds) := Number.splitSign rest
      (digitsOf? Char.isDigit ds).map fun ds =>
        if negative then -(Number.ofDigits ds : Int) else Number.ofDigits ds
    else none

def isExponentMark (c : Char) : Bool := c = 'e' || c = 'E'

def float? (negative : Bool) (cs : List Char) : Option Json := do
  let mantissa := cs.takeWhile (!isExponentMark ·)
  let e ← exponent? (cs.dropWhile (!isExponentMark ·))
  let whole ← decimalDigits? (mantissa.takeWhile (· ≠ '.'))
  let fraction ← match mantissa.dropWhile (· ≠ '.') with
    | [] => some []
    | _ :: rest => digitsOf? Char.isDigit rest
  let x := Binary64.ofDecimal negative (Number.ofDigits (whole ++ fraction)) (e - fraction.length)
  if x.isFinite then some (.float x) else none

def number? (cs : List Char) : Option Json :=
  match cs with
  | '0' :: 'x' :: rest => based? 16 isHexDigit rest
  | '0' :: 'o' :: rest => based? 8 (fun c => '0' ≤ c && c ≤ '7') rest
  | '0' :: 'b' :: rest => based? 2 (fun c => c = '0' || c = '1') rest
  | cs =>
    let (negative, rest) := Number.splitSign cs
    if rest = "inf".toList then some (.float (.infinity negative))
    else if rest = "nan".toList then some (.float .nan)
    else match decimalDigits? rest with
      | some ds => int? (if negative then -(Number.ofDigits ds : Int) else Number.ofDigits ds)
      | none => if rest.any fun c => c = '.' || isExponentMark c then float? negative rest else none

def takeDigits? (n : Nat) (cs : List Char) : Option (List Char × List Char) :=
  let ds := cs.take n
  if ds.length = n && ds.all Char.isDigit then some (ds, cs.drop n) else none

def daysIn (year month : Nat) : Nat :=
  if month = 2 then
    if year % 4 = 0 && (year % 100 ≠ 0 || year % 400 = 0) then 29 else 28
  else if month ∈ [4, 6, 9, 11] then 30
  else 31

def date? (cs : List Char) : Option (List Char × List Char) := do
  let (year, rest) ← takeDigits? 4 cs
  let '-' :: rest := rest | none
  let (month, rest) ← takeDigits? 2 rest
  let '-' :: rest := rest | none
  let (day, rest) ← takeDigits? 2 rest
  let m := Number.ofDigits month
  let d := Number.ofDigits day
  if 1 ≤ m && m ≤ 12 && 1 ≤ d && d ≤ daysIn (Number.ofDigits year) m then
    some (year ++ '-' :: month ++ '-' :: day, rest)
  else none

def fraction (ds : List Char) : List Char :=
  match ((ds.take 9).reverse.dropWhile (· = '0')).reverse with
  | [] => []
  | kept => '.' :: kept

def seconds? : List Char → Option (List Char × List Char)
  | ':' :: rest => do
    let (second, rest) ← takeDigits? 2 rest
    if 60 < Number.ofDigits second then none
    else match rest with
      | '.' :: rest =>
        let ds := rest.takeWhile Char.isDigit
        if ds.isEmpty then none else some (second ++ fraction ds, rest.dropWhile Char.isDigit)
      | rest => some (second, rest)
  | rest => some (['0', '0'], rest)

def time? (cs : List Char) : Option (List Char × List Char) := do
  let (hour, rest) ← takeDigits? 2 cs
  let ':' :: rest := rest | none
  let (minute, rest) ← takeDigits? 2 rest
  let (second, rest) ← seconds? rest
  if 23 < Number.ofDigits hour || 59 < Number.ofDigits minute then none
  else some (hour ++ ':' :: minute ++ ':' :: second, rest)

def offset? : List Char → Option (List Char)
  | [] => some []
  | [c] => if c = 'Z' || c = 'z' then some ['Z'] else none
  | c :: rest => do
    let (hour, rest) ← takeDigits? 2 rest
    let ':' :: rest := rest | none
    let (minute, []) ← takeDigits? 2 rest | none
    let h := Number.ofDigits hour
    let m := Number.ofDigits minute
    if (c = '+' || c = '-') && h ≤ 24 && m ≤ 59 && 60 * h + m ≤ 1440 then
      let mark := if 60 * h + m = 0 then '+' else c
      some (mark :: hour ++ ':' :: minute)
    else none

def moment? (cs : List Char) : Option (List Char) :=
  match date? cs with
  | some (date, []) => some date
  | some (date, c :: rest) =>
    if c = 'T' || c = 't' || c = ' ' then do
      let (time, rest) ← time? rest
      let offset ← offset? rest
      return date ++ 'T' :: time ++ offset
    else none
  | none =>
    match time? cs with
    | some (time, []) => some time
    | _ => none

/-- Moments are kept as texts, in a record of their own. -/
def momentField : String := "$__toml_private_datetime"

def scalar? (cs : List Char) : Option Json :=
  if cs = "true".toList then some (.bool true)
  else if cs = "false".toList then some (.bool false)
  else match moment? cs with
    | some m => some (.object [(momentField, .text (String.ofList m))])
    | none => number? cs

end Sift.Toml
