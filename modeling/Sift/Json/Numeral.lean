import Sift.Json.Basic
import Sift.Number.Reading

namespace Sift.Json

structure Numeral where
  negative : Bool
  whole : List Char
  fraction : Option (List Char)
  exponent : Option (Bool × List Char)

namespace Numeral

def spanDigits? (cs : List Char) : Option (List Char × List Char) :=
  let ds := cs.takeWhile Char.isDigit
  if ds.isEmpty then none else some (ds, cs.dropWhile Char.isDigit)

def readExponent : List Char → Option (Option (Bool × List Char))
  | [] => some none
  | c :: rest =>
    if c = 'e' || c = 'E' then
      let (negative, ds) := Number.splitSign rest
      if !ds.isEmpty && ds.all Char.isDigit then some (some (negative, ds)) else none
    else none

def readFraction : List Char → Option (Option (List Char) × List Char)
  | '.' :: rest => (spanDigits? rest).map fun (ds, tail) => (some ds, tail)
  | rest => some (none, rest)

def read? (cs : List Char) : Option Numeral := do
  let (negative, rest) := match cs with
    | '-' :: rest => (true, rest)
    | _ => (false, cs)
  let (whole, rest) ← spanDigits? rest
  if whole.length > 1 && whole.head? = some '0' then none
  else
    let (fraction, rest) ← readFraction rest
    let exponent ← readExponent rest
    return { negative, whole, fraction, exponent }

def wordLimit : Nat := 1 <<< 64

/-- Takes digits for as long as the number fits into a word of 64 bits; the digits that are left over
are only counted. -/
def takeWord (n : Nat) : List Char → Nat × Nat
  | [] => (n, 0)
  | c :: rest =>
    let m := 10 * n + Number.digitValue c
    if m < wordLimit then takeWord m rest else (n, rest.length + 1)

/-- `significand * 10 ^ exponent`, with a rounding at the significand, at each division by `1e308` and at
the last step; none past the largest double. The power is taken from a table up to `1e308`. -/
def scale? (significand : Nat) (exponent : Int) : Option Binary64 :=
  let start := Binary64.ofInt significand
  if 308 < exponent then
    if significand = 0 then some start else none
  else if 0 ≤ exponent then
    match start.mul (.ofDecimal false 1 exponent) with
    | .infinity _ => none
    | x => some x
  else
    let steps := ((-exponent).toNat - 1) / 308
    let shift := Binary64.ofDecimal false 1 308
    -- past three divisions nothing is left of a word of 64 bits
    let x := (List.range (min steps 4)).foldl (fun x _ => x.div shift) start
    if 4 < steps then some x
    else some (x.div (.ofDecimal false 1 (-exponent - 308 * steps)))

def exponentLimit : Nat := 1 <<< 31

def float? (n : Numeral) : Option Binary64 :=
  let (significand, dropped) := takeWord 0 n.whole
  let fraction := n.fraction.getD []
  let (significand, ignored) := takeWord significand fraction
  let base : Int := (dropped : Int) - (fraction.length - ignored : Nat)
  let magnitude := match n.exponent with
    | none => scale? significand base
    | some (negative, ds) =>
      let e := Number.ofDigits ds
      if exponentLimit ≤ e then
        if significand ≠ 0 && !negative then none else some (Binary64.zero false)
      else scale? significand (if negative then base - e else base + e)
  magnitude.map fun x => if n.negative then x.neg else x

/-- A whole number in the range of a word stays one, `-0` and all else is a double. None for numbers
past the largest double. -/
def value? (n : Numeral) : Option Json :=
  let whole := Number.ofDigits n.whole
  match n.fraction, n.exponent with
  | none, none =>
    if !n.negative && whole < wordLimit then some (.int whole)
    else if n.negative && 0 < whole && Number.IsWord (-whole) then some (.int (-whole))
    else n.float?.map .float
  | _, _ => n.float?.map .float

end Numeral

end Sift.Json
