import Sift.Number.Binary64

namespace Sift

structure Decimal where
  digits : Nat
  exponent : Int
  deriving DecidableEq

namespace Decimal

inductive Tie where
  | up
  | even

/-- The magnitude `mid / den` together with the two ends of the reals that round to it; the ends
belong to them if `closed`. -/
structure Span where
  low : Nat
  mid : Nat
  high : Nat
  den : Nat
  closed : Bool

/-- Below a power of two the neighbour is half as far away as above it. -/
def Span.ofParts (significand exponent : Nat) : Span :=
  let below := if significand = 1 <<< 52 ∧ exponent ≠ 0 then 1 else 2
  { low := (4 * significand - below) <<< exponent
    mid := (4 * significand) <<< exponent
    high := (4 * significand + 2) <<< exponent
    den := 4 * Binary64.one
    closed := significand % 2 == 0 }

def Span.scale (s : Span) (k : Int) : Span :=
  if 0 ≤ k then { s with den := s.den * Nat.pow 10 k.toNat }
  else
    let f := Nat.pow 10 (-k).toNat
    { s with low := s.low * f, mid := s.mid * f, high := s.high * f }

def Span.holds (s : Span) (c : Nat) : Bool :=
  if s.closed then s.low ≤ c * s.den && c * s.den ≤ s.high
  else s.low < c * s.den && c * s.den < s.high

/-- The point of the grid of steps `10 ^ k` that lies in the span, the one nearest to its middle. Only
the two points around the middle have to be looked at. -/
def Span.point? (tie : Tie) (s : Span) (k : Int) : Option Nat :=
  let s := s.scale k
  let c := s.mid / s.den
  match s.holds c, s.holds (c + 1) with
  | false, false => none
  | true, false => some c
  | false, true => some (c + 1)
  | true, true =>
    match compare (2 * s.mid) ((2 * c + 1) * s.den) with
    | .lt => some c
    | .gt => some (c + 1)
    | .eq =>
      match tie with
      | .up => some (c + 1)
      | .even => some (if c % 2 = 0 then c else c + 1)

/-- The fewest digits that read back as the number: the first grid, from coarse to fine, that has a
point in its span. -/
def shortest (tie : Tie) (significand exponent : Nat) : Decimal :=
  let s := Span.ofParts significand exponent
  let onGrid (k : Int) : Option Decimal := (s.point? tie k).map fun c => ⟨c, k⟩
  ((List.range 652).findSome? fun (i : Nat) => onGrid (309 - i)).getD ⟨0, 0⟩

def positional (whole : String) (d : Decimal) : String :=
  let ds := (toString d.digits).toList
  if 0 ≤ d.exponent then
    String.ofList (ds ++ List.replicate d.exponent.toNat '0') ++ whole
  else
    let places := (-d.exponent).toNat
    let ds := List.replicate (places + 1 - ds.length) '0' ++ ds
    let cut := ds.length - places
    String.ofList (ds.take cut ++ '.' :: ds.drop cut)

def scientific (d : Decimal) : String :=
  let ds := (toString d.digits).toList
  let power : Int := d.exponent + (ds.length - 1 : Nat)
  let mantissa := match ds with
    | [] => []
    | [c] => [c]
    | c :: rest => c :: '.' :: rest
  String.ofList mantissa ++ "e" ++ (if power < 0 then "-" else "+") ++ toString power.natAbs

end Decimal

namespace Binary64

def signText (negative : Bool) : String := if negative then "-" else ""

def plainText : Binary64 → String
  | .nan => "NaN"
  | .infinity negative => signText negative ++ "inf"
  | .finite negative 0 _ _ => signText negative ++ "0"
  | .finite negative significand exponent _ =>
    signText negative ++ (Decimal.shortest .up significand exponent).positional ""

def numeral? : Binary64 → Option String
  | .nan | .infinity _ => none
  | .finite negative 0 _ _ => some (signText negative ++ "0.0")
  | .finite negative significand exponent _ =>
    let d := Decimal.shortest .even significand exponent
    let power : Int := d.exponent + ((toString d.digits).length - 1 : Nat)
    some <| signText negative ++
      if -5 ≤ power && power ≤ 15 then d.positional ".0" else d.scientific

end Binary64

end Sift
