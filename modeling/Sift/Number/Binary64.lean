import Sift.Number.Word

namespace Sift

/-- The finite doubles are `significand * 2 ^ exponent` units, a unit being `2 ^ -1074`. All 53 bits of
the significand are used unless the exponent is zero, so each magnitude has one form. -/
def Binary64.Canonical (significand exponent : Nat) : Prop :=
  significand < 1 <<< 53 ∧ exponent ≤ 2045 ∧ (1 <<< 52 ≤ significand ∨ exponent = 0)

instance (significand exponent : Nat) : Decidable (Binary64.Canonical significand exponent) :=
  inferInstanceAs (Decidable (_ ∧ _ ∧ (_ ∨ _)))

/-- The numbers of the binary format with 64 bits. Payloads of NaN are not told apart. -/
inductive Binary64 where
  | nan
  | infinity (negative : Bool)
  | finite (negative : Bool) (significand exponent : Nat)
      (canonical : Binary64.Canonical significand exponent)
  deriving DecidableEq

namespace Binary64

def one : Nat := 1 <<< 1074

def zero (negative : Bool) : Binary64 := .finite negative 0 0 (by decide)

def divNearest (num den : Nat) : Nat :=
  let q := num / den
  let r := num % den
  if 2 * r < den then q else if den < 2 * r then q + 1 else if q % 2 = 0 then q else q + 1

def ofParts (negative : Bool) (significand exponent : Nat) : Binary64 :=
  if h : Canonical significand exponent then .finite negative significand exponent h
  else .infinity negative

def nearest (negative : Bool) (num den : Nat) : Binary64 :=
  let exponent := (num / den).log2 - 52
  let significand := divNearest num (den <<< exponent)
  if significand = 1 <<< 53 then ofParts negative (1 <<< 52) (exponent + 1)
  else ofParts negative significand exponent

def nearestInt (units : Int) (zeroNegative : Bool) : Binary64 :=
  if units = 0 then zero zeroNegative else nearest (units < 0) units.natAbs 1

def ofInt (i : Int) : Binary64 := nearestInt (i * one) false

/-- The number nearest to `digits * 10 ^ exponent`. The two cut-offs keep the powers small: beyond
them the number is past the largest double, or under half of the smallest. -/
def ofDecimal (negative : Bool) (digits : Nat) (exponent : Int) : Binary64 :=
  let size : Int := (toString digits).length + exponent
  if digits = 0 || size < -330 then zero negative
  else if 310 < size then .infinity negative
  else if 0 ≤ exponent then nearest negative (digits * Nat.pow 10 exponent.toNat * one) 1
  else nearest negative (digits * one) (Nat.pow 10 (-exponent).toNat)

def isNaN : Binary64 → Bool
  | .nan => true
  | _ => false

def isFinite : Binary64 → Bool
  | .finite .. => true
  | _ => false

def isNegative : Binary64 → Bool
  | .nan => false
  | .infinity negative => negative
  | .finite negative .. => negative

def units? : Binary64 → Option Int
  | .finite negative significand exponent _ =>
    some (if negative then -(significand <<< exponent : Nat) else (significand <<< exponent : Nat))
  | _ => none

def neg : Binary64 → Binary64
  | .nan => .nan
  | .infinity negative => .infinity !negative
  | .finite negative significand exponent h => .finite (!negative) significand exponent h

def abs : Binary64 → Binary64
  | .nan => .nan
  | .infinity _ => .infinity false
  | .finite _ significand exponent h => .finite false significand exponent h

def add : Binary64 → Binary64 → Binary64
  | .nan, _ | _, .nan => .nan
  | .infinity a, .infinity b => if a = b then .infinity a else .nan
  | .infinity a, .finite .. => .infinity a
  | .finite .., .infinity b => .infinity b
  | x@(.finite a ..), y@(.finite b ..) =>
    nearestInt ((units? x).getD 0 + (units? y).getD 0) (a && b)

def sub (x y : Binary64) : Binary64 := add x y.neg

def mul : Binary64 → Binary64 → Binary64
  | .nan, _ | _, .nan => .nan
  | .infinity a, .infinity b => .infinity (a != b)
  | .infinity a, .finite b m _ _ => if m = 0 then .nan else .infinity (a != b)
  | .finite a m _ _, .infinity b => if m = 0 then .nan else .infinity (a != b)
  | .finite a m e _, .finite b n f _ => nearest (a != b) ((m <<< e) * (n <<< f)) one

def div : Binary64 → Binary64 → Binary64
  | .nan, _ | _, .nan => .nan
  | .infinity _, .infinity _ => .nan
  | .infinity a, .finite b .. => .infinity (a != b)
  | .finite a .., .infinity b => zero (a != b)
  | .finite a m e _, .finite b n f _ =>
    if n = 0 then (if m = 0 then .nan else .infinity (a != b))
    else nearest (a != b) ((m <<< e) * one) (n <<< f)

def compare? : Binary64 → Binary64 → Option Ordering
  | .nan, _ | _, .nan => none
  | .infinity a, .infinity b => some (compare b a)
  | .infinity a, .finite .. => some (if a then .lt else .gt)
  | .finite .., .infinity b => some (if b then .gt else .lt)
  | x@(.finite ..), y@(.finite ..) => some (compare ((units? x).getD 0) ((units? y).getD 0))

def isWhole (x : Binary64) : Bool :=
  match x.units? with
  | some u => u % one == 0
  | none => false

def truncateWithin (lo hi : Int) (x : Binary64) : Int :=
  match x with
  | .nan => 0
  | .infinity negative => if negative then lo else hi
  | .finite .. => max lo (min hi ((x.units?.getD 0).tdiv one))

def toInt64 (x : Binary64) : Int64 :=
  Int64.ofInt (x.truncateWithin (-Number.maxWord - 1) Number.maxWord)

end Binary64

end Sift
