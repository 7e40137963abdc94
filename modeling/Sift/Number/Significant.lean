import Sift.Number.Shortest

namespace Sift

namespace Decimal

def trimmed (d : Decimal) : Decimal :=
  let ds := (toString d.digits).toList.reverse
  let zeros := (ds.takeWhile (· = '0')).length
  if d.digits = 0 then ⟨0, 0⟩ else ⟨d.digits / Nat.pow 10 zeros, d.exponent + zeros⟩

def leadingPower (num den : Nat) : Int :=
  if den ≤ num then ((toString (num / den)).length - 1 : Nat)
  else
    0 - ((toString ((den + num - 1) / num - 1)).length : Int)

def significant (places num den : Nat) : Decimal :=
  let power := leadingPower num den
  let step := power - (places - 1 : Nat)
  let num := num * Nat.pow 10 (-step).toNat
  let den := den * Nat.pow 10 step.toNat
  let c := (2 * num + den) / (2 * den)
  trimmed ⟨c, step⟩

end Decimal

namespace Binary64

/-- A number with fifteen digits at most and at least one place. Numbers below `1e-4` and from `1e15` on
have an exponent of at least two digits. -/
def columnText : Binary64 → String
  | .nan => "NaN"
  | .infinity negative => signText negative ++ "Inf"
  | .finite _ 0 _ _ => "0.0"
  | .finite negative significand exponent _ =>
    let d := Decimal.significant 15 (significand <<< exponent) one
    let ds := (toString d.digits).toList
    let power : Int := d.exponent + (ds.length - 1 : Nat)
    signText negative ++
      if -4 ≤ power && power ≤ 14 then d.positional ".0"
      else
        let places := if ds.length ≤ 1 then ['0'] else ds.drop 1
        let size := toString power.natAbs
        String.ofList (ds.take 1 ++ '.' :: places) ++ "e" ++ (if power < 0 then "-" else "+") ++
          (if size.length < 2 then "0" else "") ++ size

end Binary64

end Sift
