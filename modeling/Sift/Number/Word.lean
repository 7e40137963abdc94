namespace Sift.Number

def maxWord : Nat := 0x7fffffffffffffff

def IsWord (i : Int) : Prop := -(maxWord : Int) - 1 ≤ i ∧ i ≤ maxWord

instance (i : Int) : Decidable (IsWord i) := inferInstanceAs (Decidable (_ ∧ _))

def word? (i : Int) : Option Int64 := if IsWord i then some (Int64.ofInt i) else none

end Sift.Number
