import Sift.Wildcard

namespace Sift.Wildcard

theorem length_le_expand (previous : Option Char) (cs : List Char) :
    cs.length ≤ (expand previous cs).length := by
  induction cs generalizing previous with
  | nil => exact Nat.le_refl 0
  | cons c cs ih =>
      have hi := ih (some c)
      rw [expand]
      split
      · simp only [List.length_cons]
        omega
      · split <;> simp only [List.length_cons] <;> omega

theorem head?_anyOf (texts : List String) : (anyOf texts).toList.head? = some '^' := by
  rw [anyOf, String.toList_append, String.toList_append]
  rfl

theorem length_lt_anyOf (s : String) (texts : List String) : s.length + 3 < (anyOf (s :: texts)).length := by
  have hs : s.length ≤ (toPattern s).length := by
    rw [toPattern, ← String.length_toList, ← String.length_toList, String.toList_ofList]
    exact length_le_expand none s.toList
  have ht : (toPattern s).length ≤ ("|".intercalate ((s :: texts).map toPattern)).length := by
    cases texts with
    | nil => simp
    | cons t texts =>
        rw [List.map_cons, String.intercalate_cons_of_ne_nil (by simp)]
        simp only [String.length_append]
        omega
  simp only [anyOf, String.length_append]
  have ho : "^(".length = 2 := by decide
  have hc : ")$".length = 2 := by decide
  omega

end Sift.Wildcard
