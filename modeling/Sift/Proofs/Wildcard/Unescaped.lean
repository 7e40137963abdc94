import Mathlib.Data.List.Basic
import Sift.Proofs.Wildcard
import Sift.Proofs.Wildcard.Parts

namespace Sift.Wildcard

/-- Some wildcard of a text does not come right after a backslash. The text itself may come after a character. -/
def Unescaped (previous : Option Char) (cs : List Char) : Prop :=
  ∃ before c after, cs = before ++ c :: after ∧ (c = '%' ∨ c = '_') ∧
    before.getLast?.or previous ≠ some '\\'

variable {previous : Option Char}

theorem not_unescaped_nil : ¬ Unescaped previous [] := by
  rintro ⟨before, c, after, h, -⟩
  exact List.append_ne_nil_of_right_ne_nil before (List.cons_ne_nil c after) h.symm

theorem unescaped_cons {c : Char} {cs : List Char} :
    Unescaped previous (c :: cs) ↔
      ((c = '%' ∨ c = '_') ∧ previous ≠ some '\\') ∨ Unescaped (some c) cs := by
  have hl (before : List Char) :
      (c :: before).getLast?.or previous = before.getLast?.or (some c) := by
    rw [List.getLast?_cons]
    cases before.getLast? <;> rfl
  constructor
  · rintro ⟨before, d, after, he, hd, hb⟩
    cases before with
    | nil =>
        obtain ⟨rfl, rfl⟩ := List.cons.inj he
        exact .inl ⟨hd, hb⟩
    | cons b before =>
        obtain ⟨rfl, rfl⟩ := List.cons.inj he
        exact .inr ⟨before, d, after, rfl, hd, hl before ▸ hb⟩
  · rintro (⟨hc, hp⟩ | ⟨before, d, after, rfl, hd, hb⟩)
    · exact ⟨[], c, cs, rfl, hc, hp⟩
    · exact ⟨c :: before, d, after, rfl, hd, (hl before).symm ▸ hb⟩

/-- Translating a text adds to it wherever a wildcard is not escaped, and changes nothing else. -/
theorem expand_eq_self_iff {cs : List Char} : expand previous cs = cs ↔ ¬ Unescaped previous cs := by
  induction cs generalizing previous with
  | nil => exact iff_of_true rfl not_unescaped_nil
  | cons c cs ih =>
      have hi : expand (some c) cs = cs ↔ ¬ Unescaped (some c) cs := ih
      have hn {d : Char} : '.' :: d :: expand (some c) cs ≠ c :: cs := by
        intro he
        have hl := length_le_expand (some c) cs
        have := congrArg List.length he
        simp only [List.length_cons] at this
        omega
      rw [unescaped_cons, not_or, ← hi, expand]
      split
      · rename_i hc
        rw [Bool.and_eq_true, decide_eq_true_eq, decide_eq_true_eq] at hc
        exact iff_of_false hn fun h => h.1 ⟨.inl hc.1, hc.2⟩
      · split
        · rename_i hc
          rw [Bool.and_eq_true, decide_eq_true_eq, decide_eq_true_eq] at hc
          exact iff_of_false hn fun h => h.1 ⟨.inr hc.1, hc.2⟩
        · rename_i hp hu
          simp only [Bool.and_eq_true, decide_eq_true_eq] at hp hu
          rw [List.cons_inj_right, iff_and_self]
          rintro - ⟨rfl | rfl, h⟩
          · exact hp ⟨rfl, h⟩
          · exact hu ⟨rfl, h⟩

/-- A backslash right before a wildcard always escapes it, as it is never the second character of an escape
itself. -/
theorem exists_mark_iff {cs : List Char}
    (h : previous = some '\\' → cs.head? ≠ some '%' ∧ cs.head? ≠ some '_') :
    (∃ p ∈ parts cs, p.mark? ≠ none) ↔ Unescaped previous cs := by
  induction cs using parts.induct generalizing previous with
  | case1 rest ih | case2 rest ih =>
      rw [parts, unescaped_cons, unescaped_cons, ← ih (by simp)]
      simp [Part.mark?]
  | case3 rest ih | case4 rest ih =>
      have hp : previous ≠ some '\\' := fun hp => by simpa using h hp
      rw [parts, unescaped_cons]
      simp [Part.mark?, hp]
  | case5 c rest h₁ h₂ h₃ h₄ ih =>
      have hc : some c = some '\\' → rest.head? ≠ some '%' ∧ rest.head? ≠ some '_' := by
        intro hb
        have hb := Option.some.inj hb
        exact ⟨head?_ne_of_backslash h₁ hb, head?_ne_of_backslash h₂ hb⟩
      rw [parts, unescaped_cons, ← ih hc]
      · have hm : ¬ (c = '%' ∨ c = '_') := fun hm => hm.elim h₃ h₄
        simp [Part.mark?, hm]
      · exact h₁
      · exact h₂
      · exact h₃
      · exact h₄
  | case6 => exact iff_of_false (by simp [parts]) not_unescaped_nil

/-- A text counts as one with wildcards if and only if one of them has no backslash right before it, and if and
only if it is not its own pattern. -/
theorem occurs_iff_unescaped (s : String) :
    (occurs s = true ↔ ∃ before c after, s.toList = before ++ c :: after ∧ (c = '%' ∨ c = '_') ∧
        before.getLast? ≠ some '\\') ∧
      (occurs s = true ↔ toPattern s ≠ s) := by
  have hu : occurs s = true ↔ Unescaped none s.toList := by
    rw [occurs_iff, exists_mark_iff]
    rintro ⟨⟩
  have hp : toPattern s = s ↔ expand none s.toList = s.toList := by
    rw [toPattern, ← String.toList_inj, String.toList_ofList]
  constructor
  · simpa only [Unescaped, Option.or_none] using hu
  · rw [hu, Ne, hp, expand_eq_self_iff, not_not]

end Sift.Wildcard
