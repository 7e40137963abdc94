import Sift.Wildcard

namespace Sift.Wildcard

inductive Part where
  | any
  | one
  | char (c : Char)
  deriving DecidableEq

/-- What a text with wildcards says. Only `\%` and `\_` are escapes, any other backslash is itself. -/
def parts : List Char → List Part
  | '\\' :: '%' :: rest => .char '%' :: parts rest
  | '\\' :: '_' :: rest => .char '_' :: parts rest
  | '%' :: rest => .any :: parts rest
  | '_' :: rest => .one :: parts rest
  | c :: rest => .char c :: parts rest
  | [] => []

/-- Whether the whole of a text is as the parts say: any text, at most one character, or the character. -/
def fits : List Part → List Char → Bool
  | [], cs => cs.isEmpty
  | .any :: ps, cs => (List.range (cs.length + 1)).any fun n => fits ps (cs.drop n)
  | .one :: ps, cs => fits ps cs || (!cs.isEmpty && fits ps cs.tail)
  | .char c :: ps, cs => cs.head? = some c && fits ps cs.tail

namespace Part

def mark? : Part → Option Char
  | any => some '%'
  | one => some '_'
  | char _ => none

def regexp : Part → List Char
  | any => ['.', '*']
  | one => ['.', '?']
  | char c => if c = '%' ∨ c = '_' then ['\\', c] else [c]

end Part

theorem dropEscaped_cons {c d : Char} {rest : List Char} (h : ¬ (c = '\\' ∧ rest.head? = some d)) :
    dropEscaped d (c :: rest) = c :: dropEscaped d rest := by
  rw [dropEscaped.eq_def]
  split
  · rename_i e rest' he
    obtain ⟨rfl, rfl⟩ := List.cons.inj he
    rw [if_neg]
    exact fun hd => h ⟨rfl, congrArg some hd⟩
  · rename_i he
    obtain ⟨rfl, rfl⟩ := List.cons.inj he
    rfl
  · rename_i he
    cases he

/-- A backslash that begins no escape of a wildcard does not stand before one. -/
theorem head?_ne_of_backslash {c d : Char} {rest : List Char}
    (h : ∀ rest', c = '\\' → rest = d :: rest' → False) (hc : c = '\\') : rest.head? ≠ some d := by
  intro hr
  obtain ⟨rest', rfl⟩ := List.head?_eq_some_iff.1 hr
  exact h rest' hc rfl

theorem mem_dropEscaped {d : Char} (hd : d = '%' ∨ d = '_') (cs : List Char) :
    d ∈ dropEscaped d cs ↔ ∃ p ∈ parts cs, p.mark? = some d := by
  have hb : d ≠ '\\' := by
    rintro rfl
    revert hd
    decide
  induction cs using parts.induct with
  | case1 rest ih =>
      rcases hd with rfl | rfl
      · simpa [dropEscaped, parts, Part.mark?] using ih
      · simpa [dropEscaped_cons, parts, Part.mark?] using ih
  | case2 rest ih =>
      rcases hd with rfl | rfl
      · simpa [dropEscaped_cons, parts, Part.mark?] using ih
      · simpa [dropEscaped, parts, Part.mark?] using ih
  | case3 rest ih =>
      rw [dropEscaped_cons (by simp), parts]
      simp [ih, Part.mark?, eq_comm]
  | case4 rest ih =>
      rw [dropEscaped_cons (by simp), parts]
      simp [ih, Part.mark?, eq_comm]
  | case5 c rest h₁ h₂ h₃ h₄ ih =>
      have hc : d ≠ c := by
        rcases hd with rfl | rfl
        · exact fun h => h₃ h.symm
        · exact fun h => h₄ h.symm
      have he : ¬ (c = '\\' ∧ rest.head? = some d) := by
        rintro ⟨he, hr⟩
        rcases hd with rfl | rfl
        · exact head?_ne_of_backslash h₁ he hr
        · exact head?_ne_of_backslash h₂ he hr
      rw [dropEscaped_cons he, parts]
      · simp [ih, Part.mark?, hc]
      · exact h₁
      · exact h₂
      · exact h₃
      · exact h₄
  | case6 => simp [dropEscaped, parts]

/-- A text counts as one with wildcards if and only if some part of it is not a character. -/
theorem occurs_iff (s : String) : occurs s = true ↔ ∃ p ∈ parts s.toList, p.mark? ≠ none := by
  simp only [occurs, List.any_cons, List.any_nil, Bool.or_false, Bool.or_eq_true, List.contains_iff_mem]
  rw [mem_dropEscaped (.inl rfl), mem_dropEscaped (.inr rfl), ← exists_or]
  apply exists_congr
  intro p
  cases p <;> simp [Part.mark?]

theorem expand_parts {b : Option Char} {cs : List Char}
    (h : b = some '\\' → cs.head? ≠ some '%' ∧ cs.head? ≠ some '_') :
    expand b cs = (parts cs).flatMap Part.regexp := by
  induction cs using parts.induct generalizing b with
  | case1 rest ih | case2 rest ih =>
      simp only [expand, parts, List.flatMap_cons, Part.regexp]
      simp [ih (b := some _)]
  | case3 rest ih | case4 rest ih =>
      have hp : b ≠ some '\\' := by
        intro hp
        simpa using h hp
      simp [expand, parts, Part.regexp, hp, ih (b := some _)]
  | case5 c rest h₁ h₂ h₃ h₄ ih =>
      have hc : c ≠ '%' ∧ c ≠ '_' := ⟨h₃, h₄⟩
      rw [expand, parts, List.flatMap_cons, Part.regexp, ih]
      · simp [hc]
      · intro hb
        have hb := Option.some.inj hb
        exact ⟨head?_ne_of_backslash h₁ hb, head?_ne_of_backslash h₂ hb⟩
      · exact h₁
      · exact h₂
      · exact h₃
      · exact h₄
  | case6 => rfl

theorem toList_toPattern (s : String) : (toPattern s).toList = (parts s.toList).flatMap Part.regexp := by
  rw [toPattern, String.toList_ofList]
  apply expand_parts
  rintro ⟨⟩

end Sift.Wildcard
