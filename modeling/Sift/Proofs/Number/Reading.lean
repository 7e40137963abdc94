import Sift.Number.Reading

namespace Sift.Number

def isNumeric (c : Char) : Bool := c.isAlphanum || c = '+' || c = '-' || c = '.'

def Numeric (cs : List Char) : Prop := ∀ c ∈ cs, isNumeric c = true

section

variable {cs : List Char}

theorem Numeric.cons {c : Char} (hc : isNumeric c = true) (h : Numeric cs) : Numeric (c :: cs) :=
  List.forall_mem_cons.2 ⟨hc, h⟩

theorem isNumeric_of_isDigit {c : Char} (h : c.isDigit = true) : isNumeric c = true := by
  simp [isNumeric, Char.isAlphanum, h]

theorem isAlphanum_of_toLower {c : Char} (h : c.toLower.isAlphanum = true) : c.isAlphanum = true := by
  unfold Char.toLower at h
  split at h
  · rename_i hu
    have hc : c.isUpper = true := decide_eq_true hu
    change (c.isUpper || c.isLower || c.isDigit) = true
    rw [hc]
    rfl
  · exact h

theorem numeric_of_splitSign (h : Numeric (splitSign cs).2) : Numeric cs := by
  unfold splitSign at h
  split at h
  · exact h.cons rfl
  · exact h.cons rfl
  · exact h

theorem numeric_of_dropWhile (h : Numeric (cs.dropWhile Char.isDigit)) : Numeric cs := by
  induction cs with
  | nil => exact h
  | cons c cs ih =>
      by_cases hc : c.isDigit = true
      · rw [List.dropWhile_cons_of_pos hc] at h
        exact (ih h).cons (isNumeric_of_isDigit hc)
      · rwa [List.dropWhile_cons_of_neg hc] at h

theorem numeric_of_digits? {n : Nat} (h : digits? cs = some n) : Numeric cs := by
  unfold digits? at h
  split at h
  · rename_i hd
    rw [Bool.and_eq_true, List.all_eq_true] at hd
    exact fun c hc => isNumeric_of_isDigit (hd.2 c hc)
  · cases h

theorem numeric_of_int64? {i : Int64} (h : int64? cs = some i) : Numeric cs := by
  obtain ⟨n, hn, -⟩ := Option.bind_eq_some_iff.1 h
  exact numeric_of_splitSign (numeric_of_digits? hn)

theorem numeric_of_exponent? {e : Int} (h : exponent? cs = some e) : Numeric cs := by
  cases cs with
  | nil => exact List.forall_mem_nil _
  | cons c cs =>
      rw [exponent?] at h
      split at h
      · rename_i hc
        obtain ⟨_, hd, -⟩ := Option.map_eq_some_iff.1 h
        obtain ⟨n, hn, -⟩ := Option.bind_eq_some_iff.1 hd
        apply (numeric_of_splitSign (numeric_of_digits? hn)).cons
        rw [Bool.or_eq_true, decide_eq_true_iff, decide_eq_true_iff] at hc
        rcases hc with rfl | rfl <;> rfl
      · cases h

theorem numeric_of_decimal? {r : Nat × Int} (h : decimal? cs = some r) : Numeric cs := by
  apply numeric_of_dropWhile
  unfold decimal? at h
  dsimp only at h
  generalize cs.dropWhile Char.isDigit = rest at h ⊢
  -- the rest is a fraction and an exponent, or an exponent alone
  split at h
  all_goals
    split at h
    · cases h
    obtain ⟨e, he, -⟩ := Option.map_eq_some_iff.1 h
  · exact (numeric_of_dropWhile (numeric_of_exponent? he)).cons rfl
  · exact numeric_of_exponent? he

theorem numeric_of_word {word : String} (hw : word.toList.all Char.isAlphanum = true)
    (h : String.ofList (cs.map Char.toLower) = word) : Numeric cs := by
  subst h
  intro c hc
  rw [String.toList_ofList, List.all_eq_true] at hw
  rw [isNumeric, isAlphanum_of_toLower (hw _ (List.mem_map_of_mem hc))]
  rfl

/-- Nothing is read as a number that has a character which is not for numbers. -/
theorem numeric_of_binary64? {x : Binary64} (h : binary64? cs = some x) : Numeric cs := by
  apply numeric_of_splitSign
  unfold binary64? at h
  dsimp only at h
  split at h
  · rename_i hd
    exact numeric_of_decimal? hd
  · split at h
    · rename_i hw
      rw [Bool.or_eq_true, decide_eq_true_iff, decide_eq_true_iff] at hw
      rcases hw with hw | hw <;> exact numeric_of_word (by decide) hw
    · split at h
      · rename_i hw
        exact numeric_of_word (by decide) hw
      · cases h

end

end Sift.Number
