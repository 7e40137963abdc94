import Sift.Number.Binary64

namespace Sift.Binary64

def Denotes (x : Binary64) (i : Int) : Prop := x.units? = some (i * one)

instance (x : Binary64) (i : Int) : Decidable (x.Denotes i) :=
  inferInstanceAs (Decidable (_ = _))

section Nearest

variable {m e : Nat}

theorem mul_one_shiftLeft (m e : Nat) : m * 1 <<< e = m <<< e := by
  rw [Nat.shiftLeft_eq, Nat.shiftLeft_eq, Nat.one_mul]

theorem shiftLeft_inj {n : Nat} (h : m <<< e = n <<< e) : m = n := by
  rw [Nat.shiftLeft_eq, Nat.shiftLeft_eq] at h
  exact Nat.eq_of_mul_eq_mul_right (Nat.two_pow_pos e) h

theorem log2_shiftLeft (hm : m ≠ 0) (e : Nat) : (m <<< e).log2 = m.log2 + e := by
  rw [Nat.log2_eq_iff (mt Nat.shiftLeft_eq_zero_iff.1 hm), Nat.shiftLeft_eq, Nat.add_right_comm, Nat.pow_add, Nat.pow_add]
  exact ⟨Nat.mul_le_mul_right _ (Nat.log2_self_le hm),
    Nat.mul_lt_mul_of_pos_right Nat.lt_log2_self (Nat.two_pow_pos e)⟩

theorem divNearest_shiftLeft (m e : Nat) : divNearest (m <<< e) (1 <<< e) = m := by
  have hp : 0 < 1 <<< e := by
    rw [Nat.shiftLeft_eq, Nat.one_mul]
    exact Nat.two_pow_pos e
  rw [divNearest, ← mul_one_shiftLeft m, Nat.mul_mod_left, Nat.mul_div_cancel m hp, if_pos hp]

/-- A double is nearest to itself. -/
theorem nearest_shiftLeft (h : Canonical m e) (hm : m ≠ 0) (negative : Bool) :
    nearest negative (m <<< e) 1 = .finite negative m e h := by
  have hl : m.log2 < 53 := (Nat.log2_lt hm).2 h.1
  have he : (m <<< e / 1).log2 - 52 = e := by
    rw [Nat.div_one, log2_shiftLeft hm]
    rcases h.2.2 with hs | rfl
    · have hg : 52 ≤ m.log2 := (Nat.le_log2 hm).2 hs
      omega
    · omega
  have hn : m ≠ 1 <<< 53 := Nat.ne_of_lt h.1
  simp only [nearest, he, divNearest_shiftLeft, if_neg hn]
  rw [ofParts, dif_pos h]

/-- Rounding changes no number that is a double. -/
theorem units_nearestInt {x : Binary64} {u : Int} (h : x.units? = some u) :
    (nearestInt u false).units? = some u := by
  cases x with
  | nan | infinity => cases h
  | finite negative m e hc =>
      obtain rfl := Option.some.inj h
      by_cases hm : m = 0
      · subst hm
        simp [nearestInt, zero, units?]
      · have hp : 0 < m <<< e := Nat.pos_of_ne_zero (mt Nat.shiftLeft_eq_zero_iff.1 hm)
        cases negative with
        | true =>
            have hu : -((m <<< e : Nat) : Int) ≠ 0 := by omega
            have hn : decide (-((m <<< e : Nat) : Int) < 0) = true := decide_eq_true (by omega)
            rw [if_pos rfl, nearestInt, if_neg hu, hn, Int.natAbs_neg, Int.natAbs_natCast, nearest_shiftLeft hc hm]
            rfl
        | false =>
            have hu : ((m <<< e : Nat) : Int) ≠ 0 := by omega
            have hn : decide (((m <<< e : Nat) : Int) < 0) = false := decide_eq_false (by omega)
            rw [if_neg Bool.false_ne_true, nearestInt, if_neg hu, hn, Int.natAbs_natCast, nearest_shiftLeft hc hm]
            rfl

/-- The double made of a whole number is that number if any double is. -/
theorem denotes_ofInt_iff {i : Int} : (ofInt i).Denotes i ↔ ∃ x : Binary64, x.Denotes i := by
  constructor
  · intro h
    exact ⟨_, h⟩
  · rintro ⟨x, hx⟩
    exact units_nearestInt hx

theorem shiftLeft_of_denotes {negative : Bool} {h : Canonical m e} {i : Int}
    (hi : (finite negative m e h).Denotes i) : m <<< e = i.natAbs <<< 1074 := by
  have hn := congrArg Int.natAbs (Option.some.inj hi)
  rw [Int.natAbs_mul, Int.natAbs_natCast, one, mul_one_shiftLeft] at hn
  rw [← hn]
  cases negative with
  | true => rw [if_pos rfl, Int.natAbs_neg, Int.natAbs_natCast]
  | false => rw [if_neg Bool.false_ne_true, Int.natAbs_natCast]

theorem denotes_of_shiftLeft {i : Int} (h : Canonical m e) (hi : m <<< e = i.natAbs <<< 1074) :
    (finite (decide (i < 0)) m e h).Denotes i := by
  have ho : ((i.natAbs <<< 1074 : Nat) : Int) = i.natAbs * one := by
    rw [one, ← Int.natCast_mul, mul_one_shiftLeft]
  rw [Denotes, units?, hi, ho]
  by_cases hn : i < 0
  · rw [decide_eq_true hn, if_pos rfl, ← Int.neg_mul, Int.ofNat_natAbs_of_nonpos (Int.le_of_lt hn), Int.neg_neg]
  · rw [decide_eq_false hn, if_neg Bool.false_ne_true, Int.natAbs_of_nonneg (Int.not_lt.1 hn)]

/-- Of the whole numbers of 64 bits those are doubles that fit in 53 bits once the zeros at their end are left
out. -/
theorem exists_denotes_iff {i : Int} (hi : i.natAbs < 1 <<< 64) :
    (∃ x : Binary64, x.Denotes i) ↔ ∃ m k, i.natAbs = m <<< k ∧ m < 1 <<< 53 := by
  constructor
  · rintro ⟨x, hx⟩
    cases x with
    | nan | infinity => cases hx
    | finite negative m e h =>
        have hs := shiftLeft_of_denotes hx
        by_cases he : 1074 ≤ e
        · rw [← Nat.sub_add_cancel he, Nat.shiftLeft_add] at hs
          exact ⟨m, e - 1074, (shiftLeft_inj hs).symm, h.1⟩
        · rw [← Nat.sub_add_cancel (Nat.le_of_not_le he), Nat.shiftLeft_add] at hs
          have hm : i.natAbs ≤ m := by
            rw [shiftLeft_inj hs, Nat.shiftLeft_eq]
            exact Nat.le_mul_of_pos_right _ (Nat.two_pow_pos _)
          exact ⟨i.natAbs, 0, rfl, Nat.lt_of_le_of_lt hm h.1⟩
  · rintro ⟨m, k, hk, hl⟩
    by_cases hm : m = 0
    · have hz : i = 0 := Int.natAbs_eq_zero.1 (hk.trans (Nat.shiftLeft_eq_zero_iff.2 hm))
      exact ⟨zero false, by rw [hz]; rfl⟩
    · have hm53 : m.log2 < 53 := (Nat.log2_lt hm).2 hl
      have hk64 : m.log2 + k < 64 := by
        rw [← log2_shiftLeft hm, ← hk]
        exact (Nat.log2_lt (hk ▸ mt Nat.shiftLeft_eq_zero_iff.1 hm)).2 hi
      -- all 53 bits are used
      have hb : (m <<< (52 - m.log2)).log2 = 52 := by
        rw [log2_shiftLeft hm]
        omega
      have hz : m <<< (52 - m.log2) ≠ 0 := mt Nat.shiftLeft_eq_zero_iff.1 hm
      have hc : Canonical (m <<< (52 - m.log2)) (1022 + k + m.log2) :=
        ⟨(Nat.log2_lt (k := 53) hz).1 (by omega), by omega, .inl ((Nat.le_log2 hz).1 (Nat.le_of_eq hb.symm))⟩
      refine ⟨_, denotes_of_shiftLeft hc ?_⟩
      have he : 52 - m.log2 + (1022 + k + m.log2) = k + 1074 := by omega
      rw [hk, ← Nat.shiftLeft_add, ← Nat.shiftLeft_add, he]

end Nearest

section Whole

variable {x : Binary64} {i : Int}

theorem Denotes.eq {n : Int} (hi : x.Denotes i) (hn : x.Denotes n) : i = n :=
  Int.eq_of_mul_eq_mul_right (by decide) (Option.some.inj (hi.symm.trans hn))

theorem isWhole_iff : x.isWhole = true ↔ ∃ i, x.Denotes i := by
  unfold isWhole Denotes
  cases x.units? with
  | none => simp
  | some u =>
      rw [beq_iff_eq, ← Int.dvd_iff_emod_eq_zero]
      constructor
      · rintro ⟨q, hq⟩
        exact ⟨q, by rw [hq, Int.mul_comm]⟩
      · rintro ⟨q, hq⟩
        exact ⟨q, by rw [Option.some.inj hq, Int.mul_comm]⟩

/-- The word made of a double is that double if any word is. -/
theorem toInt64_of_denotes {j : Int64} (h : x.Denotes j.toInt) : x.toInt64 = j := by
  have ht : x.truncateWithin (-Number.maxWord - 1) Number.maxWord = j.toInt := by
    cases x with
    | nan | infinity => cases h
    | finite negative m e hc =>
        rw [Denotes] at h
        have hl := j.le_toInt
        have hu := j.toInt_lt
        simp only [truncateWithin, h, Option.getD_some, Number.maxWord]
        rw [Int.mul_tdiv_cancel _ (by decide)]
        omega
  rw [toInt64, ht, Int64.ofInt_toInt]

theorem denotes_toInt64_iff : x.Denotes x.toInt64.toInt ↔ ∃ j : Int64, x.Denotes j.toInt := by
  constructor
  · intro h
    exact ⟨_, h⟩
  · rintro ⟨j, hj⟩
    rwa [toInt64_of_denotes hj]

end Whole

end Sift.Binary64
