import Mathlib.Data.Finset.Card
import Sift.Pattern.Basic

namespace Sift.Pattern

def Walk (r : Nat → Nat → Prop) : Nat → Nat → Nat → Prop
  | 0, i, j => j = i
  | n + 1, i, j => ∃ k, r i k ∧ Walk r n k j

/-- What stands between two places of a text is what a pattern says. -/
def Spans (t : Array Char) : Pattern → Nat → Nat → Prop
  | .empty, i, j => j = i
  | .one set, i, j => j = i + 1 ∧ ∃ c, t[i]? = some c ∧ set.contains c = true
  | .edge e, i, j => j = i ∧ e.holds (before? t i) t[i]? = true
  | .seq a b, i, j => ∃ k, Spans t a i k ∧ Spans t b k j
  | .alt a b, i, j => Spans t a i j ∨ Spans t b i j
  | .times p least most, i, j => ∃ n, (∀ m ∈ most, n ≤ m - least) ∧ Walk (Spans t p) (least + n) i j

section Walk

variable {r r' : Nat → Nat → Prop} {i j m n : Nat}

theorem walk_add : Walk r (m + n) i j ↔ ∃ k, Walk r m i k ∧ Walk r n k j := by
  induction m generalizing i with
  | zero => simp [Walk]
  | succ m ih =>
      rw [Nat.succ_add, Walk]
      simp only [ih, Walk]
      constructor
      · rintro ⟨k, hk, l, hl, hj⟩
        exact ⟨l, ⟨k, hk, hl⟩, hj⟩
      · rintro ⟨l, ⟨k, hk, hl⟩, hj⟩
        exact ⟨k, hk, l, hl, hj⟩

/-- A walk keeps what its steps keep. -/
theorem walk_invariant (inv : Nat → Prop) (h : ∀ i, inv i → ∀ j, r i j → inv j) (hi : inv i)
    (hw : Walk r n i j) : inv j := by
  induction n generalizing i with
  | zero => exact hw ▸ hi
  | succ n ih =>
      obtain ⟨k, hk, hj⟩ := hw
      exact ih (h i hi k hk) hj

theorem walk_congr (inv : Nat → Prop) (h : ∀ i, inv i → ∀ j, r i j → inv j)
    (hr : ∀ i, inv i → ∀ j, (r i j ↔ r' i j)) (hi : inv i) : Walk r n i j ↔ Walk r' n i j := by
  induction n generalizing i with
  | zero => exact Iff.rfl
  | succ n ih =>
      constructor
      · rintro ⟨k, hk, hj⟩
        exact ⟨k, (hr i hi k).1 hk, (ih (h i hi k hk)).1 hj⟩
      · rintro ⟨k, hk, hj⟩
        have hk := (hr i hi k).2 hk
        exact ⟨k, hk, (ih (h i hi k hk)).2 hj⟩

end Walk

section Steps

variable {step : Nat → List Nat} {found latest : List Nat} {i j n : Nat}

/-- Places of which each step leads to one of them, and each is led to, are those that walks lead to. -/
theorem walk_of_fixed (h : ∀ j, j ∈ found ↔ ∃ i ∈ found, j ∈ step i) (n : Nat) :
    j ∈ found ↔ ∃ i ∈ found, Walk (fun i j => j ∈ step i) n i j := by
  induction n with
  | zero => simp [Walk]
  | succ n ih =>
      rw [ih]
      constructor
      · rintro ⟨k, hk, hj⟩
        obtain ⟨i, hi, hs⟩ := (h k).1 hk
        exact ⟨i, hi, k, hs, hj⟩
      · rintro ⟨i, hi, k, hs, hj⟩
        exact ⟨k, (h k).2 ⟨i, hi, hs⟩, hj⟩

theorem mem_exactly : j ∈ exactly step n found ↔ ∃ i ∈ found, Walk (fun i j => j ∈ step i) n i j := by
  induction n generalizing found with
  | zero => simp [exactly, Walk]
  | succ n ih =>
      have hn (k : Nat) : k ∈ (found.flatMap step).eraseDups ↔ ∃ i ∈ found, k ∈ step i := by
        rw [List.mem_eraseDups, List.mem_flatMap]
      have hw : (∃ i ∈ found, Walk (fun i j => j ∈ step i) (n + 1) i j) ↔
          ∃ k ∈ (found.flatMap step).eraseDups, Walk (fun i j => j ∈ step i) n k j := by
        constructor
        · rintro ⟨i, hi, k, hk, hj⟩
          exact ⟨k, (hn k).2 ⟨i, hi, hk⟩, hj⟩
        · rintro ⟨k, hk, hj⟩
          obtain ⟨i, hi, hk⟩ := (hn k).1 hk
          exact ⟨i, hi, k, hk, hj⟩
      rw [exactly, hw]
      split
      · rename_i hc
        rw [Bool.or_eq_true, List.isEmpty_iff, beq_iff_eq] at hc
        rcases hc with he | hf
        · simp [he]
        · rw [hf] at hn ⊢
          exact walk_of_fixed hn n
      · exact ih

theorem subset_atMost : found ⊆ atMost step n found latest := by
  induction n generalizing found latest with
  | zero => exact List.Subset.refl found
  | succ n ih =>
      rw [atMost]
      split
      · exact List.Subset.refl found
      · exact List.Subset.trans (List.subset_append_left _ _) ih

/-- The steps of what was found before are found as well. Only the latest places may lead to new ones. -/
structure Frontier (step : Nat → List Nat) (found latest : List Nat) : Prop where
  subset : latest ⊆ found
  closed : ∀ i ∈ found, i ∉ latest → step i ⊆ found

def fresh (step : Nat → List Nat) (found latest : List Nat) : List Nat :=
  ((latest.flatMap step).filter (· ∉ found)).eraseDups

theorem mem_fresh : j ∈ fresh step found latest ↔ (∃ i ∈ latest, j ∈ step i) ∧ j ∉ found := by
  simp [fresh, List.mem_eraseDups]

namespace Frontier

theorem mem_or_fresh (h : Frontier step found latest) (hi : i ∈ found) (hj : j ∈ step i) :
    j ∈ found ∨ j ∈ fresh step found latest := by
  by_cases hf : j ∈ found
  · exact .inl hf
  · refine .inr (mem_fresh.2 ⟨⟨i, ?_, hj⟩, hf⟩)
    by_contra hl
    exact hf (h.closed i hi hl hj)

theorem next (h : Frontier step found latest) :
    Frontier step (found ++ fresh step found latest) (fresh step found latest) := by
  refine ⟨List.subset_append_right _ _, ?_⟩
  intro i hi hn j hj
  have hi : i ∈ found := (List.mem_append.1 hi).resolve_right hn
  exact List.mem_append.2 (h.mem_or_fresh hi hj)

/-- A walk from a place that was found stays among those places, or goes on from a new one. -/
theorem mem_or_walk (h : Frontier step found latest) (hi : i ∈ found)
    (hw : Walk (fun i j => j ∈ step i) n i j) :
    j ∈ found ∨ ∃ k ∈ fresh step found latest, ∃ m < n, Walk (fun i j => j ∈ step i) m k j := by
  induction n generalizing i with
  | zero => exact .inl (hw ▸ hi)
  | succ n ih =>
      obtain ⟨k, hk, hj⟩ := hw
      rcases h.mem_or_fresh hi hk with hf | hn
      · obtain hf | ⟨l, hl, m, hm, hj⟩ := ih hf hj
        · exact .inl hf
        · exact .inr ⟨l, hl, m, by omega, hj⟩
      · exact .inr ⟨k, hn, n, Nat.lt_succ_self n, hj⟩

/-- What is found in so many rounds is what so many steps lead to. -/
theorem mem_atMost (h : Frontier step found latest) :
    j ∈ atMost step n found latest ↔
      j ∈ found ∨ ∃ i ∈ latest, ∃ m ≤ n, Walk (fun i j => j ∈ step i) m i j := by
  induction n generalizing found latest with
  | zero =>
      rw [atMost]
      constructor
      · exact .inl
      · rintro (hj | ⟨i, hi, m, hm, hw⟩)
        · exact hj
        · obtain rfl : m = 0 := by omega
          exact hw ▸ h.subset hi
  | succ n ih =>
      have hb : (∃ i ∈ latest, ∃ m ≤ n + 1, Walk (fun i j => j ∈ step i) m i j) →
          j ∈ found ∨ ∃ k ∈ fresh step found latest, ∃ m ≤ n, Walk (fun i j => j ∈ step i) m k j := by
        rintro ⟨i, hi, m, hm, hw⟩
        obtain hf | ⟨k, hk, m', hm', hw⟩ := h.mem_or_walk (h.subset hi) hw
        · exact .inl hf
        · exact .inr ⟨k, hk, m', by omega, hw⟩
      rw [atMost, ← fresh]
      split
      · rename_i he
        rw [List.isEmpty_iff] at he
        constructor
        · exact .inl
        · rintro (hj | hw)
          · exact hj
          · simpa [he] using hb hw
      · rw [ih h.next, List.mem_append]
        constructor
        · rintro ((hj | hj) | ⟨k, hk, m, hm, hw⟩)
          · exact .inl hj
          · obtain ⟨⟨i, hi, hs⟩, -⟩ := mem_fresh.1 hj
            exact .inr ⟨i, hi, 1, by omega, j, hs, rfl⟩
          · obtain ⟨⟨i, hi, hs⟩, -⟩ := mem_fresh.1 hk
            exact .inr ⟨i, hi, m + 1, by omega, k, hs, hw⟩
        · rintro (hj | hw)
          · exact .inl (.inl hj)
          · obtain hj | ⟨k, hk, hw⟩ := hb hw
            · exact .inl (.inl hj)
            · exact .inr ⟨k, hk, hw⟩

/-- Every round finds a new place or is the last. After as many rounds as there are places nothing is new. -/
theorem closed_atMost {size : Nat} (h : Frontier step found latest) (hs : ∀ i < size, ∀ j ∈ step i, j < size)
    (hf : ∀ i ∈ found, i < size) (hn : size ≤ found.toFinset.card + n) :
    ∀ i ∈ atMost step n found latest, ∀ j ∈ step i, j ∈ atMost step n found latest := by
  induction n generalizing found latest with
  | zero =>
      have ha : found.toFinset = Finset.range size := by
        apply Finset.eq_of_subset_of_card_le
        · intro i hi
          exact Finset.mem_range.2 (hf i (List.mem_toFinset.1 hi))
        · rw [Finset.card_range]
          exact hn
      intro i hi j hj
      have hj : j ∈ found.toFinset := ha ▸ Finset.mem_range.2 (hs i (hf i hi) j hj)
      exact List.mem_toFinset.1 hj
  | succ n ih =>
      rw [atMost, ← fresh]
      split
      · rename_i he
        rw [List.isEmpty_iff] at he
        intro i hi j hj
        simpa [he] using h.mem_or_fresh hi hj
      · rename_i he
        apply ih h.next
        · intro i hi
          rcases List.mem_append.1 hi with hi | hi
          · exact hf i hi
          · obtain ⟨⟨k, hk, hj⟩, -⟩ := mem_fresh.1 hi
            exact hs k (hf k (h.subset hk)) i hj
        · obtain ⟨k, hk⟩ := List.exists_mem_of_ne_nil _ (mt List.isEmpty_iff.2 he)
          have hlt : found.toFinset.card < (found ++ fresh step found latest).toFinset.card := by
            apply Finset.card_lt_card
            rw [Finset.ssubset_iff]
            refine ⟨k, fun hm => (mem_fresh.1 hk).2 (List.mem_toFinset.1 hm), ?_⟩
            intro l hl
            rw [List.mem_toFinset, List.mem_append]
            rcases Finset.mem_insert.1 hl with rfl | hl
            · exact .inr hk
            · exact .inl (List.mem_toFinset.1 hl)
          omega

end Frontier

theorem frontier_self (found : List Nat) : Frontier step found found :=
  ⟨List.Subset.refl found, fun _ hi hn => absurd hi hn⟩

theorem mem_atMost_exactly {least : Nat} :
    j ∈ atMost step n (exactly step least [i]) (exactly step least [i]) ↔
      ∃ m ≤ n, Walk (fun i j => j ∈ step i) (least + m) i j := by
  have hf (k : Nat) : k ∈ exactly step least [i] ↔ Walk (fun i j => j ∈ step i) least i k := by
    simp [mem_exactly]
  rw [(frontier_self _).mem_atMost]
  constructor
  · rintro (hj | ⟨k, hk, m, hm, hj⟩)
    · exact ⟨0, Nat.zero_le n, (hf j).1 hj⟩
    · exact ⟨m, hm, walk_add.2 ⟨k, (hf k).1 hk, hj⟩⟩
  · rintro ⟨m, hm, hj⟩
    obtain ⟨k, hk, hj⟩ := walk_add.1 hj
    exact .inr ⟨k, (hf k).2 hk, m, hm, hj⟩

/-- As many rounds as there are places find all that any number of steps leads to. -/
theorem mem_atMost_size {least size : Nat} (hi : i ≤ size) (hs : ∀ i ≤ size, ∀ j ∈ step i, j ≤ size) :
    j ∈ atMost step (size + 1) (exactly step least [i]) (exactly step least [i]) ↔
      ∃ m, Walk (fun i j => j ∈ step i) (least + m) i j := by
  have hb : ∀ k ∈ exactly step least [i], k < size + 1 := by
    intro k hk
    obtain ⟨l, hl, hw⟩ := mem_exactly.1 hk
    obtain rfl := List.mem_singleton.1 hl
    exact Nat.lt_succ_of_le (walk_invariant (· ≤ size) hs hi hw)
  have hr : Frontier step (exactly step least [i]) (exactly step least [i]) := frontier_self _
  have hc := hr.closed_atMost (n := size + 1)
    (fun i hi j hj => Nat.lt_succ_of_le (hs i (Nat.le_of_lt_succ hi) j hj)) hb (Nat.le_add_left _ _)
  constructor
  · intro hj
    obtain ⟨m, -, hj⟩ := mem_atMost_exactly.1 hj
    exact ⟨m, hj⟩
  · rintro ⟨m, hj⟩
    obtain ⟨k, hk, hj⟩ := walk_add.1 hj
    have hk : k ∈ exactly step least [i] := mem_exactly.2 ⟨i, List.mem_singleton_self i, hk⟩
    exact walk_invariant (· ∈ atMost step _ _ _) hc (subset_atMost hk) hj

end Steps

variable {t : Array Char} {p : Pattern} {i j : Nat}

theorem le_of_spans (hi : i ≤ t.size) (h : Spans t p i j) : j ≤ t.size := by
  induction p generalizing i j with
  | empty => exact h ▸ hi
  | one set =>
      obtain ⟨rfl, c, hc, -⟩ := h
      exact (Array.getElem?_eq_some_iff.1 hc).1
  | edge e => exact h.1 ▸ hi
  | seq a b iha ihb =>
      obtain ⟨k, hk, hj⟩ := h
      exact ihb (iha hi hk) hj
  | alt a b iha ihb => exact h.elim (iha hi) (ihb hi)
  | times p least most ih =>
      obtain ⟨n, -, hw⟩ := h
      exact walk_invariant (· ≤ t.size) (fun _ hi _ h => ih hi h) hi hw

/-- The places where matches end are exactly those that the pattern spans. -/
theorem mem_ends (hi : i ≤ t.size) : j ∈ ends t p i ↔ Spans t p i j := by
  induction p generalizing i j with
  | empty => simp [ends, Spans]
  | one set =>
      rw [ends, Spans]
      cases t[i]? with
      | none => simp
      | some c => simp [and_comm]
  | edge e =>
      rw [ends, Spans]
      split <;> simp_all
  | seq a b iha ihb =>
      rw [ends, Spans, List.mem_eraseDups, List.mem_flatMap]
      constructor
      · rintro ⟨k, hk, hj⟩
        have hk := (iha hi).1 hk
        exact ⟨k, hk, (ihb (le_of_spans hi hk)).1 hj⟩
      · rintro ⟨k, hk, hj⟩
        exact ⟨k, (iha hi).2 hk, (ihb (le_of_spans hi hk)).2 hj⟩
  | alt a b iha ihb => rw [ends, Spans, List.mem_eraseDups, List.mem_append, iha hi, ihb hi]
  | times p least most ih =>
      have hs (i : Nat) (hi : i ≤ t.size) (j : Nat) (hj : j ∈ ends t p i) : j ≤ t.size :=
        le_of_spans hi ((ih hi).1 hj)
      have hw (n : Nat) (j : Nat) : Walk (fun i j => j ∈ ends t p i) n i j ↔ Walk (Spans t p) n i j :=
        walk_congr (· ≤ t.size) hs (fun i hi j => ih hi) hi
      simp only [ends, Spans, ← hw]
      cases most with
      | none =>
          rw [Option.map_none, Option.getD_none]
          rw [mem_atMost_size hi hs]
          simp
      | some m =>
          rw [Option.map_some, Option.getD_some, mem_atMost_exactly]
          simp

theorem occursIn_iff {s : String} :
    p.occursIn s = true ↔ ∃ i j, i ≤ s.toList.length ∧ Spans s.toList.toArray p i j := by
  simp only [occursIn, List.any_eq_true, List.mem_range, Bool.not_eq_true', List.isEmpty_eq_false_iff]
  constructor
  · rintro ⟨i, hi, hn⟩
    obtain ⟨j, hj⟩ := List.exists_mem_of_ne_nil _ hn
    have hi : i ≤ s.toList.toArray.size := Nat.le_of_lt_succ hi
    exact ⟨i, j, hi, (mem_ends hi).1 hj⟩
  · rintro ⟨i, j, hi, hj⟩
    have hi : i ≤ s.toList.toArray.size := hi
    exact ⟨i, Nat.lt_succ_of_le hi, List.ne_nil_of_mem ((mem_ends hi).2 hj)⟩

end Sift.Pattern
