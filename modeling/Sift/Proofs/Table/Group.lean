import Mathlib.Data.Finset.Card
import Sift.Proofs.Except
import Sift.Table.Run

namespace Sift.Table

section Distinct

variable {α β : Type} [BEq β]

/-- Things that count as one if they have the same key leave their keys. -/
theorem map_eraseDupsBy (f : α → β) (l : List α) :
    (l.eraseDupsBy fun a b => f a == f b).map f = (l.map f).eraseDups := by
  induction hn : l.length using Nat.strong_induction_on generalizing l with
  | h n ih =>
      cases l with
      | nil => rfl
      | cons a l =>
          rw [List.eraseDupsBy_cons, List.map_cons, List.map_cons, List.eraseDups_cons, List.filter_map]
          rw [ih _ (by rw [← hn]; exact Nat.lt_succ_of_le (List.length_filter_le _ _)) _ rfl]
          congr 4
          funext b
          simp

variable [LawfulBEq β]

theorem nodup_eraseDups (l : List β) : l.eraseDups.Nodup := by
  induction hn : l.length using Nat.strong_induction_on generalizing l with
  | h n ih =>
      cases l with
      | nil => exact List.nodup_nil
      | cons b l =>
          rw [List.eraseDups_cons, List.nodup_cons]
          refine ⟨by simp, ih _ ?_ _ rfl⟩
          rw [← hn]
          exact Nat.lt_succ_of_le (List.length_filter_le _ _)

theorem length_eraseDups [DecidableEq β] (l : List β) : l.eraseDups.length = l.toFinset.card := by
  rw [← List.toFinset_card_of_nodup (nodup_eraseDups l)]
  congr 1
  ext b
  simp

end Distinct

def Cell.key? (c : Cell) : Option Key := if c.isNull then none else some c.key

theorem Cell.key?_eq_iff {a b : Cell} : a.key? = b.key? ↔ a.key = b.key := by
  cases a <;> cases b <;> simp [key?, key, isNull]

theorem filterMap_key? (cells : List Cell) : cells.filterMap Cell.key? = (cells.filter (!·.isNull)).map Cell.key := by
  induction cells with
  | nil => rfl
  | cons c cells ih => cases h : c.isNull <;> simp [Cell.key?, h, ih]

/-- The different cells are counted as many as they have different keys. -/
theorem value_countDistinct (cells : List Cell) :
    Aggregate.value .count true cells = .ok (.ofRows (cells.filterMap Cell.key?).toFinset.card) := by
  rw [filterMap_key?, ← length_eraseDups, ← map_eraseDupsBy, List.length_map]
  rfl

section Groups

variable {slots : List Slot} {rows : List Row}

theorem mem_groupsBy {g : List Row} (h : g ∈ groupsBy slots rows) :
    ∃ k, k ∈ rows.map (keyOf slots) ∧ g = rows.filter fun r => keyOf slots r = k := by
  obtain ⟨k, hk, rfl⟩ := List.mem_map.1 h
  exact ⟨k, by simpa using hk, rfl⟩

theorem ne_nil_of_mem_groupsBy {g : List Row} (h : g ∈ groupsBy slots rows) : g ≠ [] := by
  obtain ⟨k, hk, rfl⟩ := mem_groupsBy h
  obtain ⟨r, hr, hk⟩ := List.mem_map.1 hk
  exact List.ne_nil_of_mem (List.mem_filter.2 ⟨hr, decide_eq_true hk⟩)

/-- The groups stand for the different keys, and each of them has the rows with its key. -/
theorem keyed_of_groupsBy {groups : List Group}
    (h : List.Forall₂ (fun rs g => g.row ∈ rs ∧ g.rows = rs) (groupsBy slots rows) groups) :
    (groups.map fun g => keyOf slots g.row).Perm (rows.map (keyOf slots)).eraseDups ∧
      ∀ g ∈ groups, g.row ∈ g.rows ∧ g.rows = rows.filter fun r => keyOf slots r = keyOf slots g.row := by
  rw [groupsBy, List.forall₂_map_left_iff] at h
  have hall : List.Forall₂ (fun (g : Group) k => (g.row ∈ g.rows ∧
      g.rows = rows.filter fun r => keyOf slots r = keyOf slots g.row) ∧ keyOf slots g.row = k) groups _ :=
    h.flip.imp (by
      rintro g k ⟨hm, hr⟩
      obtain rfl := of_decide_eq_true (List.mem_filter.1 hm).2
      exact ⟨⟨hr ▸ hm, hr⟩, rfl⟩)
  obtain ⟨hrows, hkeys⟩ := (List.forall₂_and_left _ _).1 hall
  rw [← List.forall₂_map_left_iff, List.forall₂_eq_eq_eq] at hkeys
  exact ⟨hkeys ▸ List.mergeSort_perm _ _, hrows⟩

/-- A group is represented by one of its rows. -/
theorem representative_mem {extremes : List (Bool × Term)} {row : Row} (hne : rows ≠ [])
    (h : representative extremes rows = .ok row) : row ∈ rows := by
  unfold representative at h
  split at h
  · obtain rfl := Except.ok.inj h
    cases rows with
    | nil => exact absurd rfl hne
    | cons r rows => exact List.mem_cons_self ..
  · obtain ⟨⟨best, row⟩, hf, h⟩ := Except.bind_eq_ok.1 h
    obtain rfl := Except.pure_eq_ok.1 h
    -- nothing is better than no row, so that the first one is taken
    have hi := Except.foldlM_invariant (fun l (s : Cell × Row) => (l = [] ∧ s.1 = .null) ∨ s.2 ∈ l)
      (.inl ⟨rfl, rfl⟩) (fun l r s t hs ht => ?_) hf
    · exact hi.resolve_left fun hn => hne hn.1
    · obtain ⟨c, -, ht⟩ := Except.bind_eq_ok.1 ht
      obtain rfl := Except.pure_eq_ok.1 ht
      split
      · exact .inr (by simp)
      · rename_i hb
        rcases hs with ⟨-, hs⟩ | hs
        · simp [hs, Cell.isNull] at hb
        · exact .inr (List.mem_append_left _ hs)

end Groups

end Sift.Table
