import Mathlib.Data.List.Infix

namespace Sift

variable {α β : Type}

/-- What holds of each member after those before it holds of one more member if it holds of that one after
them all. -/
theorem forall_prefix_concat {P : List α → α → Prop} {l : List α} {a : α} :
    (∀ before b, before ++ [b] <+: l ++ [a] → P before b) ↔
      (∀ before b, before ++ [b] <+: l → P before b) ∧ P l a := by
  constructor
  · intro h
    exact ⟨fun before b hb => h before b (hb.trans (List.prefix_append _ _)), h l a List.prefix_rfl⟩
  · rintro ⟨h, ha⟩ before b hb
    rcases List.prefix_concat_iff.1 hb with he | hb
    · obtain ⟨rfl, hs⟩ := List.append_inj' he rfl
      rwa [List.singleton_inj.1 hs]
    · exact h before b hb

theorem forall_prefix_map {P : List β → β → Prop} {f : α → β} {l : List α}
    (h : ∀ before a, before ++ [a] <+: l → P (before.map f) (f a)) (before : List β) (b : β)
    (hb : before ++ [b] <+: l.map f) : P before b := by
  obtain ⟨l', hp, he⟩ := List.prefix_map_iff.1 hb
  obtain ⟨front, last, rfl, rfl, hl⟩ := List.map_eq_append_iff.1 he.symm
  obtain ⟨a, rfl, rfl⟩ := List.map_eq_singleton_iff.1 hl
  exact h front a hp

end Sift
