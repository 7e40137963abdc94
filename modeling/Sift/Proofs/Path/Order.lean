import Sift.Proofs.Path.Climb
import Sift.Proofs.Prefix

namespace Sift

def Ordered (ss : List Step) : Prop :=
  ∀ before s, before ++ [s] <+: ss → s.parent = rootSource ∨ s.parent ∈ before.map Step.name

namespace Ordered

variable {ss : List Step} {s : Step}

theorem nil : Ordered [] := by
  intro before s h
  simp at h

theorem concat_iff :
    Ordered (ss ++ [s]) ↔ Ordered ss ∧ (s.parent = rootSource ∨ s.parent ∈ ss.map Step.name) :=
  forall_prefix_concat

theorem append_stepsFrom {parent : String} (h : Ordered ss)
    (hp : parent = rootSource ∨ parent ∈ ss.map Step.name) (done names : List String) :
    Ordered (ss ++ Path.stepsFrom parent done names) := by
  induction names generalizing ss parent done with
  | nil => simpa [Path.stepsFrom] using h
  | cons association names ih =>
      rw [Path.stepsFrom, List.append_cons]
      exact ih (concat_iff.2 ⟨h, hp⟩) (.inr (by simp)) _

theorem flatMap_steps (paths : List String) : Ordered (paths.flatMap Path.steps) := by
  induction paths using List.reverseRecOn with
  | nil => exact .nil
  | append_singleton paths path ih =>
      rw [List.flatMap_append, List.flatMap_singleton]
      exact ih.append_stepsFrom (.inl rfl) _ _

/-- A step that is left out leads where an earlier one has led. -/
theorem firsts (h : Ordered ss) : Ordered (Resolution.firsts ss).values := by
  induction ss using List.reverseRecOn with
  | nil => exact .nil
  | append_singleton ss s ih =>
      obtain ⟨hss, hs⟩ := concat_iff.1 h
      rw [Resolution.firsts_concat]
      by_cases hn : s.name ∈ (Resolution.firsts ss).names
      · rw [Named.putNew_of_mem hn]
        exact ih hss
      · rw [Named.values, Named.entries_putNew hn, List.map_append, ← Named.values]
        refine concat_iff.2 ⟨ih hss, hs.imp_right ?_⟩
        rw [Resolution.names_firsts]
        intro hp
        obtain ⟨t, ht, he⟩ := List.mem_map.1 hp
        exact he ▸ (Resolution.firsts_entries ss).2 t ht

end Ordered

theorem Plan.ordered_joins {catalog : Catalog} {criteria : Criteria} {order : OrderBy} {p : Plan}
    (hp : prepare catalog criteria order = .ok p) : Ordered p.joins := by
  obtain ⟨-, -, -, -, -, -, -, hj, -⟩ := prepare_eq_ok hp
  rw [hj, Resolution.joins_resolve]
  exact (Ordered.flatMap_steps _).firsts

end Sift
