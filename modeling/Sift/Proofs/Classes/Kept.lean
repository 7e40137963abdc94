import Sift.Proofs.Classes

namespace Sift.Classes

structure Routed (p : Classes) : Prop where
  whereTerms : ∀ c ∈ p.whereTerms, c.isAggregate = false
  havingTerms : ∀ c ∈ p.havingTerms, c.isAggregate = true ∨ c.field = ""

theorem routed_start (o : Options) : (start o).Routed := by
  constructor <;> simp [start]

theorem Routed.push {p : Classes} (h : p.Routed) (c : Criterion) : (p.push c).Routed := by
  unfold Classes.push
  split
  · rename_i hg
    refine ⟨h.whereTerms, ?_⟩
    rw [List.forall_mem_append, List.forall_mem_singleton]
    refine ⟨h.havingTerms, ?_⟩
    by_cases hf : c.field = ""
    · exact .inr hf
    · exact .inl (goesToHaving_of_field hf p ▸ hg)
  · rename_i hg
    refine ⟨?_, h.havingTerms⟩
    rw [List.forall_mem_append, List.forall_mem_singleton]
    exact ⟨h.whereTerms, Bool.eq_false_iff.2 fun ha => hg (goesToHaving_of_isAggregate ha p)⟩

theorem Routed.add {p p' : Classes} (h : p.Routed) {e : Entry} (ha : p.add e = .ok p') : p'.Routed := by
  rcases add_cases ha with ⟨o, -, rfl⟩ | ⟨s, -, rfl⟩ | ⟨c, -, rfl⟩
  · exact h
  · exact ⟨h.whereTerms, h.havingTerms⟩
  · exact h.push c

theorem routed_ofCriteria {cs : Criteria} {p : Classes} (h : ofCriteria cs = .ok p) : p.Routed := by
  rw [ofCriteria, Except.bind_eq_ok] at h
  obtain ⟨o, -, hf⟩ := h
  exact Except.foldlM_invariant (fun _ p => p.Routed) (routed_start o) (fun _ _ _ _ hr ha => hr.add ha) hf

/-- Reading criteria loses none of them, and gives none twice. Terms are numbered as they come, whatever stands
between them, and each class keeps its terms in order; what is passed through is kept in order as well. -/
theorem ofCriteria_keeps {cs : Criteria} {p : Classes} (h : ofCriteria cs = .ok p) :
    (p.whereTerms.map Criterion.index).Pairwise (· < ·) ∧
      (p.havingTerms.map Criterion.index).Pairwise (· < ·) ∧
      (p.terms.map Criterion.index).Perm (List.range (cs.filter Entry.isTerm).length) ∧
      (∀ c ∈ p.terms, ∃ e, (cs.filter Entry.isTerm)[c.index]? = some e ∧ e.Gives c.index c) ∧
      (∀ c ∈ p.terms, c.isAggregate = true → c ∈ p.havingTerms ∧ c ∉ p.whereTerms) ∧
      (∀ c ∈ p.terms, c.isAggregate = false → c.field ≠ "" → c ∈ p.whereTerms ∧ c ∉ p.havingTerms) ∧
      p.selectables = cs.filterMap Entry.selectable? := by
  have hh := holds_ofCriteria h
  have hr := routed_ofCriteria h
  refine ⟨hh.whereIncreasing, hh.havingIncreasing, hh.numbered, hh.given, ?_, ?_, hh.selectables⟩
  · intro c hc ha
    have hw : c ∉ p.whereTerms := fun hm => by simp [hr.whereTerms c hm] at ha
    exact ⟨(List.mem_append.1 hc).resolve_left hw, hw⟩
  · intro c hc ha hf
    have hn : c ∉ p.havingTerms := fun hm => (hr.havingTerms c hm).elim (by simp [ha]) hf
    exact ⟨(List.mem_append.1 hc).resolve_right hn, hn⟩

theorem ofCriteria_keeps_mixed :
    let cs : Criteria := [.options .like, .term "(|>=name@COUNT(%s)" (.int 2), .selectable .empty,
      .criterion { Criterion.plain "id" (.backed (.int 3)) with index := 7, literal := true },
      .term ")" (.bool true), .selectable { Selectable.empty with maxResults := some 1 },
      .term "(&id" (.int 1), .criterion .closer]
    let counted := { Criterion.plain "name" (.int 2) with
      junctors := [.opens .any false], comparator := some .gte, groupFunction := some "COUNT(%s)" }
    let built := { Criterion.plain "id" (.int 3) with index := 1 }
    ∃ p, ofCriteria cs = .ok p ∧ (p.terms.map Criterion.index).Perm (List.range 5) ∧
      p.whereTerms.map Criterion.index = [1, 3, 4] ∧ p.havingTerms.map Criterion.index = [0, 2] ∧
      (counted ∈ p.terms ∧ counted.isAggregate = true ∧ counted ∈ p.havingTerms ∧ counted ∉ p.whereTerms) ∧
      (built ∈ p.terms ∧ built.isAggregate = false ∧ built.field ≠ "" ∧ built ∈ p.whereTerms ∧
        built ∉ p.havingTerms) ∧
      ∃ e, (cs.filter Entry.isTerm)[1]? = some e ∧ e.Gives 1 built := by
  intro cs counted built
  have h : ∃ p, ofCriteria cs = .ok p ∧ p.whereTerms.map Criterion.index = [1, 3, 4] ∧
      p.havingTerms.map Criterion.index = [0, 2] ∧ counted ∈ p.terms ∧ built ∈ p.terms :=
    ⟨_, rfl, rfl, rfl, List.mem_append_right _ List.mem_cons_self, List.mem_cons_self⟩
  obtain ⟨p, hp, hw, hh, hc, hb⟩ := h
  obtain ⟨-, -, hn, hg, ha, hf, -⟩ := ofCriteria_keeps hp
  exact ⟨p, hp, hn, hw, hh, ⟨hc, rfl, ha counted hc rfl⟩, ⟨hb, rfl, by decide, hf built hb rfl (by decide)⟩,
    hg built hb⟩

end Sift.Classes
