import Sift.Proofs.Equality.Query
import Sift.Proofs.Plan
import Sift.Proofs.Query
import Sift.Proofs.Sql.Count
import Sift.Sql.Backend

namespace Sift

namespace Query

theorem counted_addSelectable (q : Query) (s : Selectable) :
    (q.addSelectable s).counted = q.counted.addSelectable s := by
  rw [addSelectable_eq, addSelectable_eq]
  rfl

theorem counted_foldl_addSelectable (q : Query) (ss : List Selectable) :
    (ss.foldl addSelectable q).counted = ss.foldl addSelectable q.counted := by
  induction ss generalizing q with
  | nil => rfl
  | cons s ss ih => rw [List.foldl_cons, List.foldl_cons, ih, counted_addSelectable]

structure Finds (root : Entity) (q : Query) : Prop where
  entity : q.entity = root.name
  projection : q.projection = .entity
  indexBy : q.indexBy = none
  maxResults : q.maxResults = none
  firstResult : q.firstResult = none
  groupBy : q.groupBy = root.identifier.map (.plain q.root) ∨ q.groupBy = [] ∧ q.joins = []

theorem Finds.addSelectable {root : Entity} {q : Query} {s : Selectable} (h : q.Finds root)
    (hs : s.firstResult = none ∧ s.maxResults = none) : (q.addSelectable s).Finds root := by
  rw [addSelectable_eq, hs.1, hs.2]
  exact ⟨h.entity, h.projection, h.indexBy, h.maxResults, h.firstResult, h.groupBy⟩

theorem Finds.addSelectables {root : Entity} {q : Query} {ss : List Selectable} (h : q.Finds root)
    (hs : ∀ s ∈ ss, s.firstResult = none ∧ s.maxResults = none) :
    (ss.foldl Query.addSelectable q).Finds root := by
  induction ss generalizing q with
  | nil => exact h
  | cons s ss ih =>
      obtain ⟨hs, hss⟩ := List.forall_mem_cons.1 hs
      exact ih (h.addSelectable hs) hss

end Query

namespace Plan

variable {catalog : Catalog} {criteria : Criteria} {p : Plan} {q : Query} {limit offset : Option Nat}

theorem counted_assembled (w v : Option Condition) :
    (p.assembled catalog .entity limit offset w v).counted = p.assembled catalog .count limit offset w v := by
  simp [assembled, Query.counted]

theorem assemble_counted (h : p.assemble catalog .entity limit offset = .ok q) :
    p.assemble catalog .count limit offset = .ok q.counted := by
  obtain ⟨w, v, hw, hv, rfl⟩ := assemble_eq_ok h
  rw [Query.counted_foldl_addSelectable, counted_assembled, assemble_eq, hw, hv]
  rfl

theorem finds_assembled {order : OrderBy} (h : prepare catalog criteria order = .ok p)
    (ho : ∀ e ∈ order, e.2 ≠ .index) (w v : Option Condition) :
    (p.assembled catalog .entity none none w v).Finds catalog.root := by
  obtain ⟨-, -, -, -, -, -, -, -, hi⟩ := prepare_eq_ok h
  refine ⟨rfl, rfl, ?_, rfl, rfl, ?_⟩
  · change p.indexBy.get? rootSource = none
    rw [hi, Resolution.indexBy_resolve ho]
    rfl
  · cases hj : p.joins with
    | nil => simp [assembled, hj]
    | cons s joins => simp [assembled, hj]

theorem selectable_mem {order : OrderBy} (h : prepare catalog criteria order = .ok p) {s : Selectable}
    (hs : s ∈ p.selectables) : .selectable s ∈ criteria := by
  obtain ⟨classes, hc, -, -, hl⟩ := holds_of_prepare h
  rw [hl, hc.selectables] at hs
  obtain ⟨e, he, hs⟩ := List.mem_filterMap.1 hs
  cases e with
  | selectable s' =>
      obtain rfl := Option.some.inj hs
      exact he
  | options | term | criterion => cases hs

theorem finds_assemble (hp : prepare catalog criteria [] = .ok p)
    (hs : ∀ s, .selectable s ∈ criteria → s.firstResult = none ∧ s.maxResults = none)
    (h : p.assemble catalog .entity none none = .ok q) : q.Finds catalog.root := by
  obtain ⟨w, v, -, -, rfl⟩ := assemble_eq_ok h
  exact (finds_assembled hp (List.forall_mem_nil _) w v).addSelectables fun s hm => hs s (selectable_mem hp hm)

end Plan

namespace EqualityFilter

theorem finds_toQuery (root : Entity) (filter : EqualityFilter) :
    (filter.toQuery root [] none none .entity).Finds root := by
  rw [toQuery_eq]
  exact ⟨rfl, rfl, rfl, rfl, rfl, .inr ⟨rfl, rfl⟩⟩

theorem counted_toQuery (root : Entity) (filter : EqualityFilter) (order : OrderBy) (limit offset : Option Nat) :
    (filter.toQuery root order limit offset .entity).counted =
      filter.toQuery root order limit offset .count := by
  rw [toQuery_eq, toQuery_eq]
  rfl

end EqualityFilter

namespace Repository

variable {r : Repository} {criteria : Criteria} {request : Request} {request' : CountRequest}

/-- The way that criteria take without an ordering or paging: past all planning, or by a query of the plan. -/
theorem findRequest_cases (h : r.findRequest criteria [] none none = .ok request) :
    ∃ p, Plan.prepare r.catalog criteria [] = .ok p ∧
      ((∃ filter, (if r.fastPath then EqualityFilter.ofPlan? r.catalog p else none) = some filter ∧
          request = .findByEquality filter [] none none) ∨
        (if r.fastPath then EqualityFilter.ofPlan? r.catalog p else none) = none ∧
          ∃ q, p.assemble r.catalog .entity none none = .ok q ∧ request = .fetch q) := by
  obtain ⟨p, hp, h⟩ := Except.bind_eq_ok.1 h
  refine ⟨p, hp, ?_⟩
  split at h
  · rename_i filter hf
    exact .inl ⟨filter, hf, (Except.pure_eq_ok.1 h).symm⟩
  · rename_i hf
    obtain ⟨q, hq, h⟩ := Except.bind_eq_ok.1 h
    exact .inr ⟨hf, q, hq, (Except.pure_eq_ok.1 h).symm⟩

theorem finds_of_findRequest (hs : ∀ s, .selectable s ∈ criteria → s.firstResult = none ∧ s.maxResults = none)
    (h : r.findRequest criteria [] none none = .ok request) :
    (request.query r.catalog.root).Finds r.catalog.root := by
  obtain ⟨p, hp, ⟨filter, -, rfl⟩ | ⟨-, q, hq, rfl⟩⟩ := findRequest_cases h
  · exact EqualityFilter.finds_toQuery _ filter
  · exact Plan.finds_assemble hp hs hq

/-- Find and count take the same way, and the count is that of the same query. -/
theorem countRequest_query (h : r.findRequest criteria [] none none = .ok request)
    (h' : r.countRequest criteria = .ok request') :
    request'.query r.catalog.root = (request.query r.catalog.root).counted := by
  obtain ⟨p, hp, hw⟩ := findRequest_cases h
  obtain ⟨p', hp', h'⟩ := Except.bind_eq_ok.1 h'
  obtain rfl : p' = p := Except.ok.inj (hp'.symm.trans hp)
  rcases hw with ⟨filter, hf, rfl⟩ | ⟨hf, q, hq, rfl⟩
  · simp only [hf] at h'
    obtain rfl := Except.pure_eq_ok.1 h'
    exact (EqualityFilter.counted_toQuery _ filter [] none none).symm
  · simp only [hf, Plan.assemble_counted hq] at h'
    obtain rfl := Except.pure_eq_ok.1 h'
    rfl

end Repository

end Sift
