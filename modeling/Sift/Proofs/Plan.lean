import Sift.Plan
import Sift.Proofs.Classes
import Sift.Proofs.Group.Stack
import Sift.Proofs.Leaf
import Sift.Proofs.Named
import Sift.Proofs.Path

namespace Sift

def Criterion.binds (c : Criterion) : Bool := c.field ≠ "" && c.value.binds

def Query.bindAll (q : Query) (l : List (String × Parameter)) : Query :=
  { q with parameters := q.parameters.putAll l }

namespace Plan

variable {catalog : Catalog} {criteria : Criteria} {order : OrderBy} {p : Plan} {q : Query}
  {projection : Projection} {limit offset : Option Nat}

def leaf (p : Plan) (catalog : Catalog) (c : Criterion) : Condition :=
  ((p.scope catalog).compile c).condition

def entry (p : Plan) (catalog : Catalog) (c : Criterion) : String × Parameter :=
  let v := (p.scope catalog).carried c.value
  (c.parameterName, ⟨v, declaredType catalog c (Path.qualify c.field) v⟩)

def bindings (p : Plan) (catalog : Catalog) (cs : List Criterion) : List (String × Parameter) :=
  (cs.filter Criterion.binds).map (p.entry catalog)

theorem bind_of_binds {c : Criterion} (h : c.binds = true) (p : Plan) (catalog : Catalog) (q : Query) :
    p.bind catalog q c = q.bindAll [p.entry catalog c] := by
  rw [Criterion.binds, Bool.and_eq_true, decide_eq_true_iff] at h
  rw [bind, if_neg h.1, Scope.bound_compile, if_pos h.2]
  rfl

theorem bind_of_not_binds {c : Criterion} (h : c.binds = false) (p : Plan) (catalog : Catalog) (q : Query) :
    p.bind catalog q c = q := by
  rw [Criterion.binds, Bool.and_eq_false_iff, decide_eq_false_iff_not, not_not] at h
  rcases h with hf | hv
  · rw [bind, if_pos hf]
  · rw [bind, Scope.bound_compile, hv]
    split <;> rfl

/-- Binding the terms changes nothing but the parameters. -/
theorem foldl_bind (p : Plan) (catalog : Catalog) (cs : List Criterion) (q : Query) :
    cs.foldl (p.bind catalog) q = q.bindAll (p.bindings catalog cs) := by
  induction cs generalizing q with
  | nil => rfl
  | cons c cs ih =>
      cases hb : c.binds with
      | true =>
          have hc : p.bindings catalog (c :: cs) = p.entry catalog c :: p.bindings catalog cs := by
            rw [bindings, List.filter_cons_of_pos hb, List.map_cons, bindings]
          rw [List.foldl_cons, ih, bind_of_binds hb, hc]
          rfl
      | false =>
          have hc : p.bindings catalog (c :: cs) = p.bindings catalog cs := by
            rw [bindings, List.filter_cons_of_neg (by simp [hb]), bindings]
          rw [List.foldl_cons, ih, bind_of_not_binds hb, hc]

def assembled (p : Plan) (catalog : Catalog) (projection : Projection) (limit offset : Option Nat)
    (whereCondition havingCondition : Option Condition) : Query :=
  { entity := catalog.root.name, root := rootSource, indexBy := p.indexBy.get? rootSource, projection
    joins := p.joins.map p.joinOf
    groupBy := if !p.joins.isEmpty && projection = .entity then
      catalog.root.identifier.map (.plain rootSource) else []
    whereCondition, havingCondition
    parameters := Named.empty.putAll (p.bindings catalog p.terms)
    orderBy := p.orderBy, maxResults := page limit, firstResult := page offset }

/-- The only thing that can go wrong is a group. -/
theorem assemble_eq (p : Plan) (catalog : Catalog) (projection : Projection) (limit offset : Option Nat) :
    p.assemble catalog projection limit offset =
      (Group.build (p.leaf catalog) p.whereTerms).bind fun w =>
        (Group.build (p.leaf catalog) p.havingTerms).bind fun v =>
          .ok (p.selectables.foldl Query.addSelectable
            (p.assembled catalog projection limit offset w v)) := by
  simp only [assemble, foldl_bind]
  rfl

theorem assemble_eq_ok (h : p.assemble catalog projection limit offset = .ok q) :
    ∃ w v, Group.build (p.leaf catalog) p.whereTerms = .ok w ∧
      Group.build (p.leaf catalog) p.havingTerms = .ok v ∧
      q = p.selectables.foldl Query.addSelectable (p.assembled catalog projection limit offset w v) := by
  rw [assemble_eq] at h
  obtain ⟨w, hw, h⟩ := Except.bind_eq_ok.1 h
  obtain ⟨v, hv, h⟩ := Except.bind_eq_ok.1 h
  exact ⟨w, v, hw, hv, (Except.ok.inj h).symm⟩

theorem prepare_eq_ok (h : prepare catalog criteria order = .ok p) :
    ∃ classes, Classes.ofCriteria criteria = .ok classes ∧ p.options = classes.options ∧
      p.whereTerms = classes.whereTerms ∧ p.havingTerms = classes.havingTerms ∧
      p.selectables = classes.selectables ∧
      p.orderBy = (Resolution.resolve (p.terms.map Criterion.field) order).orderBy ∧
      p.joins = (Resolution.resolve (p.terms.map Criterion.field) order).joins.values ∧
      p.indexBy = (Resolution.resolve (p.terms.map Criterion.field) order).indexBy := by
  simp only [prepare, Except.bind_eq_ok, Except.pure_eq_ok] at h
  obtain ⟨classes, hc, rfl⟩ := h
  exact ⟨classes, hc, rfl, rfl, rfl, rfl, rfl, rfl, rfl⟩

theorem sources_of_prepare (h : prepare catalog criteria order = .ok p) :
    p.sources = p.joins.foldl (addSource catalog) (Named.empty.put rootSource catalog.root.name) := by
  simp only [prepare, Except.bind_eq_ok, Except.pure_eq_ok] at h
  obtain ⟨classes, -, rfl⟩ := h
  rfl

theorem holds_of_prepare (h : prepare catalog criteria order = .ok p) :
    ∃ classes, Classes.Holds criteria classes ∧ p.whereTerms = classes.whereTerms ∧
      p.havingTerms = classes.havingTerms ∧ p.selectables = classes.selectables := by
  obtain ⟨classes, hc, -, hw, hh, hs, -⟩ := prepare_eq_ok h
  exact ⟨classes, Classes.holds_ofCriteria hc, hw, hh, hs⟩

theorem flatMap_parameterNames_compile (s : Scope) (cs : List Criterion) :
    ((cs.filter fun c => c.field ≠ "").flatMap fun c => (s.compile c).condition.parameterNames) =
      (cs.filter Criterion.binds).map Criterion.parameterName := by
  simp only [Scope.parameterNames_compile]
  induction cs with
  | nil => rfl
  | cons c cs ih =>
      by_cases hf : c.field = ""
      · rw [List.filter_cons_of_neg (by simp [hf]), ih,
          List.filter_cons_of_neg (by simp [Criterion.binds, hf])]
      · rw [List.filter_cons_of_pos (by simp [hf]), List.flatMap_cons, ih]
        cases hv : c.value.binds with
        | true => rw [List.filter_cons_of_pos (by simp [Criterion.binds, hf, hv])]; rfl
        | false => rw [List.filter_cons_of_neg (by simp [Criterion.binds, hv])]; rfl

/-- The condition of some terms names their parameters, in the order in which they are bound. -/
theorem parameterNames_of_build {cs : List Criterion} {r : Option Condition}
    (h : Group.build (p.leaf catalog) cs = .ok r) :
    r.toList.flatMap Condition.parameterNames = (p.bindings catalog cs).map Prod.fst := by
  rw [Condition.flatMap_parameterNames, Group.tests_of_build h, ← Condition.flatMap_parameterNames,
    List.flatMap_map, bindings, List.map_map]
  exact flatMap_parameterNames_compile (p.scope catalog) cs

theorem nodup_index (h : prepare catalog criteria order = .ok p) :
    (p.terms.map Criterion.index).Nodup := by
  obtain ⟨classes, hs, hw, hh, -⟩ := holds_of_prepare h
  rw [terms, hw, hh]
  exact hs.numbered.nodup_iff.2 List.nodup_range

/-- Terms have different numbers, so those with the same parameter are one. -/
theorem eq_of_parameterName_eq (h : prepare catalog criteria order = .ok p) {c d : Criterion}
    (hc : c ∈ p.terms) (hd : d ∈ p.terms) (hn : c.parameterName = d.parameterName) : c = d :=
  List.inj_on_of_nodup_map (nodup_index h) hc hd (Path.parameterName_inj hn)

theorem nodup_bindings (h : prepare catalog criteria order = .ok p) :
    ((p.bindings catalog p.terms).map Prod.fst).Nodup := by
  rw [bindings, List.map_map]
  apply List.Nodup.map_on
  · intro c hc d hd hn
    exact eq_of_parameterName_eq h (List.mem_of_mem_filter hc) (List.mem_of_mem_filter hd) hn
  · exact (nodup_index h).of_map.filter _

end Plan

end Sift
