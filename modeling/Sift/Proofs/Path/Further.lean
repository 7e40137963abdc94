import Sift.Proofs.Shape.Text
import Sift.Proofs.Sql.Further

namespace Sift

namespace Path

theorem sameName_of_underscore {name : String} (h : '_' ∈ name.toList) : Table.sameName name rootSource = false := by
  have ht (s : String) : s.toLower.toList = s.toList.map Char.toLower := String.toList_map
  have hl : '_' ∈ name.toLower.toList := by
    rw [ht, List.mem_map]
    exact ⟨'_', h, rfl⟩
  rw [Table.sameName, beq_eq_false_iff_ne]
  intro he
  rw [he, ht] at hl
  revert hl
  decide

/-- A chain leads to what is taken for the root only if it is a single association with such a name. -/
theorem sameName_source {names : List String} (hn : names ≠ [])
    (h : ∀ name ∈ names.head?, Table.sameName name rootSource = false) :
    Table.sameName (source names) rootSource = false := by
  cases names using List.reverseRecOn with
  | nil => exact absurd rfl hn
  | append_singleton names association =>
      by_cases he : names = []
      · subst he
        rw [List.nil_append, source_singleton]
        exact h association rfl
      · apply sameName_of_underscore
        rw [source_concat he]
        simp

end Path

/-- Links have an underscore in their names, so that they are never taken for the root. -/
theorem Sql.sameName_of_addJoins {schema : Schema} {js : List Join} {sources sources' : Named Entity}
    {tables : List TableJoin} (h : js.foldlM (addJoin schema) (sources, []) = .ok (sources', tables))
    (hn : ∀ j ∈ js, Table.sameName j.name rootSource = false) :
    ∀ t ∈ tables, Table.sameName t.name rootSource = false := by
  obtain ⟨_, rfl, ht⟩ := tables_of_addJoins h
  intro t hm
  obtain ⟨j, hj, he | he⟩ := ht t hm
  · rw [he, hn j hj]
  · rw [he]
    exact Path.sameName_of_underscore (by simp)

namespace Scope

theorem compile_congr {s s' : Scope} {c : Criterion} (hw : s'.wildcards = s.wildcards)
    (hc : s'.isCollection (Path.qualify c.field) = s.isCollection (Path.qualify c.field)) :
    s'.compile c = s.compile c := by
  rw [compile, compile, test, test, hw, hc]

end Scope

namespace Plan

variable {catalog : Catalog} {criteria : Criteria} {first order : OrderBy} {p p' : Plan} {q q' : Query}

theorem get?_addSources {ss : List Step} {name : String} (h : name ∉ ss.map Step.name) (t : Named String) :
    (ss.foldl (addSource catalog) t).get? name = t.get? name := by
  induction ss generalizing t with
  | nil => rfl
  | cons s ss ih =>
      rw [List.map_cons, List.mem_cons, not_or] at h
      rw [List.foldl_cons, ih h.2, addSource]
      split
      · rw [Named.get?_put, if_neg h.1]
      · rfl

def Apart (p : Plan) (order : OrderBy) : Prop :=
  ∀ path ∈ p.paths order, ∀ name ∈ (Path.associations path).head?, Table.sameName name rootSource = false

theorem Apart.sameName (h : p.Apart order) (hp : prepare catalog criteria order = .ok p) {s : Step}
    (hs : s ∈ p.joins) : Table.sameName s.name rootSource = false := by
  obtain ⟨names, association, ⟨path, hm, rest, hr⟩, rfl⟩ := (joins_of_prepare hp).led s hs
  apply Path.sameName_source (by simp)
  intro name hn
  apply h path hm
  rw [← hr, List.head?_append, hn]
  rfl

structure Further (catalog : Catalog) (criteria : Criteria) (first order : OrderBy) (p p' : Plan) : Prop where
  fewer : prepare catalog criteria first = .ok p
  all : prepare catalog criteria order = .ok p'
  keys : first.map Prod.fst <+: order.map Prod.fst
  apart : p'.Apart order

namespace Further

variable (h : Further catalog criteria first order p p')

include h

theorem terms_eq : p'.options = p.options ∧ p'.whereTerms = p.whereTerms ∧ p'.havingTerms = p.havingTerms := by
  obtain ⟨classes, hc, ho, hw, hh, -⟩ := prepare_eq_ok h.fewer
  obtain ⟨classes', hc', ho', hw', hh', -⟩ := prepare_eq_ok h.all
  obtain rfl := Except.ok.inj (hc.symm.trans hc')
  exact ⟨ho'.trans ho.symm, hw'.trans hw.symm, hh'.trans hh.symm⟩

theorem joins_prefix : p.joins <+: p'.joins := by
  obtain ⟨-, -, -, -, -, -, -, hj, -⟩ := prepare_eq_ok h.fewer
  obtain ⟨-, -, -, -, -, -, -, hj', -⟩ := prepare_eq_ok h.all
  obtain ⟨-, hw, hh⟩ := h.terms_eq
  obtain ⟨rest, hr⟩ := h.keys
  have hf := Resolution.firsts_prefix ((p.paths first).flatMap Path.steps) (rest.flatMap Path.steps)
  rw [← List.flatMap_append, paths, List.append_assoc, hr] at hf
  have ht : p'.terms = p.terms := by rw [terms, terms, hw, hh]
  rwa [hj, hj', Resolution.joins_resolve, Resolution.joins_resolve, ht]

/-- What is only joined for later keys is the source of no term. -/
theorem source_notMem {more : List Step} (hm : p.joins ++ more = p'.joins) {c : Criterion} (hc : c ∈ p.terms) :
    (Path.qualify c.field).source ∉ more.map Step.name := by
  intro hs
  rcases source_known h.fewer (List.mem_append_left _ (List.mem_map_of_mem hc)) with hk | hk
  · obtain ⟨s, hs, hn⟩ := List.mem_map.1 hs
    have ha := h.apart.sameName h.all (hm ▸ List.mem_append_right _ hs)
    rw [hn, hk, Table.sameName_refl] at ha
    cases ha
  · have hd := (joins_of_prepare h.all).distinct
    rw [← hm, List.map_append] at hd
    exact (List.nodup_append.1 hd).2.2 _ hk _ hs rfl

theorem isCollection_eq {c : Criterion} (hc : c ∈ p.terms) :
    (p'.scope catalog).isCollection (Path.qualify c.field) =
      (p.scope catalog).isCollection (Path.qualify c.field) := by
  obtain ⟨more, hm⟩ := h.joins_prefix
  have hs : p'.sources.get? (Path.qualify c.field).source = p.sources.get? (Path.qualify c.field).source := by
    rw [sources_of_prepare h.all, sources_of_prepare h.fewer, ← hm, List.foldl_append,
      get?_addSources (h.source_notMem hm hc)]
  rw [Scope.isCollection, Scope.isCollection, scope, scope, hs]

theorem compile_eq {c : Criterion} (hc : c ∈ p.terms) :
    (p'.scope catalog).compile c = (p.scope catalog).compile c := by
  apply Scope.compile_congr _ (h.isCollection_eq hc)
  rw [scope, scope, h.terms_eq.1]

theorem build_eq {cs : List Criterion} (hc : ∀ c ∈ cs, c ∈ p.terms) :
    Group.build (p'.leaf catalog) cs = Group.build (p.leaf catalog) cs := by
  apply Group.build_congr
  rw [List.forall₂_same]
  intro c hm
  exact ⟨rfl, rfl, congrArg Leaf.condition (h.compile_eq (hc c hm))⟩

theorem bindings_eq (cs : List Criterion) : p'.bindings catalog cs = p.bindings catalog cs := by
  have hc (v : Value) : (p'.scope catalog).carried v = (p.scope catalog).carried v := by
    rw [scope, scope, h.terms_eq.1]
    rfl
  rw [bindings, bindings]
  apply List.map_congr_left
  intro c _
  rw [entry, entry, hc]

/-- Later keys only add joins. -/
theorem widens (hs : ∀ e ∈ criteria, e.selectable? = none)
    (hq : p.assemble catalog .entity none none = .ok q) (hq' : p'.assemble catalog .entity none none = .ok q') :
    q.Widens q' := by
  obtain ⟨w, v, hw, hv, rfl⟩ := assemble_eq_assembled hs h.fewer hq
  obtain ⟨w', v', hw', hv', rfl⟩ := assemble_eq_assembled hs h.all hq'
  obtain ⟨-, ht, hh⟩ := h.terms_eq
  rw [ht, h.build_eq fun c hc => List.mem_append_left _ hc, hw] at hw'
  obtain rfl := Except.ok.inj hw'
  obtain ⟨more, hm⟩ := h.joins_prefix
  refine ⟨rfl, rfl, rfl, ?_, more, ?_, ?_⟩
  · simp only [assembled]
    rw [terms, ht, hh, ← terms, h.bindings_eq]
  · have hstep (p : Plan) (ss : List Step) : (ss.map p.joinOf).map Join.step = ss := by
      rw [List.map_map]
      exact List.map_id ss
    rw [assembled, assembled, hstep, hstep, hm]
  · intro param f hf
    obtain ⟨c, hc, rfl, -⟩ := mem_tests_assembled hw hv hf
    exact h.source_notMem hm hc

end Further

end Plan

end Sift
