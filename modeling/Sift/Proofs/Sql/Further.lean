import Sift.Proofs.Sql.Sources
import Sift.Proofs.Sql.Shown

namespace Sift

def Join.step (j : Join) : Step := ⟨j.parent, j.association, j.name⟩

def Join.ofStep (s : Step) : Join := ⟨s.parent, s.association, s.name, none, none⟩

structure Query.Widens (q q' : Query) : Prop where
  entity : q'.entity = q.entity
  root : q'.root = q.root
  whereCondition : q'.whereCondition = q.whereCondition
  parameters : q'.parameters = q.parameters
  joins : ∃ more, q'.joins.map Join.step = q.joins.map Join.step ++ more ∧
    ∀ param f, .memberOf param f ∈ q.tests → f.source ∉ more.map Step.name

namespace Sql

section Joins

variable {schema : Schema} {done done' : Named Entity × List TableJoin}

/-- The tables of some joins come last. They have the names of the joins, or those of the links they take. -/
theorem tables_of_addJoins {js : List Join} (h : js.foldlM (addJoin schema) done = .ok done') :
    ∃ tables, done'.2 = done.2 ++ tables ∧
      ∀ t ∈ tables, ∃ j ∈ js, t.name = j.name ∨ t.name = j.name ++ "__link" := by
  refine Except.foldlM_invariant (fun js found => ∃ tables, found.2 = done.2 ++ tables ∧
    ∀ t ∈ tables, ∃ j ∈ js, t.name = j.name ∨ t.name = j.name ++ "__link") ⟨[], by simp⟩ ?_ h
  rintro js j found found' ⟨tables, hf, ht⟩ hj
  obtain ⟨⟨last, target⟩, hl, hj⟩ := Except.bind_eq_ok.1 hj
  obtain rfl := Except.pure_eq_ok.1 hj
  obtain ⟨-, -, -, -, -, hlast⟩ := joinTables_eq_ok hl
  refine ⟨tables ++ last, by rw [hf, List.append_assoc], ?_⟩
  rw [List.forall_mem_append]
  constructor
  · intro t hm
    obtain ⟨j', hj', hn⟩ := ht t hm
    exact ⟨j', List.mem_append_left _ hj', hn⟩
  · intro t hm
    exact ⟨j, by simp, hlast t hm⟩

theorem foldlM_addJoin (schema : Schema) (js : List Join) (done : Named Entity × List TableJoin) :
    js.foldlM (addJoin schema) done =
      ((js.map Join.step).map Join.ofStep).foldlM (addJoin schema) done := by
  rw [List.map_map, List.foldlM_map]
  rfl

end Joins

namespace Context

variable {x : Context} {sources : Named Entity}

theorem leaf_congr {c : Condition}
    (h : ∀ param f, .memberOf param f ∈ c.tests → x.sources.get? f.source = sources.get? f.source) :
    x.leaf c = leaf { x with sources } c := by
  cases c with
  | memberOf param f =>
      have hs : x.source f.source = source { x with sources } f.source := by
        rw [source, source, h param f (List.mem_singleton_self _)]
      have ht (b : Bound) : x.memberTest b f = memberTest { x with sources } b f := by
        rw [memberTest, memberTest, hs]
      simp only [leaf, ht]
      rfl
  | compare | isNull | isIn | like | regexp | never | not | and | or => rfl

mutual

/-- What is asked of a row depends on the sources whose members are asked for. -/
theorem filter_congr {c : Condition}
    (h : ∀ param f, .memberOf param f ∈ c.tests → x.sources.get? f.source = sources.get? f.source) :
    x.filter c = filter { x with sources } c := by
  match c with
  | .and [] | .or [] => rfl
  | .and (c :: cs) | .or (c :: cs) =>
      simp only [filter]
      rw [Condition.tests] at h
      rw [filters_congr h]
  | .not inner =>
      rw [filter, filter, filter_congr (c := inner) h]
  | .compare .. | .isNull .. | .isIn .. | .like .. | .memberOf .. | .regexp .. | .never =>
      simp only [filter]
      rw [leaf_congr h]

theorem filters_congr {cs : List Condition}
    (h : ∀ param f, .memberOf param f ∈ Condition.testsAll cs → x.sources.get? f.source = sources.get? f.source) :
    x.filters cs = filters { x with sources } cs := by
  match cs with
  | [] => rfl
  | c :: cs =>
      rw [filters, filters,
        filter_congr (c := c) fun param f hm => h param f (List.mem_append_left _ hm),
        filters_congr fun param f hm => h param f (List.mem_append_right _ hm)]

end

theorem expr?_congr {c : Option Condition} (h : ∀ param f, .memberOf param f ∈ c.toList.flatMap Condition.tests →
    x.sources.get? f.source = sources.get? f.source) : x.expr? c = expr? { x with sources } c := by
  cases c with
  | none => rfl
  | some c =>
      rw [expr?, expr?, expr, expr, filter_congr]
      intro param f hm
      exact h param f (List.mem_append_left _ hm)

end Context

section Render

variable {schema : Schema} {d : Dialect} {q q' : Query} {e e' : Entity} {sources sources' : Named Entity}
  {joins joins' : List TableJoin} {filter filter' : Option Expr}

/-- Further joins come after those there are and leave the filter as it is. -/
theorem Reads.widens (hw : q.Widens q') (h : Reads schema d q e sources joins filter)
    (h' : Reads schema d q' e' sources' joins' filter') : e' = e ∧ joins <+: joins' ∧ filter' = filter := by
  obtain ⟨more, hm, hf⟩ := hw.joins
  have hfound := h'.found
  rw [hw.entity, h.found, Option.some.injEq] at hfound
  subst hfound
  -- what is joined first is joined alike
  have hj := h'.joined
  rw [foldlM_addJoin, hm, List.map_append, List.foldlM_append, hw.root, ← foldlM_addJoin] at hj
  obtain ⟨done, hd, hj⟩ := Except.bind_eq_ok.1 hj
  obtain rfl := Except.ok.inj (hd.symm.trans h.joined)
  obtain ⟨tables, ht, -⟩ := tables_of_addJoins hj
  refine ⟨rfl, ⟨tables, ht.symm⟩, ?_⟩
  have hp := h'.passed
  rw [hw.whereCondition, hw.parameters, Context.expr?_congr, h.passed] at hp
  · exact (Except.ok.inj hp).symm
  · intro param f hc
    refine get?_addJoins hj ?_
    rw [List.map_map]
    exact hf param f (List.mem_append_left _ hc)

theorem begins_of_render {s s' : Statement} (hp : q.projection = .entity) (hp' : q'.projection = .entity)
    (hw : q.Widens q') (h : render schema d q = .ok s) (h' : render schema d q' = .ok s') :
    s.select.fromClause.Begins s'.select.fromClause ∧ s'.select.filter = s.select.filter := by
  obtain ⟨e, sources, joins, filter, having, hr, -, rfl⟩ := rows_of_render hp h
  obtain ⟨e', sources', joins', filter', having', hr', -, rfl⟩ := rows_of_render hp' h'
  obtain ⟨rfl, hj, rfl⟩ := hr.widens hw hr'
  exact ⟨⟨rfl, hw.root, hj⟩, rfl⟩

end Render

end Sql

end Sift
