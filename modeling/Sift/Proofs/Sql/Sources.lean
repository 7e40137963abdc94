import Sift.Proofs.Path.Order
import Sift.Proofs.Shape.Value

namespace Sift

namespace Sql

variable {schema : Schema} {done done' : Named Entity × List TableJoin}

/-- The tables of a join have its name, or that of the link it takes. It leads to the target of an association
of its parent. -/
theorem joinTables_eq_ok {sources : Named Entity} {j : Join} {tables : List TableJoin} {target : Entity}
    (h : joinTables schema sources j = .ok (tables, target)) :
    ∃ parent a, sources.get? j.parent = some parent ∧ parent.associations.get? j.association = some a ∧
      schema.entity? a.target = some target ∧ ∀ t ∈ tables, t.name = j.name ∨ t.name = j.name ++ "__link" := by
  unfold joinTables at h
  cases hs : sources.get? j.parent with
  | none =>
      rw [hs] at h
      cases h
  | some parent =>
      rw [hs] at h
      obtain ⟨_, hp, h⟩ := Except.bind_eq_ok.1 h
      obtain rfl := Except.ok.inj hp
      obtain ⟨⟨a, found⟩, ha, h⟩ := Except.bind_eq_ok.1 h
      obtain ⟨ha, hf⟩ := Schema.association_eq_ok.1 ha
      obtain ⟨key, -, h⟩ := Except.bind_eq_ok.1 h
      refine ⟨parent, a, rfl, ha, ?_⟩
      cases a with
      | toOne =>
          obtain ⟨rfl, rfl⟩ := Prod.mk.inj (Except.pure_eq_ok.1 h)
          exact ⟨hf, by simp⟩
      | toMany | manyToMany =>
          obtain ⟨parentKey, -, h⟩ := Except.bind_eq_ok.1 h
          obtain ⟨rfl, rfl⟩ := Prod.mk.inj (Except.pure_eq_ok.1 h)
          exact ⟨hf, by simp⟩

/-- A join leads to the target of an association of its parent. -/
theorem addJoin_eq_ok {j : Join} (h : addJoin schema done j = .ok done') :
    ∃ parent a target, done.1.get? j.parent = some parent ∧
      parent.associations.get? j.association = some a ∧ schema.entity? a.target = some target ∧
      done'.1 = done.1.put j.name target := by
  obtain ⟨⟨tables, target⟩, ht, h⟩ := Except.bind_eq_ok.1 h
  obtain rfl := Except.pure_eq_ok.1 h
  obtain ⟨parent, a, hp, ha, he, -⟩ := joinTables_eq_ok ht
  exact ⟨parent, a, target, hp, ha, he, rfl⟩

theorem mem_names_addJoins {js : List Join} (h : js.foldlM (addJoin schema) done = .ok done')
    (name : String) : name ∈ done'.1.names ↔ name ∈ done.1.names ∨ name ∈ js.map Join.name := by
  refine Except.foldlM_invariant
    (fun js found => name ∈ found.1.names ↔ name ∈ done.1.names ∨ name ∈ js.map Join.name) (by simp) ?_ h
  intro js j found found' ih hj
  obtain ⟨-, -, target, -, -, -, hf⟩ := addJoin_eq_ok hj
  rw [hf, Named.mem_names_put, ih, List.map_append, List.mem_append, List.map_singleton, List.mem_singleton]
  tauto

theorem get?_addJoins {js : List Join} (h : js.foldlM (addJoin schema) done = .ok done') {name : String}
    (hn : name ∉ js.map Join.name) : done'.1.get? name = done.1.get? name := by
  refine Except.foldlM_invariant
    (fun js found => name ∉ js.map Join.name → found.1.get? name = done.1.get? name) (fun _ => rfl) ?_ h hn
  intro js j found found' ih hj hn
  rw [List.map_append, List.mem_append, not_or, List.map_singleton, List.mem_singleton] at hn
  obtain ⟨-, -, target, -, -, -, hf⟩ := addJoin_eq_ok hj
  rw [hf, Named.get?_put, if_neg hn.2, ih hn.1]

/-- Where all joins come after those they join to, and all members are those of what is joined, nothing is
missed that is joined. -/
theorem render_ne_unknownAlias {q : Query} {d : Dialect} {name : String}
    (hj : ∀ before j, before ++ [j] <+: q.joins → j.parent = q.root ∨ j.parent ∈ before.map Join.name)
    (hm : ∀ param f, .memberOf param f ∈ q.tests → f.source = q.root ∨ f.source ∈ q.joins.map Join.name) :
    render schema d q ≠ .error (.unknownAlias name) := by
  have hf : ∀ {root : Entity} {js : List Join} {sources : Named Entity} {tables : List TableJoin},
      js.foldlM (addJoin schema) (Named.empty.put q.root root, []) = .ok (sources, tables) →
      ∀ source, source = q.root ∨ source ∈ js.map Join.name → sources.get? source ≠ none := by
    intro root js sources tables h source hs hn
    refine Named.get?_eq_none_iff.1 hn ((mem_names_addJoins h source).2 ?_)
    exact hs.imp_left fun he => Named.mem_names_put.2 (.inl he)
  intro h
  cases unwritten_of_render h with
  | join _ hq hb hs =>
      cases hs with
      | source hn =>
          have hp := (hq.trans (List.append_cons ..)).symm
          exact hf hb _ (hj _ _ ⟨_, hp⟩) hn
  | member _ hq hc hs =>
      cases hs with
      | source hn => exact hf hq _ (hm _ _ hc) hn

end Sql

namespace Path

theorem length_associations (path : String) : (associations path).length = path.toList.count '.' := by
  rw [associations, List.length_dropLast, List.length_map, length_segments]
  rfl

end Path

namespace Plan

variable {catalog : Catalog} {criteria : Criteria} {order : OrderBy} {p : Plan}

theorem source_mem_joins (hp : prepare catalog criteria order = .ok p) {path : String}
    (h : path ∈ p.paths order) (hd : '.' ∈ path.toList) :
    (Path.qualify path).source ∈ p.joins.map Step.name := by
  rw [Path.source_qualify]
  have hl := Path.length_associations path
  cases ha : Path.associations path using List.reverseRecOn with
  | nil =>
      rw [ha] at hl
      exact absurd hl.symm (List.count_pos_iff.2 hd).ne'
  | append_singleton names association =>
      obtain ⟨s, hs, hn⟩ := (joins_of_prepare hp).reached names association ⟨path, h, ha ▸ List.prefix_rfl⟩
      exact List.mem_map.2 ⟨s, hs, hn⟩

theorem source_known (hp : prepare catalog criteria order = .ok p) {path : String} (h : path ∈ p.paths order) :
    (Path.qualify path).source = rootSource ∨ (Path.qualify path).source ∈ p.joins.map Step.name := by
  by_cases hd : '.' ∈ path.toList
  · exact .inr (source_mem_joins hp h hd)
  · exact .inl (by rw [Path.qualify_of_notMem hd]; rfl)

theorem tests_assembled {projection : Projection} {limit offset : Option Nat} {w v : Option Condition}
    (hw : Group.build (p.leaf catalog) p.whereTerms = .ok w)
    (hv : Group.build (p.leaf catalog) p.havingTerms = .ok v) :
    (p.assembled catalog projection limit offset w v).tests =
      (p.terms.filter fun c => c.field ≠ "").map fun c => ((p.scope catalog).test c).condition := by
  have ht : ∀ cs : List Criterion, (cs.map (p.leaf catalog)).flatMap Condition.tests =
      cs.map fun c => ((p.scope catalog).test c).condition := by
    intro cs
    rw [List.flatMap_map]
    simp only [leaf, Scope.tests_compile]
    exact List.map_eq_flatMap.symm
  change w.toList.flatMap Condition.tests ++ v.toList.flatMap Condition.tests = _
  rw [Group.tests_of_build hw, Group.tests_of_build hv, ht, ht, terms, List.filter_append, List.map_append]

/-- A collection is asked for its members by a term that compares its field with a scalar. -/
theorem mem_tests_assembled {projection : Projection} {limit offset : Option Nat} {w v : Option Condition}
    (hw : Group.build (p.leaf catalog) p.whereTerms = .ok w)
    (hv : Group.build (p.leaf catalog) p.havingTerms = .ok v) {param : String} {f : FieldRef}
    (h : .memberOf param f ∈ (p.assembled catalog projection limit offset w v).tests) :
    ∃ c ∈ p.terms, f = { Path.qualify c.field with template := c.template } ∧
      (p.scope catalog).isCollection (Path.qualify c.field) = true := by
  rw [tests_assembled hw hv] at h
  obtain ⟨c, hc, ht⟩ := List.mem_map.1 h
  exact ⟨c, List.mem_of_mem_filter hc, Scope.memberOf_test ht⟩

/-- What is joined for a call is needed and is all that is needed: one join for each source, each after the
join of its parent, and named after a chain that some path begins with; and every dotted path finds its source
joined. So no source is missed when the query is written, whatever the schema. -/
theorem joins_cover (hp : prepare catalog criteria order = .ok p) :
    (p.joins.map Step.name).Nodup ∧ Ordered p.joins ∧
      (∀ s ∈ p.joins, ∃ path ∈ p.paths order, ∃ names, names ≠ [] ∧ names <+: Path.associations path ∧
        s.name = "_".intercalate names) ∧
      (∀ path ∈ p.paths order, '.' ∈ path.toList → (Path.qualify path).source ∈ p.joins.map Step.name) ∧
      ((∀ e ∈ criteria, e.selectable? = none) → ∀ projection limit offset q,
        p.assemble catalog projection limit offset = .ok q →
          ∀ schema d name, Sql.render schema d q ≠ .error (.unknownAlias name)) := by
  have hj := joins_of_prepare hp
  refine ⟨hj.distinct, ordered_joins hp, ?_, fun path => source_mem_joins hp, ?_⟩
  · intro s hs
    obtain ⟨names, association, ⟨path, hm, hc⟩, rfl⟩ := hj.led s hs
    exact ⟨path, hm, _, by simp, hc, Path.source_of_ne_nil (by simp)⟩
  · intro hs projection limit offset q hq schema d name
    obtain ⟨w, v, hw, hv, rfl⟩ := assemble_eq_assembled hs hp hq
    apply Sql.render_ne_unknownAlias
    · apply forall_prefix_map
      intro before s hb
      refine (ordered_joins hp before s hb).imp_right fun hm => ?_
      rwa [List.map_map]
    · intro param f hf
      obtain ⟨c, hc, rfl, -⟩ := mem_tests_assembled hw hv hf
      have hk := source_known hp (List.mem_append_left _ (List.mem_map_of_mem hc))
      refine hk.imp_right fun hm => ?_
      change _ ∈ (p.joins.map p.joinOf).map Join.name
      rwa [List.map_map]

theorem joins_cover_shared :
    let criteria : Criteria := [.term "project.owner.name" (.int 1), .term "(|project_owner.title" (.int 2)]
    let order : OrderBy := [("project.owner.band.name", .index), (".year", .asc)]
    ∃ p q, prepare .musicians criteria order = .ok p ∧ p.assemble .musicians .entity none none = .ok q ∧
      p.joins.map Step.name = ["project", "project_owner", "project_owner_band", ""] ∧ Ordered p.joins ∧
      ∀ schema d name, Sql.render schema d q ≠ .error (.unknownAlias name) := by
  intro criteria order
  have hs : ∀ e ∈ criteria, e.selectable? = none := by
    simp [criteria, Entry.selectable?]
  obtain ⟨-, ho, -, -, hr⟩ := @joins_cover .musicians criteria order _ rfl
  exact ⟨_, _, rfl, rfl, by decide +kernel, ho, hr hs _ _ _ _ rfl⟩

end Plan

end Sift
