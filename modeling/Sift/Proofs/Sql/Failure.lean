import Sift.Proofs.Condition
import Sift.Proofs.Sql.Render

namespace Sift

open Sift.Except (FailsWith)

inductive Stops (schema : Schema) (sources : Named Entity) (source association : String) : SqlError → Prop where
  | source (h : sources.get? source = none) : Stops schema sources source association (.unknownAlias source)
  | association {owner : Entity} (hs : sources.get? source = some owner)
      (h : owner.associations.get? association = none) :
      Stops schema sources source association (.unknownAssociation owner.name association)
  | target {owner : Entity} {a : Association} (hs : sources.get? source = some owner)
      (ha : owner.associations.get? association = some a) (h : schema.entity? a.target = none) :
      Stops schema sources source association (.unknownEntity a.target)
  | ownerKey {owner : Entity} (hs : sources.get? source = some owner) (h : owner.identifier = []) :
      Stops schema sources source association (.missingIdentifier owner.name)
  | targetKey {owner target : Entity} {a : Association} (hs : sources.get? source = some owner)
      (ha : owner.associations.get? association = some a) (ht : schema.entity? a.target = some target)
      (h : target.identifier = []) : Stops schema sources source association (.missingIdentifier target.name)

variable {schema : Schema} {sources : Named Entity} {source association : String} {owner : Entity}
  {error : SqlError}

theorem Schema.require_eq_error {key : String} :
    schema.require key = .error error ↔ schema.entity? key = none ∧ error = .unknownEntity key := by
  unfold Schema.require
  cases schema.entity? key <;> simp [eq_comm]

theorem Entity.key_eq_error {e : Entity} :
    e.key = .error error ↔ e.identifier = [] ∧ error = .missingIdentifier e.name := by
  unfold key
  cases e.identifier <;> simp [eq_comm]

namespace Stops

theorem of_association (hs : sources.get? source = some owner)
    (h : schema.association owner association = .error error) :
    Stops schema sources source association error := by
  unfold Schema.association at h
  split at h
  · rename_i ha
    obtain rfl := Except.error.inj h
    exact .association hs ha
  · rename_i a ha
    rcases Except.bind_eq_error.1 h with h | ⟨target, -, h⟩
    · obtain ⟨ht, rfl⟩ := Schema.require_eq_error.1 h
      exact .target hs ha ht
    · cases h

theorem of_ownerKey (hs : sources.get? source = some owner) (h : owner.key = .error error) :
    Stops schema sources source association error := by
  obtain ⟨hi, rfl⟩ := Entity.key_eq_error.1 h
  exact .ownerKey hs hi

theorem of_targetKey {target : Entity} {a : Association} (hs : sources.get? source = some owner)
    (ha : schema.association owner association = .ok (a, target)) (h : target.key = .error error) :
    Stops schema sources source association error := by
  obtain ⟨ha, ht⟩ := Schema.association_eq_ok.1 ha
  obtain ⟨hi, rfl⟩ := Entity.key_eq_error.1 h
  exact .targetKey hs ha ht hi

end Stops

namespace Sql

namespace Context

variable {x : Context} {f : FieldRef}

theorem source_eq_error {name : String} (h : x.source name = .error error) :
    x.sources.get? name = none ∧ error = .unknownAlias name := by
  unfold source at h
  split at h
  · cases h
  · rename_i hn
    exact ⟨hn, (Except.error.inj h).symm⟩

theorem stops_memberTest {b : Bound} (h : x.memberTest b f = .error error) :
    Stops x.schema x.sources f.source f.column error := by
  simp only [memberTest, Except.bind_eq_error] at h
  obtain h | ⟨owner, ho, h | ⟨ownerKey, -, h | ⟨⟨a, target⟩, ha, h⟩⟩⟩ := h
  · obtain ⟨hs, rfl⟩ := source_eq_error h
    exact .source hs
  · exact .of_ownerKey (source_eq_ok.1 ho) h
  · exact .of_association (source_eq_ok.1 ho) h
  · cases a with
    | toOne | manyToMany => cases h
    | toMany _ mappedBy =>
        obtain h | ⟨key, -, h⟩ := Except.bind_eq_error.1 h
        · exact .of_targetKey (source_eq_ok.1 ho) ha h
        · cases h

theorem parameter_eq_error {param : String} (h : x.parameter param = .error error) :
    x.parameters.get? param = none ∧ error = .missingParameter param := by
  unfold parameter at h
  split at h
  · cases h
  · rename_i hn
    exact ⟨hn, (Except.error.inj h).symm⟩

theorem scalar_eq_error {param : String} (h : x.scalar param = .error error) :
    x.parameters.get? param = none ∧ error = .missingParameter param :=
  parameter_eq_error (Except.map_eq_error.1 h)

/-- A test lacks a parameter that it names, or it asks for members and these cannot be found. -/
theorem leaf_eq_error {c : Condition} (h : x.leaf c = .error error) :
    (∃ param ∈ c.parameterNames, x.parameters.get? param = none ∧ error = .missingParameter param) ∨
      ∃ param f, c = .memberOf param f ∧ Stops x.schema x.sources f.source f.column error := by
  cases c with
  | compare f op param | regexp f param =>
      obtain h | ⟨b, -, h⟩ := Except.bind_eq_error.1 h
      · exact .inl ⟨param, by simp [Condition.parameterNames], scalar_eq_error h⟩
      · cases h
  | isIn f param =>
      obtain h | ⟨v, -, h⟩ := Except.bind_eq_error.1 h
      · exact .inl ⟨param, by simp [Condition.parameterNames], parameter_eq_error h⟩
      · split at h <;> cases h
  | like f param =>
      obtain h | ⟨v, -, h⟩ := Except.bind_eq_error.1 h
      · exact .inl ⟨param, by simp [Condition.parameterNames], parameter_eq_error h⟩
      · cases h
  | memberOf param f =>
      obtain h | ⟨b, -, h⟩ := Except.bind_eq_error.1 h
      · exact .inl ⟨param, by simp [Condition.parameterNames], scalar_eq_error h⟩
      · exact .inr ⟨param, f, rfl, stops_memberTest h⟩
  | isNull | never | not | and | or => cases h

mutual

/-- Groups and negations add no errors to those of the tests. -/
theorem filter_eq_error {c : Condition} (h : x.filter c = .error error) :
    ∃ t ∈ c.tests, x.leaf t = .error error := by
  match c with
  | .and [] | .or [] => simp [filter] at h
  | .and (c :: cs) | .or (c :: cs) =>
      simp only [filter, Except.map_eq_error] at h
      rw [Condition.tests]
      exact filters_eq_error h
  | .not inner =>
      simp only [filter, Except.map_eq_error] at h
      rw [Condition.tests]
      exact filter_eq_error h
  | .compare .. | .isNull .. | .isIn .. | .like .. | .memberOf .. | .regexp .. | .never =>
      simp only [filter, Except.map_eq_error] at h
      exact ⟨_, by simp [Condition.tests], h⟩

theorem filters_eq_error {cs : List Condition} (h : x.filters cs = .error error) :
    ∃ t ∈ Condition.testsAll cs, x.leaf t = .error error := by
  match cs with
  | [] => cases h
  | c :: cs =>
      simp only [filters, Except.bind_eq_error] at h
      simp only [Condition.testsAll, List.mem_append]
      obtain h | ⟨_, -, h | ⟨_, -, h⟩⟩ := h
      · obtain ⟨t, ht, hl⟩ := filter_eq_error h
        exact ⟨t, .inl ht, hl⟩
      · obtain ⟨t, ht, hl⟩ := filters_eq_error h
        exact ⟨t, .inr ht, hl⟩
      · cases h

end

theorem expr?_eq_error {c : Option Condition} (h : x.expr? c = .error error) :
    ∃ t ∈ c.toList.flatMap Condition.tests, x.leaf t = .error error := by
  cases c with
  | none => cases h
  | some c =>
      rw [expr?, Except.map_eq_error, expr, Except.map_eq_error] at h
      simpa using filter_eq_error h

end Context

theorem stops_addJoin {done : Named Entity × List TableJoin} {j : Join}
    (h : addJoin schema done j = .error error) : Stops schema done.1 j.parent j.association error := by
  obtain h | ⟨tables, -, h⟩ := Except.bind_eq_error.1 h
  · unfold joinTables at h
    cases hs : done.1.get? j.parent with
    | none =>
        rw [hs] at h
        obtain rfl := Except.error.inj h
        exact .source hs
    | some parent =>
        simp only [hs, Except.bind_eq_error] at h
        obtain h | ⟨_, hp, h⟩ := h
        · cases h
        obtain rfl := Except.ok.inj hp
        obtain h | ⟨⟨a, target⟩, ha, h | ⟨key, -, h⟩⟩ := h
        · exact .of_association hs h
        · exact .of_targetKey hs ha h
        · cases a with
          | toOne => cases h
          | toMany | manyToMany =>
              obtain h | ⟨parentKey, -, h⟩ := Except.bind_eq_error.1 h
              · exact .of_ownerKey hs h
              · cases h
  · cases h

end Sql

def Query.tests (q : Query) : List Condition :=
  q.whereCondition.toList.flatMap Condition.tests ++ q.havingCondition.toList.flatMap Condition.tests

inductive Unwritten (schema : Schema) (q : Query) : SqlError → Prop where
  | entity (h : schema.entity? q.entity = none) : Unwritten schema q (.unknownEntity q.entity)
  | identifier {root : Entity} (hr : schema.entity? q.entity = some root) (h : root.identifier = []) :
      Unwritten schema q (.missingIdentifier root.name)
  | join {root : Entity} {before after : List Join} {j : Join} {sources : Named Entity}
      {tables : List Sql.TableJoin} {error : SqlError} (hr : schema.entity? q.entity = some root)
      (hj : q.joins = before ++ j :: after)
      (hb : before.foldlM (Sql.addJoin schema) (Named.empty.put q.root root, []) = .ok (sources, tables))
      (h : Stops schema sources j.parent j.association error) : Unwritten schema q error
  | parameter {c : Condition} {name : String} (hc : c ∈ q.tests) (hn : name ∈ c.parameterNames)
      (h : q.parameters.get? name = none) : Unwritten schema q (.missingParameter name)
  | member {root : Entity} {sources : Named Entity} {tables : List Sql.TableJoin} {param : String}
      {f : FieldRef} {error : SqlError} (hr : schema.entity? q.entity = some root)
      (hj : q.joins.foldlM (Sql.addJoin schema) (Named.empty.put q.root root, []) = .ok (sources, tables))
      (hc : .memberOf param f ∈ q.tests) (h : Stops schema sources f.source f.column error) :
      Unwritten schema q error

namespace Sql

variable {q : Query} {d : Dialect}

theorem Context.unwritten_leaf {root : Entity} {tables : List TableJoin}
    (hr : schema.entity? q.entity = some root)
    (hj : q.joins.foldlM (addJoin schema) (Named.empty.put q.root root, []) = .ok (sources, tables))
    {c : Condition} (hc : c ∈ q.tests) (h : leaf ⟨schema, d, q.parameters, sources⟩ c = .error error) :
    Unwritten schema q error := by
  obtain ⟨param, hp, hg, rfl⟩ | ⟨param, f, rfl, hs⟩ := leaf_eq_error h
  · exact .parameter hc hp hg
  · exact .member hr hj hc hs

theorem unwritten_of_render (h : render schema d q = .error error) : Unwritten schema q error := by
  obtain h | ⟨root, hr, h⟩ := Except.bind_eq_error.1 h
  · obtain ⟨he, rfl⟩ := Schema.require_eq_error.1 h
    exact .entity he
  rw [Schema.require_eq_ok] at hr
  obtain h | ⟨⟨sources, joins⟩, hj, h⟩ := Except.bind_eq_error.1 h
  · obtain ⟨before, j, after, ⟨found, tables⟩, hq, hb, h⟩ := Except.foldlM_eq_error h
    exact .join hr hq hb (stops_addJoin h)
  have hw : ∀ c, Context.expr? ⟨schema, d, q.parameters, sources⟩ c = .error error →
      c.toList.flatMap Condition.tests ⊆ q.tests → Unwritten schema q error := by
    intro c hc hm
    obtain ⟨t, ht, hl⟩ := Context.expr?_eq_error hc
    exact Context.unwritten_leaf hr hj (hm ht) hl
  have hv : q.havingCondition.toList.flatMap Condition.tests ⊆ q.tests := List.subset_append_right _ _
  obtain h | ⟨filter, -, h⟩ := Except.bind_eq_error.1 h
  · exact hw _ h (List.subset_append_left _ _)
  cases hp : q.projection with
  | entity =>
      simp only [hp] at h
      obtain h | ⟨having, -, h⟩ := Except.bind_eq_error.1 h
      · exact hw _ h hv
      · cases h
  | count =>
      simp only [hp, countStatement] at h
      split at h
      · obtain rfl := Except.error.inj h
        exact .identifier hr ‹_›
      · cases h
      · obtain h | ⟨having, -, h⟩ := Except.bind_eq_error.1 h
        · exact hw _ h hv
        · cases h

/-- A query that misses a parameter misses one that its conditions name. -/
theorem render_missing {name : String} (h : render schema d q = .error (.missingParameter name)) :
    name ∈ q.whereCondition.toList.flatMap Condition.parameterNames ++
        q.havingCondition.toList.flatMap Condition.parameterNames ∧
      q.parameters.get? name = none := by
  cases unwritten_of_render h with
  | join _ _ _ h => cases h
  | member _ _ _ h => cases h
  | parameter hc hp hg =>
      refine ⟨?_, hg⟩
      rw [Condition.flatMap_parameterNames, Condition.flatMap_parameterNames q.havingCondition.toList,
        ← List.flatMap_append]
      exact List.mem_flatMap_of_mem hc hp

end Sql

def Schema.Lacks (s : Schema) : SqlError → Prop
  | .unknownEntity name => s.entity? name = none
  | _ => True

theorem Stops.lacks (h : Stops schema sources source association error) : schema.Lacks error := by
  cases h with
  | target _ _ h => exact h
  | source | association | ownerKey | targetKey => trivial

/-- A query that is not written for an unknown entity names one that is not in the schema, as its root or as
the target of an association. -/
theorem Sql.failsWith_render (schema : Schema) (d : Dialect) (q : Query) :
    FailsWith schema.Lacks (render schema d q) := by
  intro error he
  cases unwritten_of_render he with
  | entity h => exact h
  | join _ _ _ h | member _ _ _ h => exact h.lacks
  | parameter | identifier => trivial

end Sift
