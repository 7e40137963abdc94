import Sift.Proofs.Except
import Sift.Sql.Render

namespace Sift

def Value.elements : Value → List Value
  | .array items => items
  | v => [v]

namespace Schema

variable {s : Schema}

theorem require_eq_ok {key : String} {e : Entity} : s.require key = .ok e ↔ s.entity? key = some e := by
  unfold require
  cases s.entity? key <;> simp

theorem association_eq_ok {owner target : Entity} {field : String} {a : Association} :
    s.association owner field = .ok (a, target) ↔
      owner.associations.get? field = some a ∧ s.entity? a.target = some target := by
  unfold association
  cases owner.associations.get? field with
  | none => simp
  | some b =>
      simp only [Except.bind_eq_ok, require_eq_ok, Except.pure_eq_ok, Prod.mk.injEq, Option.some.injEq]
      constructor
      · rintro ⟨t, ht, rfl, rfl⟩
        exact ⟨rfl, ht⟩
      · rintro ⟨rfl, ht⟩
        exact ⟨target, ht, rfl, rfl⟩

end Schema

theorem Entity.key_eq_ok {e : Entity} {k : String} :
    e.key = .ok k ↔ e.identifier ≠ [] ∧ k = e.identifier.headD "" := by
  unfold key
  cases e.identifier with
  | nil => simp
  | cons k' ks => simp [eq_comm]

namespace Sql

namespace Context

theorem source_eq_ok {x : Context} {name : String} {e : Entity} :
    x.source name = .ok e ↔ x.sources.get? name = some e := by
  unfold source
  cases x.sources.get? name <;> simp

/-- Members are asked for through a column of their owner or through the rows of another table. -/
theorem memberTest_shape {x : Context} {b : Bound} {f : FieldRef} {e : Expr} (h : x.memberTest b f = .ok e) :
    (∃ column, e = .compare .eq (.column f.source column) (.bound b)) ∨ ∃ members, e = .inMembers b members := by
  simp only [memberTest, Except.bind_eq_ok] at h
  obtain ⟨owner, -, ownerKey, -, ⟨a, target⟩, -, h⟩ := h
  cases a with
  | toOne name column =>
      obtain rfl := Except.pure_eq_ok.1 h
      exact .inl ⟨column, rfl⟩
  | toMany =>
      obtain ⟨key, -, h⟩ := Except.bind_eq_ok.1 h
      obtain rfl := Except.pure_eq_ok.1 h
      exact .inr ⟨_, rfl⟩
  | manyToMany =>
      obtain rfl := Except.pure_eq_ok.1 h
      exact .inr ⟨_, rfl⟩

theorem leaf_isIn (x : Context) (f : FieldRef) (param : String) :
    x.leaf (.isIn f param) = (x.parameter param).map fun v =>
      if v.elements.isEmpty then .always false else .isIn (field f) (v.elements.map .ofValue) := by
  rw [leaf]
  cases x.parameter param with
  | error e => rfl
  | ok v =>
      cases v with
      | array items => cases items <;> rfl
      | null | bool | int | float | text | backed => rfl

end Context

structure Reads (schema : Schema) (d : Dialect) (q : Query) (e : Entity) (sources : Named Entity)
    (joins : List TableJoin) (filter : Option Expr) : Prop where
  found : schema.entity? q.entity = some e
  joined : q.joins.foldlM (addJoin schema) (Named.empty.put q.root e, []) = .ok (sources, joins)
  passed : Context.expr? ⟨schema, d, q.parameters, sources⟩ q.whereCondition = .ok filter

section

variable {schema : Schema} {d : Dialect} {q : Query} {s : Statement}

theorem Reads.unique {e e' : Entity} {sources sources' : Named Entity} {joins joins' : List TableJoin}
    {filter filter' : Option Expr} (h : Reads schema d q e sources joins filter)
    (h' : Reads schema d q e' sources' joins' filter') :
    e = e' ∧ sources = sources' ∧ joins = joins' ∧ filter = filter' := by
  obtain rfl := Option.some.inj (h.found.symm.trans h'.found)
  obtain ⟨rfl, rfl⟩ := Prod.mk.inj (Except.ok.inj (h.joined.symm.trans h'.joined))
  obtain rfl := Except.ok.inj (h.passed.symm.trans h'.passed)
  exact ⟨rfl, rfl, rfl, rfl⟩

theorem rows_of_render (hp : q.projection = .entity) (h : render schema d q = .ok s) :
    ∃ e sources joins filter having, Reads schema d q e sources joins filter ∧
      Context.expr? ⟨schema, d, q.parameters, sources⟩ q.havingCondition = .ok having ∧
      s = .rows ⟨entityItems q e, e.table, q.root, joins, filter, groupItems q e, having, orderItems q,
        limitOf d q, q.firstResult⟩ := by
  obtain ⟨e, hr, h⟩ := Except.bind_eq_ok.1 h
  obtain ⟨⟨sources, joins⟩, hj, h⟩ := Except.bind_eq_ok.1 h
  obtain ⟨filter, hf, h⟩ := Except.bind_eq_ok.1 h
  simp only [hp] at h
  obtain ⟨having, hh, h⟩ := Except.bind_eq_ok.1 h
  exact ⟨e, sources, joins, filter, having, ⟨Schema.require_eq_ok.1 hr, hj, hf⟩, hh,
    (Except.pure_eq_ok.1 h).symm⟩

theorem count_of_render (hp : q.projection = .count) (h : render schema d q = .ok s) :
    ∃ e sources joins filter, Reads schema d q e sources joins filter ∧
      countStatement ⟨schema, d, q.parameters, sources⟩ q e
        ⟨[], e.table, q.root, joins, filter, [], none, [], none, none⟩ = .ok s := by
  obtain ⟨e, hr, h⟩ := Except.bind_eq_ok.1 h
  obtain ⟨⟨sources, joins⟩, hj, h⟩ := Except.bind_eq_ok.1 h
  obtain ⟨filter, hf, h⟩ := Except.bind_eq_ok.1 h
  simp only [hp] at h
  exact ⟨e, sources, joins, filter, ⟨Schema.require_eq_ok.1 hr, hj, hf⟩, h⟩

end

end Sql

end Sift
