import Sift.Proofs.Sql.Root

namespace Sift

def Query.counted (q : Query) : Query := { q with projection := .count, groupBy := [] }

namespace Sql

structure Lists (ids : List String) (f : Select) : Prop where
  items : f.items.any Item.isCount = false
  groupBy : f.groupBy = ids.map (fun i => (f.name, i)) ∨ f.groupBy = [] ∧ f.joins = [] ∧ f.having = none
  limit : f.limit = none
  offset : f.offset = none

namespace Select

def distinct (f : Select) (column : String) : Select :=
  { f with items := [.countDistinct f.name column], groupBy := [], orderBy := [], limit := none, offset := none }

def groups (f : Select) (columns : List String) : Select :=
  { f with
    items := columns.map (.column f.name), groupBy := columns.map fun i => (f.name, i), orderBy := []
    limit := none, offset := none }

end Select

/-- The statements that count what another one selects: by the different values of a single identifier, or by
the groups there are of it. -/
inductive Counts (ids : List String) (f : Select) : Statement → Prop where
  | distinct {identifier : String} (hi : ids = [identifier]) (hh : f.having = none) :
    Counts ids f (.rows (f.distinct identifier))
  | groups : Counts ids f (.countOf (f.groups ids))

theorem Counts.mem_exprs {ids : List String} {f : Select} {s : Statement} (h : Counts ids f s) {x : Expr}
    (hx : x ∈ s.select.exprs) : x ∈ f.exprs := by
  cases h with
  | distinct | groups =>
      rw [Select.exprs, List.mem_append] at hx
      exact List.mem_append_left _ (hx.resolve_right (List.not_mem_nil (a := x)))

theorem isCount_entityItems (q : Query) (root : Entity) :
    (entityItems q root).any Item.isCount = false := by
  rw [List.any_eq_false]
  intro i hi
  rw [entityItems] at hi
  split at hi
  · rw [List.mem_singleton.1 hi]
    simp [Item.isCount]
  · rcases List.mem_append.1 hi with hi | hi
    · obtain ⟨column, -, rfl⟩ := List.mem_map.1 hi
      simp [Item.isCount]
    · split at hi
      · split at hi
        · cases hi
        · rw [List.mem_singleton.1 hi]
          simp [Item.isCount]
      · cases hi

theorem expr?_eq_none {x : Context} {c : Option Condition} {e : Option Expr} (h : x.expr? c = .ok e) :
    e = none ↔ c = none := by
  cases c with
  | none =>
      obtain rfl := Except.ok.inj h
      simp
  | some c =>
      obtain ⟨e', -, rfl⟩ := Except.map_eq_ok.1 h
      simp

variable {schema : Schema} {d : Dialect} {q : Query} {e : Entity} {s s' : Statement}

theorem counts_of_countStatement {x : Context} {f : Select} (hn : f.name = q.root)
    (hx : x.expr? q.havingCondition = .ok f.having)
    (h : countStatement x q.counted e { f with
      items := [], groupBy := [], having := none, orderBy := [], limit := none, offset := none } = .ok s') :
    Counts e.identifier f s' := by
  obtain ⟨items, table, name, joins, filter, groupBy, having, orderBy, limit, offset⟩ := f
  obtain rfl : name = q.root := hn
  unfold countStatement at h
  split at h
  · cases h
  · rename_i identifier hi hh
    obtain rfl := Except.ok.inj h
    obtain rfl : having = none := (expr?_eq_none hx).2 hh
    exact .distinct hi rfl
  · obtain ⟨having', hh, h⟩ := Except.bind_eq_ok.1 h
    obtain rfl := Except.pure_eq_ok.1 h
    obtain rfl : having' = having := Except.ok.inj (hh.symm.trans hx)
    exact .groups

/-- What is written for a query without paging. -/
theorem lists_of_render (hp : q.projection = .entity) (he : schema.entity? q.entity = some e)
    (hg : q.groupBy = e.identifier.map (.plain q.root) ∨ q.groupBy = [] ∧ q.joins = [])
    (hm : q.maxResults = none) (ho : q.firstResult = none) (h : render schema d q = .ok s) :
    ∃ f, s = .rows f ∧ f.table = e.table ∧ Lists e.identifier f := by
  obtain ⟨e', sources, joins, filter, having, hr, hh, rfl⟩ := rows_of_render hp h
  obtain rfl : e' = e := Option.some.inj (hr.found.symm.trans he)
  refine ⟨_, rfl, rfl, ⟨isCount_entityItems q e', ?_, ?_, ho⟩⟩
  · change groupItems q e' = _ ∨ groupItems q e' = [] ∧ joins = [] ∧ having = none
    rw [groupItems_eq (hg.symm.imp And.left id)]
    split
    · exact .inl rfl
    · rename_i hn
      obtain ⟨hn, hv⟩ : q.groupBy = [] ∧ q.havingCondition = none := by simpa using hn
      rcases hg with hg | ⟨-, hq⟩
      · rw [hn, eq_comm, List.map_eq_nil_iff] at hg
        exact .inl (by rw [hg]; rfl)
      · have hj := hr.joined
        rw [hq] at hj
        obtain ⟨-, rfl⟩ := Prod.mk.inj (Except.pure_eq_ok.1 hj)
        exact .inr ⟨rfl, rfl, (expr?_eq_none hh).2 hv⟩
  · change limitOf d q = none
    rw [limitOf, hm, ho]

/-- What is written for a query without paging, and for its count. -/
theorem counts_of_render (hp : q.projection = .entity) (he : schema.entity? q.entity = some e)
    (hg : q.groupBy = e.identifier.map (.plain q.root) ∨ q.groupBy = [] ∧ q.joins = [])
    (hm : q.maxResults = none) (ho : q.firstResult = none) (h : render schema d q = .ok s)
    (h' : render schema d q.counted = .ok s') :
    ∃ f, s = .rows f ∧ f.table = e.table ∧ Lists e.identifier f ∧ Counts e.identifier f s' := by
  obtain ⟨f, hf, ht, hl⟩ := lists_of_render hp he hg hm ho h
  obtain ⟨e', sources, joins, filter, having, hr, hh, hs⟩ := rows_of_render hp h
  obtain rfl : e' = e := Option.some.inj (hr.found.symm.trans he)
  -- the count reads the same entity, joins and filter
  obtain ⟨_, _, _, _, hr', hc⟩ := count_of_render (q := q.counted) rfl h'
  obtain ⟨rfl, rfl, rfl, rfl⟩ := hr.unique ⟨hr'.found, hr'.joined, hr'.passed⟩
  obtain rfl := Statement.rows.inj (hf.symm.trans hs)
  exact ⟨_, hf, ht, hl, counts_of_countStatement rfl hh hc⟩

end Sql

end Sift
