import Sift.Proofs.Table.Group

namespace Sift.Table

open Sql (FromClause TableJoin)

section Sources

variable {db : Database} {f : FromClause} {tables : List (String × Table)}

theorem sourceTable_eq_ok {table name : String} {t : String × Table} :
    sourceTable db table name = .ok t ↔ db.table? table = some t.2 ∧ t.1 = name := by
  obtain ⟨name', t⟩ := t
  rw [sourceTable]
  cases db.table? table <;> simp [and_comm, eq_comm]

theorem sourceTables_eq_ok :
    sourceTables db f = .ok tables ↔ ∃ t rest, db.table? f.table = some t ∧
      List.Forall₂ (fun j t => db.table? j.table = some t.2 ∧ t.1 = j.name) f.joins rest ∧
        tables = (f.name, t) :: rest := by
  simp only [sourceTables, Except.bind_eq_ok, Except.mapM_eq_ok, sourceTable_eq_ok, Except.pure_eq_ok]
  constructor
  · rintro ⟨⟨_, t⟩, ⟨ht, rfl⟩, rest, hr, rfl⟩
    exact ⟨t, rest, ht, hr, rfl⟩
  · rintro ⟨t, rest, ht, hr, rfl⟩
    exact ⟨(f.name, t), ⟨ht, rfl⟩, rest, hr, rfl⟩

theorem sourceTables_append {js : List TableJoin} :
    sourceTables db { f with joins := f.joins ++ js } = .ok tables ↔ ∃ first rest, sourceTables db f = .ok first ∧
      js.mapM (fun j => sourceTable db j.table j.name) = .ok rest ∧ tables = first ++ rest := by
  simp only [sourceTables, Except.bind_eq_ok, Except.mapM_append_eq_ok, Except.pure_eq_ok]
  constructor
  · rintro ⟨t, ht, _, ⟨first, rest, hf, hr, rfl⟩, rfl⟩
    exact ⟨t :: first, rest, ⟨t, ht, first, hf, rfl⟩, hr, rfl⟩
  · rintro ⟨_, rest, ⟨t, ht, first, hf, rfl⟩, hr, rfl⟩
    exact ⟨t, ht, first ++ rest, ⟨first, rest, hf, hr, rfl⟩, rfl⟩

theorem length_sourceTables (h : sourceTables db f = .ok tables) : tables.length = f.joins.length + 1 := by
  obtain ⟨t, rest, -, hr, rfl⟩ := sourceTables_eq_ok.1 h
  rw [List.length_cons, hr.length_eq]

def scopeOf (db : Database) (f : FromClause) : Scope :=
  ⟨db, ((sourceTables db f).toOption.getD []).map fun t => ⟨t.1, t.2.columns⟩⟩

theorem sources_scopeOf (h : sourceTables db f = .ok tables) :
    (scopeOf db f).sources = tables.map fun t => ⟨t.1, t.2.columns⟩ := by
  rw [scopeOf, h]
  rfl

theorem length_sources (h : sourceTables db f = .ok tables) :
    (scopeOf db f).sources.length = f.joins.length + 1 := by
  rw [sources_scopeOf h, List.length_map, length_sourceTables h]

end Sources

namespace Program

variable {db : Database} {s : Sql.Select} {tables : List (String × Table)} {p : Program}

structure Resolves (db : Database) (s : Sql.Select) (tables : List (String × Table)) (p : Program) : Prop where
  found : sourceTables db s.fromClause = .ok tables
  rows : p.rows = ((tables.head?.map fun t => t.2.rows)).getD []
  links : linksOf (scopeOf db s.fromClause) tables s.joins = .ok p.links
  filter : ∃ f, (scopeOf db s.fromClause).term? false s.filter = .ok f ∧
    p.filter = ((f.map Term.conjuncts).getD []).mergeSort fun a b => a.level ≤ b.level
  groupBy : ∃ keys, List.Forall₂ (fun i k => (scopeOf db s.fromClause).slot (some i.1) i.2 = .ok k) s.groupBy keys ∧
    p.groupBy = if !keys.isEmpty || s.items.any Sql.Item.isCount then some keys else none
  having : (scopeOf db s.fromClause).term? true s.having = .ok p.having
  outputs : ∃ os, List.Forall₂ (fun i o => outputsOf (scopeOf db s.fromClause) i = .ok o) s.items os ∧
    p.outputs = os.flatten
  limit : p.limit = s.limit
  offset : p.offset = s.offset

theorem resolves_of_ofSelect (h : ofSelect db s = .ok p) : ∃ tables, Resolves db s tables p := by
  unfold ofSelect at h
  obtain ⟨tables, ht, h⟩ := Except.bind_eq_ok.1 h
  have hx : (⟨db, tables.map fun t => ⟨t.1, t.2.columns⟩⟩ : Scope) = scopeOf db s.fromClause := by
    rw [scopeOf, ht]
    rfl
  dsimp only at h
  rw [hx] at h
  split at h
  · cases h
  obtain ⟨links, hl, h⟩ := Except.bind_eq_ok.1 h
  obtain ⟨filter, hf, h⟩ := Except.bind_eq_ok.1 h
  obtain ⟨keys, hk, h⟩ := Except.bind_eq_ok.1 h
  split at h
  · cases h
  obtain ⟨having, hh, h⟩ := Except.bind_eq_ok.1 h
  obtain ⟨orderBy, -, h⟩ := Except.bind_eq_ok.1 h
  obtain ⟨outputs, hs, h⟩ := Except.bind_eq_ok.1 h
  obtain rfl := Except.pure_eq_ok.1 h
  exact ⟨tables, ht, rfl, hl, ⟨filter, hf, rfl⟩, ⟨keys, Except.mapM_eq_ok.1 hk, rfl⟩, hh,
    ⟨outputs, Except.mapM_eq_ok.1 hs, rfl⟩, rfl, rfl⟩

def passing (p : Program) : Except SqlError (List Row) :=
  (joined p.rows p.links).filterM fun r => passes (.single r) p.filter

def output (p : Program) (g : Group) : Except SqlError (List Cell) := p.outputs.mapM fun o => o.term.value g

structure Runs (p : Program) (t : Table) (rows : List Row) (groups kept : List Group) : Prop where
  passed : p.passing = .ok rows
  grouped : p.groups rows = .ok groups
  decided : groups.filterM p.isKept = .ok kept
  columns : t.columns = p.outputs.map Output.name
  rows : p.limit = none → p.offset = none → ∃ cells, List.Forall₂ (fun g c => p.output g = .ok c) kept cells ∧
    t.rows.Perm cells

theorem page_all {α : Type} (rows : List α) : page none none rows = rows := by
  rw [page, Option.getD_none, Nat.zero_min, List.drop_zero]

theorem runs_of_run {t : Table} (h : p.run = .ok t) : ∃ rows groups kept, Runs p t rows groups kept := by
  obtain ⟨rows, hr, h⟩ := Except.bind_eq_ok.1 h
  obtain ⟨groups, hg, h⟩ := Except.bind_eq_ok.1 h
  obtain ⟨kept, hk, h⟩ := Except.bind_eq_ok.1 h
  obtain ⟨selected, hs, h⟩ := Except.bind_eq_ok.1 h
  obtain rfl := Except.pure_eq_ok.1 h
  refine ⟨rows, groups, kept, hr, hg, hk, rfl, fun hl ho => ⟨selected.map Prod.snd, ?_, ?_⟩⟩
  · rw [Except.mapM_eq_ok] at hs
    rw [List.forall₂_map_right_iff]
    refine hs.imp ?_
    intro g row hrow
    obtain ⟨keys, -, hrow⟩ := Except.bind_eq_ok.1 hrow
    obtain ⟨cells, hc, hrow⟩ := Except.bind_eq_ok.1 hrow
    obtain rfl := Except.pure_eq_ok.1 hrow
    exact hc
  · rw [hl, ho, page_all]
    exact (List.mergeSort_perm _ _).map _

end Program

end Sift.Table
