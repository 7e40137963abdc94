import Mathlib.Data.Finset.Card
import Mathlib.Data.List.Nodup
import Sift.Sql.Error
import Sift.Sql.Statement
import Sift.Table.Basic

namespace Sift.Sql

namespace FromClause

def join (f : FromClause) (j : TableJoin) : FromClause := { f with joins := f.joins ++ [j] }

structure Begins (f g : FromClause) : Prop where
  table : g.table = f.table
  name : g.name = f.name
  joins : f.joins <+: g.joins

end FromClause

/-- What templates make of their columns. It is put into a statement as it is. -/
def Expr.templates : Expr → List String
  | .template text source name => [(FieldRef.mk source name (some text)).apply (Dialect.sqlite.qualify source name)]
  | .column .. | .bound _ | .inMembers .. => []
  | .compare _ left right | .and left right | .or left right => left.templates ++ right.templates
  | .isIn e _ | .isNull e | .like e _ | .matches e _ | .not e => e.templates

def Select.conditions (s : Select) : List Expr := s.filter.toList ++ s.having.toList

def Select.Distinguishes (s : Select) (source column : String) : Prop :=
  (source, column) ∈ s.groupBy ∨ .countDistinct source column ∈ s.items

/-- A database, as the queries use it. How values are stored, converted and compared, what templates compute,
which row stands for a group, and in which order rows come is all left open. -/
structure Executor (ρ κ : Type) where
  run : Statement → Except SqlError Table
  rows? : String → Option (List ρ)
  -- the row of nulls that stands where a table has no partner
  blank : ρ
  -- what the values of a column are told apart by, in a row of a table and in a joined row. Nulls have no key
  key? : String → String → ρ → Option κ
  joinedKey? : FromClause → String → String → List ρ → Option κ
  -- whether a row of a table is joined to a row of the tables before it
  fits : FromClause → TableJoin → List ρ → ρ → Bool
  -- whether a condition of a statement is true of a group, of a single row where rows are filtered
  holds : Statement → Expr → Group ρ → Bool
  groups : Statement → List (Group ρ)
  cells : Statement → Group ρ → List Table.Cell
  -- the names and the cells that an item of a single table has there
  itemNames : String → Item → List String
  itemCells : String → Item → ρ → List Table.Cell
  -- whether a text is an expression by itself, without parameters, and one that calls deterministic functions only
  isExpression : String → Prop
  isDeterministic : String → Prop
  -- whether all names in a condition are those of columns of the tables
  knows : FromClause → Expr → Prop

namespace Executor

variable {ρ κ : Type} (e : Executor ρ κ)

def extend (f : FromClause) (j : TableJoin) (r : List ρ) : List (List ρ) :=
  match ((e.rows? j.table).getD []).filter (e.fits f j r) with
  | [] => [r ++ [e.blank]]
  | found => found.map fun x => r ++ [x]

def follow : FromClause → List TableJoin → List (List ρ) → List (List ρ)
  | _, [], rows => rows
  | f, j :: js, rows => follow (f.join j) js (rows.flatMap (e.extend f j))

/-- The rows that a `FROM` with left joins gives. -/
def joined (f : FromClause) : List (List ρ) :=
  e.follow { f with joins := [] } f.joins (((e.rows? f.table).getD []).map ([·]))

def passing (s : Statement) : List (List ρ) :=
  (e.joined s.select.fromClause).filter fun r => s.select.filter.all fun x => e.holds s x (.single r)

def kept (s : Statement) : List (Group ρ) :=
  (e.groups s).filter fun g => s.select.having.all fun x => e.holds s x g

def groupKey (s : Statement) (r : List ρ) : List (Option κ) :=
  s.select.groupBy.map fun i => e.joinedKey? s.select.fromClause i.1 i.2 r

structure Runs (s : Statement) (t : Table) : Prop where
  answer : e.run s = .ok t
  expressions : ∀ x ∈ s.select.exprs, ∀ text ∈ x.templates, e.isExpression text

def IsDeterministic (x : Expr) : Prop := ∀ text ∈ x.templates, e.isDeterministic text

structure Plain (s : Select) : Prop where
  expressions : ∀ x ∈ s.exprs, ∀ text ∈ x.templates, e.isExpression text
  deterministic : ∀ x ∈ s.conditions, e.IsDeterministic x

variable [DecidableEq κ]

structure Partitions (s : Statement) : Prop where
  covers : ∀ r ∈ e.passing s, ∃ g ∈ e.groups s, e.groupKey s g.row = e.groupKey s r
  nodup : ((e.groups s).map fun g => e.groupKey s g.row).Nodup
  row_mem : ∀ g ∈ e.groups s, g.row ∈ g.rows
  rows : ∀ g ∈ e.groups s, g.rows.Perm ((e.passing s).filter fun r => e.groupKey s r = e.groupKey s g.row)

/-- What the documentation of SQLite says of statements that it executes. -/
structure Lawful (e : Executor ρ κ) : Prop where
  -- to select from a table that is not there is an error
  found {s : Statement} {t : Table} (h : e.Runs s t) : ∃ rows, e.rows? s.select.table = some rows
  -- a qualified name that the first table has is found there. It would be ambiguous if it was found elsewhere
  first {s : Statement} {t : Table} (h : e.Runs s t) {column : String}
    (hc : s.select.Distinguishes s.select.name column) {x : ρ} {k : κ}
    (hk : e.key? s.select.table column x = some k) (rest : List ρ) :
    e.joinedKey? s.select.fromClause s.select.name column (x :: rest) = some k
  -- a query is an aggregate query if it has a `GROUP BY` or an aggregate among what it selects. Without `GROUP BY`
  -- all rows of an aggregate query are one group, even if there are none
  single {s : Statement} {t : Table} (h : e.Runs s t) (hg : s.select.groupBy = [])
    (hi : s.select.items.any Item.isCount = false) : (e.groups s).Perm ((e.passing s).map .single)
  whole {s : Statement} {t : Table} (h : e.Runs s t) (hg : s.select.groupBy = [])
    (hi : s.select.items.any Item.isCount = true) : ∃ g, e.groups s = [g] ∧ g.rows.Perm (e.passing s)
  -- rows with the same values are a group, nulls among them. Which of its rows conditions look at is not specified
  grouped {s : Statement} {t : Table} (h : e.Runs s t) (hg : s.select.groupBy ≠ []) : e.Partitions s
  -- a row for each group that is kept, in any order
  rows {f : Select} {t : Table} (h : e.Runs (.rows f) t) (hl : f.limit = none) (ho : f.offset = none) :
    t.rows.Perm ((e.kept (.rows f)).map (e.cells (.rows f)))
  countOf {f : Select} {t : Table} (h : e.Runs (.countOf f) t) (hl : f.limit = none) (ho : f.offset = none) :
    t.columns = [countColumn] ∧ t.rows = [[.ofRows (e.kept (.countOf f)).length]]
  -- nulls are not counted
  countDistinct {f : Select} {t : Table} (h : e.Runs (.rows f) t) {source column : String}
    (hi : f.items = [.countDistinct source column]) :
    t.columns = [countColumn] ∧ ∀ g ∈ e.groups (.rows f), e.cells (.rows f) g =
      [.ofRows (g.rows.filterMap (e.joinedKey? f.fromClause source column)).toFinset.card]
  -- items of the first table show one of its rows in the group, which is not specified either, if no other table has
  -- the name of that table
  items {f : Select} {t : Table} (h : e.Runs (.rows f) t)
    (hi : ∀ i ∈ f.items, i = .allOf f.name ∨ ∃ column, i = .column f.name column)
    (hn : ∀ j ∈ f.joins, Table.sameName j.name f.name = false) :
    t.columns = f.items.flatMap (e.itemNames f.table) ∧
      ∀ g ∈ e.groups (.rows f), ∃ r ∈ g.rows, ∀ x rest, r = x :: rest →
        e.cells (.rows f) g = f.items.flatMap (e.itemCells f.table · x)
  -- deterministic functions give the same for the same values
  deterministic {s s' : Statement} {t t' : Table} (h : e.Runs s t) (h' : e.Runs s' t')
    (hf : s'.select.fromClause = s.select.fromClause) {x : Expr} (hx : x ∈ s.select.conditions)
    (hx' : x ∈ s'.select.conditions) (hd : e.IsDeterministic x) (g : Group ρ) : e.holds s' x g = e.holds s x g
  -- names that are found in the tables that come first are not looked for in others
  known {s s' : Statement} {t t' : Table} (h : e.Runs s t) (h' : e.Runs s' t') {f : FromClause}
    (hf : f.Begins s.select.fromClause) (hf' : f.Begins s'.select.fromClause) {x : Expr}
    (hx : s.select.filter = some x) (hx' : s'.select.filter = some x) (hk : e.knows f x)
    (hd : e.IsDeterministic x) {r : List ρ} (hr : r.length = f.joins.length + 1) (more more' : List ρ) :
    e.holds s' x (.single (r ++ more')) = e.holds s x (.single (r ++ more))

omit [DecidableEq κ]

variable {e} {f g : FromClause} {j : TableJoin} {js : List TableJoin} {rows : List (List ρ)} {r r' : List ρ}

theorem mem_extend (h : r' ∈ e.extend f j r) : ∃ x, r' = r ++ [x] := by
  simp only [extend] at h
  split at h
  · exact ⟨e.blank, List.mem_singleton.1 h⟩
  · obtain ⟨x, -, rfl⟩ := List.mem_map.1 h
    exact ⟨x, rfl⟩

theorem extend_ne_nil (f : FromClause) (j : TableJoin) (r : List ρ) : e.extend f j r ≠ [] := by
  simp only [extend]
  split
  · simp
  · rename_i hn
    simpa using hn

theorem append_of_mem_follow (h : r ∈ e.follow f js rows) :
    ∃ r' ∈ rows, ∃ more, r = r' ++ more ∧ more.length = js.length := by
  induction js generalizing f rows with
  | nil => exact ⟨r, h, [], (List.append_nil r).symm, rfl⟩
  | cons j js ih =>
      obtain ⟨r', hr', more, rfl, hl⟩ := ih h
      obtain ⟨r, hr, hr'⟩ := List.mem_flatMap.1 hr'
      obtain ⟨x, rfl⟩ := mem_extend hr'
      exact ⟨r, hr, x :: more, by simp, congrArg (· + 1) hl⟩

/-- No row is lost on the way. -/
theorem exists_mem_follow (f : FromClause) (js : List TableJoin) (h : r ∈ rows) :
    ∃ more, r ++ more ∈ e.follow f js rows := by
  induction js generalizing f rows r with
  | nil => exact ⟨[], by rwa [List.append_nil]⟩
  | cons j js ih =>
      obtain ⟨r', hr'⟩ := List.exists_mem_of_ne_nil _ (extend_ne_nil (e := e) f j r)
      obtain ⟨x, rfl⟩ := mem_extend hr'
      obtain ⟨more, hm⟩ := ih (f.join j) (List.mem_flatMap.2 ⟨r, h, hr'⟩)
      exact ⟨x :: more, by rwa [List.append_cons]⟩

theorem follow_append (f : FromClause) (js more : List TableJoin) (rows : List (List ρ)) :
    e.follow f (js ++ more) rows = e.follow { f with joins := f.joins ++ js } more (e.follow f js rows) := by
  induction js generalizing f rows with
  | nil => rw [List.nil_append, List.append_nil, follow]
  | cons j js ih =>
      rw [List.cons_append, follow, ih, follow, FromClause.join, List.append_assoc]
      rfl

theorem joined_of_begins (h : f.Begins g) : ∃ more, e.joined g = e.follow f more (e.joined f) := by
  obtain ⟨table, name, joins⟩ := g
  obtain ⟨rfl, rfl, more, rfl⟩ := h
  exact ⟨more, follow_append ..⟩

/-- However many rows are joined to it, a row of the first table stays at the beginning. -/
theorem joined_cons (h : r ∈ e.joined f) : ∃ x ∈ (e.rows? f.table).getD [], ∃ rest, r = x :: rest := by
  obtain ⟨r', hr', more, rfl, -⟩ := append_of_mem_follow h
  obtain ⟨x, hx, rfl⟩ := List.mem_map.1 hr'
  exact ⟨x, hx, more, rfl⟩

theorem length_of_mem_joined (h : r ∈ e.joined f) : r.length = f.joins.length + 1 := by
  obtain ⟨r', hr', more, rfl, hl⟩ := append_of_mem_follow h
  obtain ⟨x, -, rfl⟩ := List.mem_map.1 hr'
  rw [List.singleton_append, List.length_cons, hl]

end Executor

end Sift.Sql
