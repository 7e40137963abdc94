import Mathlib
import Sift.Proofs.Parameters
import Sift.Proofs.Request
import Sift.Proofs.Sql.Heads
import Sift.Proofs.Sql.Lawful
import Sift.Proofs.Table.Executor

namespace Sift

namespace Record

/-- A count is read as it is, up to the greatest number that fits a word. -/
theorem count_ofTable {root : Entity} {t : Table} {k n : Nat} (hc : t.columns = [Sql.countColumn])
    (hr : t.rows = [[.ofRows k]]) (h : count (ofTable root t) = .ok n) : n = min k Number.maxWord := by
  have hw : (Int64.ofInt (min (k : Int) Number.maxWord)).toInt = min (k : Int) Number.maxWord := by
    apply Int64.toInt_ofInt_of_le <;> simp only [Number.maxWord] <;> omega
  have hg : (ofRow root [Sql.countColumn] [.ofRows k]).get? Sql.countColumn =
      some (readCell (root.typeOf? Sql.countColumn) (.ofRows k)) := rfl
  rw [ofTable, hc, hr, count, List.map_cons, List.head?_cons, Option.bind_some, hg] at h
  rw [Table.Cell.ofRows, readCell] at h
  split at h
  · rename_i i hi
    split at hi
    · cases hi
    · rw [hw, Option.some.injEq, Json.int.injEq] at hi
      split at h
      · have hn := Except.ok.inj h
        omega
      · cases h
  · cases h
  · cases h

end Record

namespace Sql

variable {run : Statement → Except SqlError Table} {c : Catalog} {q : Query} {records : List Record} {n : Nat}

theorem fetch_eq_ok (hq : q.indexBy = none) :
    fetch run c q = .ok records ↔ ∃ s t, render c.schema .sqlite q = .ok s ∧ run s = .ok t ∧
      Record.ofTable c.root t = records := by
  simp only [fetch, hq, Except.bind_eq_ok, Except.pure_eq_ok]
  constructor
  · rintro ⟨s, hs, t, ht, h⟩
    exact ⟨s, t, hs, ht, h⟩
  · rintro ⟨s, t, hs, ht, h⟩
    exact ⟨s, hs, t, ht, h⟩

theorem fetchCount_eq_ok :
    fetchCount run c q = .ok n ↔ ∃ s t, render c.schema .sqlite q = .ok s ∧ run s = .ok t ∧
      Record.count (Record.ofTable c.root t) = .ok n := by
  simp only [fetchCount, Except.bind_eq_ok]
  constructor
  · rintro ⟨s, hs, t, ht, h⟩
    exact ⟨s, t, hs, ht, h⟩
  · rintro ⟨s, t, hs, ht, h⟩
    exact ⟨s, hs, t, ht, h⟩

end Sql

namespace Repository

variable {r : Repository} {run : Sql.Statement → Except SqlError Table} {criteria : Criteria}
  {records : List Record} {n : Nat}

theorem findBy_eq_ok {order : OrderBy} {limit offset : Option Nat} :
    (r.findBy (Sql.backend run r.catalog) criteria order limit offset).run = .ok records ↔
      ∃ request, r.findRequest criteria order limit offset = .ok request ∧
        Sql.fetch run r.catalog (request.query r.catalog.root) = .ok records := by
  rw [findBy]
  cases r.findRequest criteria order limit offset with
  | error e => simp [Id.run]
  | ok request => exact Except.mapError_eq_ok.trans (by simp [Sql.backend])

theorem count_eq_ok :
    (r.count (Sql.backend run r.catalog) criteria).run = .ok n ↔
      ∃ request, r.countRequest criteria = .ok request ∧
        Sql.fetchCount run r.catalog (request.query r.catalog.root) = .ok n := by
  rw [count]
  cases r.countRequest criteria with
  | error e => simp [Id.run]
  | ok request => exact Except.mapError_eq_ok.trans (by simp [Sql.backend])

/-- The statement that finds what meets criteria, without an ordering of its own. -/
def FindsBy (r : Repository) (criteria : Criteria) (s : Sql.Statement) : Prop :=
  ∃ request, r.findRequest criteria [] none none = .ok request ∧
    Sql.render r.catalog.schema .sqlite (request.query r.catalog.root) = .ok s

def CountsBy (r : Repository) (criteria : Criteria) (s : Sql.Statement) : Prop :=
  ∃ request, r.countRequest criteria = .ok request ∧
    Sql.render r.catalog.schema .sqlite (request.query r.catalog.root) = .ok s

variable {ρ κ : Type} {e : Sql.Executor ρ κ}

/-- Ada with two albums, and Bob with none. -/
def discography : Database :=
  ⟨[("musicians", ⟨["id", "name"], [[.int 1, .text "Ada"], [.int 2, .text "Bob"]]⟩),
    ("albums", ⟨["id", "musician_id", "title", "year"],
      [[.int 1, .int 1, .text "first", .int 1990], [.int 2, .int 1, .text "second", .int 2000]]⟩)]⟩

theorem identified_discography {rows : List (List Table.Cell)}
    (h : discography.executor.rows? "musicians" = some rows) :
    discography.executor.Identified "musicians" ["id"] rows :=
  Database.identified_of_column (t := ⟨["id", "name"], [[.int 1, .text "Ada"], [.int 2, .text "Bob"]]⟩) (k := 0)
    (by cbv) (by cbv) (by decide +kernel) (by decide +kernel) h

theorem rendersRoot_artists : Catalog.artists.RendersRoot :=
  Catalog.rendersRoot_of_looks rfl ⟨rfl, rfl, rfl⟩

def byMusician (filter : Option Sql.Expr) (having : Sql.Expr) (orderBy : List (Sql.Expr × Bool)) : Sql.Select :=
  { items := [.column "main" "id", .column "main" "name"], table := "musicians", name := "main"
    joins := [⟨"albums", "albums", "musician_id", "main", "id"⟩], filter, groupBy := [("main", "id")]
    having := some having, orderBy, limit := none, offset := none }

structure Miscounts [DecidableEq κ] (r : Repository) (e : Sql.Executor ρ κ) (criteria : Criteria) : Prop where
  lawful : e.Lawful
  renders : r.catalog.RendersRoot
  identifier : r.catalog.root.identifier ≠ []
  identified : ∀ rows, e.rows? r.catalog.root.table = some rows →
    e.Identified r.catalog.root.table r.catalog.root.identifier rows
  unpaged : ∀ s, .selectable s ∈ criteria → s.firstResult = none ∧ s.maxResults = none
  differs : ∃ records n, (r.findBy (Sql.backend e.run r.catalog) criteria [] none none).run = .ok records ∧
    (r.count (Sql.backend e.run r.catalog) criteria).run = .ok n ∧ n ≠ min records.length Number.maxWord

def byTitleOfLatest : Criteria := [
  .criterion { Criterion.plain "albums.title" (.text "second") with groupFunction := some "LOWER(%s)" },
  .selectable (Selectable.empty.orderBy ⟨"albums", "year", some "MAX(%s)"⟩ .asc)]

/-- An ordering by the greatest year makes the row of the latest album stand for its musician, and its title is
found. The count looks at the title of another album. -/
theorem miscounts_byTitleOfLatest : Miscounts ⟨.artists, true⟩ discography.executor byTitleOfLatest := by
  let f := byMusician none (.compare .eq (.template "LOWER(%s)" "albums" "title") (.bound (.text "second")))
    [(.template "MAX(%s)" "albums" "year", false)]
  have hrows : Table.run discography (.rows f) = .ok ⟨["id", "name"], [[.int 1, .text "Ada"]]⟩ := by cbv
  have hcount : Table.run discography (.countOf (f.groups ["id"])) = .ok ⟨["count"], [[.int 0]]⟩ := by cbv
  refine ⟨discography.lawful_executor, rendersRoot_artists, List.cons_ne_nil _ _, fun _ => identified_discography,
    ?_, _, 0, findBy_eq_ok.2 ⟨_, rfl, (Sql.fetch_eq_ok rfl).2 ⟨.rows f, _, rfl, hrows, rfl⟩⟩,
    count_eq_ok.2 ⟨_, rfl, Sql.fetchCount_eq_ok.2 ⟨.countOf (f.groups ["id"]), _, rfl, hcount, rfl⟩⟩,
    (by decide : 0 ≠ min 1 Number.maxWord)⟩
  intro s hs
  obtain rfl : s = Selectable.empty.orderBy ⟨"albums", "year", some "MAX(%s)"⟩ .asc := by
    simpa [byTitleOfLatest] using hs
  exact ⟨rfl, rfl⟩

def forCount (s : Sql.Statement) : Bool := s.select.items.any Sql.Item.isCount

def coin (s : Sql.Statement) : Sql.Bound := .int (if forCount s then 0 else 1)

def byCoin : Criteria := [.criterion { Criterion.plain "name" (.int 1) with sqlFunction := some "RANDOM() > 0" }]

/-- What is drawn for the count is not what is drawn for the records. -/
theorem miscounts_byCoin : Miscounts ⟨.artists, true⟩ (discography.executor.redraw "RANDOM() > 0" coin) byCoin := by
  let f : Sql.Select :=
    { items := [.column "main" "id", .column "main" "name"], table := "musicians", name := "main", joins := []
      filter := some (.compare .eq (.template "RANDOM() > 0" "main" "name") (.bound (.int 1)))
      groupBy := [], having := none, orderBy := [], limit := none, offset := none }
  have hrows : Table.run discography (Sql.Executor.drawn "RANDOM() > 0" coin (.rows f)) =
      .ok ⟨["id", "name"], [[.int 1, .text "Ada"], [.int 2, .text "Bob"]]⟩ := by cbv
  have hcount : Table.run discography (Sql.Executor.drawn "RANDOM() > 0" coin (.rows (f.distinct "id"))) =
      .ok ⟨["count"], [[.int 0]]⟩ := by cbv
  exact ⟨discography.lawful_executor.redraw _ _, rendersRoot_artists, List.cons_ne_nil _ _,
    fun _ hr => ⟨(identified_discography hr).present, (identified_discography hr).unique⟩, by simp [byCoin],
    _, 0, findBy_eq_ok.2 ⟨_, rfl, (Sql.fetch_eq_ok rfl).2 ⟨.rows f, _, rfl, hrows, rfl⟩⟩,
    count_eq_ok.2 ⟨_, rfl, Sql.fetchCount_eq_ok.2 ⟨.rows (f.distinct "id"), _, rfl, hcount, rfl⟩⟩,
    (by decide : 0 ≠ min 2 Number.maxWord)⟩

def cutShort (s : Sql.Statement) : Except SqlError Table := .ok
  (if forCount s then ⟨["count"], [[.int 1]]⟩
    else ⟨["id", "name"], [[.int 1, .text "Ada"], [.int 1, .text "Ada"]]⟩)

def byComment : Criteria :=
  [.criterion { Criterion.plain "albums.year" (.int 1990) with sqlFunction := some "%s) >= ? --" }]

/-- A text that is no expression makes a comment of what comes after it, so that nothing is grouped. -/
theorem miscounts_byComment :
    Miscounts ⟨.artists, true⟩ (discography.executor.answering "\"albums\".\"year\") >= ? --" cutShort) byComment := by
  let f : Sql.Select :=
    { items := [.column "main" "id", .column "main" "name"], table := "musicians", name := "main"
      joins := [⟨"albums", "albums", "musician_id", "main", "id"⟩]
      filter := some (.compare .eq (.template "%s) >= ? --" "albums" "year") (.bound (.int 1990)))
      groupBy := [("main", "id")], having := none, orderBy := [], limit := none, offset := none }
  refine ⟨discography.lawful_executor.answering _ _, rendersRoot_artists, List.cons_ne_nil _ _,
    fun _ hr => ⟨(identified_discography hr).present, (identified_discography hr).unique⟩, by simp [byComment],
    _, 1, findBy_eq_ok.2 ⟨_, rfl, (Sql.fetch_eq_ok rfl).2 ⟨.rows f, _, rfl, Sql.Executor.run_answering ?_, rfl⟩⟩,
    count_eq_ok.2 ⟨_, rfl, Sql.fetchCount_eq_ok.2
      ⟨.rows (f.distinct "id"), _, rfl, Sql.Executor.run_answering ?_, rfl⟩⟩,
    (by decide : 1 ≠ min 2 Number.maxWord)⟩ <;> decide +kernel

end Repository

end Sift
