import Sift.Proofs.Count
import Sift.Proofs.Path.Further

namespace Sift

def Entity.player : Entity :=
  { Entity.artist with
    associations := Named.ofList [("albums", .toMany "Album" "musician_id"), ("band", .toOne "Band" "band_id")] }

def Entity.group : Entity :=
  ⟨"Band", "bands", ["bid"], Named.ofList [("bid", .integer), ("title", .string), ("founded", .integer)],
    Named.empty⟩

def Catalog.players : Catalog :=
  ⟨((Schema.empty.add "Musician" .player).add "Album" .album).add "Band" .group, .player⟩

def Entity.soloist : Entity :=
  ⟨"Musician", "musicians", ["id"], Named.empty, Named.ofList [("MAIN", .toOne "Band" "id")]⟩

def Catalog.soloists : Catalog := ⟨(Schema.empty.add "Musician" .soloist).add "Band" .group, .soloist⟩

namespace Catalog

variable {c : Catalog} {criteria : Criteria} {first order order' : OrderBy} {q q' : Query} {s : Sql.Statement}

structure Sorts (c : Catalog) (criteria : Criteria) (order : OrderBy) (q : Query) : Prop where
  sorts : ∀ e ∈ order, e.2 ≠ .index
  compiled : ∃ p, Plan.prepare c criteria order = .ok p ∧ p.assemble c .entity none none = .ok q ∧ p.Apart order

/-- What sorts by keys has no templates. -/
theorem templates_orderItems {p : Plan} (h : Plan.prepare c criteria order = .ok p) (w v : Option Condition) :
    ∀ x ∈ Sql.orderItems (p.assembled c .entity none none w v), x.1.templates = [] := by
  obtain ⟨-, -, -, -, -, -, ho, -⟩ := Plan.prepare_eq_ok h
  rw [Sql.orderItems, Plan.assembled, ho, Resolution.orderBy_resolve]
  intro x hx
  obtain ⟨y, hy, rfl⟩ := List.mem_map.1 hx
  obtain ⟨e, -, rfl⟩ := List.mem_map.1 (List.mem_of_mem_filter hy)
  simp only [Path.qualify]
  split <;> rfl

/-- What is written for criteria without aggregates shows the root. -/
theorem Sorts.shows (h : c.Sorts criteria order q) (hroot : c.RendersRoot)
    (hs : ∀ e ∈ criteria, e.selectable? = none)
    (ha : ∀ classes, Classes.ofCriteria criteria = .ok classes → ∀ t ∈ classes.terms, t.isAggregate = false)
    (hr : Sql.render c.schema .sqlite q = .ok s) :
    ∃ f, s = .rows f ∧ Sql.ShowsRoot c.root f ∧ ∀ x ∈ f.orderBy, x.1.templates = [] := by
  obtain ⟨p, hp, hq, hapart⟩ := h.compiled
  obtain ⟨w, v, -, hv, rfl⟩ := Plan.assemble_eq_assembled hs hp hq
  have hfinds := Plan.finds_assembled hp h.sorts w v
  have hv : v = none := by
    obtain ⟨classes, hc, -, -, hh, -⟩ := Plan.prepare_eq_ok hp
    rw [hh, Classes.havingTerms_eq_nil hc (ha classes hc)] at hv
    exact (Except.ok.inj hv).symm
  obtain ⟨e, he, hl⟩ := looks_of_rendersRoot hroot
  have hg := hfinds.groupBy
  rw [← hl.identifier] at hg
  rw [← hfinds.entity] at he
  obtain ⟨f, hf, htable, hlists⟩ := Sql.lists_of_render hfinds.projection he hg rfl rfl hr
  obtain ⟨e', sources, joins, filter, having, hreads, hh, hs⟩ := Sql.rows_of_render hfinds.projection hr
  obtain rfl : e' = e := Option.some.inj (hreads.found.symm.trans he)
  obtain rfl := Sql.Statement.rows.inj (hf.symm.trans hs)
  rw [hl.identifier] at hlists
  refine ⟨_, hf, ⟨htable.trans hl.table, rfl, ?_, hlists, (Sql.expr?_eq_none hh).2 hv, ?_⟩,
    templates_orderItems hp w v⟩
  · exact (Sql.entityItems_eq hl.columns).trans (Sql.entityItems_eq_shownItems hfinds.indexBy c.root)
  · apply Sql.sameName_of_addJoins hreads.joined
    intro j hj
    obtain ⟨step, hstep, rfl⟩ := List.mem_map.1 hj
    exact hapart.sameName hp hstep

variable {ρ κ : Type} {e : Sql.Executor ρ κ} {filter : Option Sql.Expr} {clause : Sql.FromClause}
  {records records' : List Record}

/-- Criteria read the tables that they and some keys join, and no others. What their templates make of them is the
same whenever it is asked for. -/
structure Reads (c : Catalog) (e : Sql.Executor ρ κ) (criteria : Criteria) (order : OrderBy)
    (clause : Sql.FromClause) (filter : Option Sql.Expr) : Prop where
  written : ∃ q s, Query.compile c criteria order .entity none none = .ok q ∧
    Sql.render c.schema .sqlite q = .ok s ∧ s.select.fromClause = clause ∧ s.select.filter = filter
  knows : ∀ x ∈ filter, e.knows clause x
  deterministic : ∀ x ∈ filter, e.IsDeterministic x
  expressions : ∀ x ∈ filter, ∀ text ∈ x.templates, e.isExpression text

/-- Whatever is joined for later keys, a query shows the root by the same filter. -/
theorem Sorts.runs (h : c.Sorts criteria order q) (hroot : c.RendersRoot)
    (hs : ∀ e ∈ criteria, e.selectable? = none)
    (ha : ∀ classes, Classes.ofCriteria criteria = .ok classes → ∀ t ∈ classes.terms, t.isAggregate = false)
    (hr : c.Reads e criteria first clause filter) (hk : first.map Prod.fst <+: order.map Prod.fst)
    (hf : Sql.fetch e.run c q = .ok records) :
    ∃ f t, e.Runs (.rows f) t ∧ Sql.ShowsRoot c.root f ∧ clause.Begins f.fromClause ∧ f.filter = filter ∧
      Record.ofTable c.root t = records := by
  obtain ⟨q₀, s₀, hq₀, hs₀, rfl, rfl⟩ := hr.written
  obtain ⟨p₀, hp₀, hq₀⟩ := Except.bind_eq_ok.1 hq₀
  obtain ⟨p, hp, hq, hapart⟩ := h.compiled
  have hwidens := Plan.Further.widens ⟨hp₀, hp, hk, hapart⟩ hs hq₀ hq
  obtain ⟨w, v, -, -, he⟩ := Plan.assemble_eq_assembled hs hp hq
  obtain ⟨w₀, v₀, -, -, he₀⟩ := Plan.assemble_eq_assembled hs hp₀ hq₀
  have hindex : q.indexBy = none := he ▸ (Plan.finds_assembled hp h.sorts w v).indexBy
  obtain ⟨s, t, hrender, hrun, hrecords⟩ := (Sql.fetch_eq_ok hindex).1 hf
  obtain ⟨f, rfl, hshows, horder⟩ := h.shows hroot hs ha hrender
  obtain ⟨hbegins, hfilter⟩ := Sql.begins_of_render (by rw [he₀]; rfl) (by rw [he]; rfl) hwidens hs₀ hrender
  refine ⟨f, t, ⟨hrun, fun x hx text ht => ?_⟩, hshows, hbegins, hfilter, hrecords⟩
  simp only [Sql.Select.exprs, Sql.Statement.select, hshows.having, List.mem_append, Option.mem_toList,
    List.mem_map] at hx
  rcases hx with (hx | hx) | ⟨y, hy, rfl⟩
  · exact hr.expressions x (hfilter ▸ hx) text ht
  · cases hx
  · rw [horder y hy] at ht
    cases ht

/-- Ada has two albums and is in a band, Bob has neither. -/
def lineup : Database :=
  ⟨[("musicians", ⟨["id", "name", "band_id"], [[.int 1, .text "Ada", .int 1], [.int 2, .text "Bob", .null]]⟩),
    ("albums", ⟨["id", "musician_id", "title", "year"],
      [[.int 1, .int 1, .text "first", .int 1990], [.int 2, .int 1, .text "second", .int 2000]]⟩),
    ("bands", ⟨["bid", "title", "founded"], [[.int 1, .text "Reds", .int 1980]]⟩)]⟩

theorem identified_lineup {rows : List (List Table.Cell)} (h : lineup.executor.rows? "musicians" = some rows) :
    lineup.executor.Identified "musicians" ["id"] rows :=
  Database.identified_of_column (k := 0)
    (t := ⟨["id", "name", "band_id"], [[.int 1, .text "Ada", .int 1], [.int 2, .text "Bob", .null]]⟩)
    (by cbv) (by cbv) (by decide +kernel) (by decide +kernel) h

def byTemplate (template : String) (v : Value) (joins : List Join) (fields : List FieldRef) : Query :=
  { Query.select "Musician" rootSource none with
    joins, groupBy := if joins.isEmpty then [] else [.plain rootSource "id"]
    whereCondition := some (.compare ⟨rootSource, "name", some template⟩ .eq "main_name_0")
    parameters := Named.empty.put "main_name_0" ⟨v, none⟩, orderBy := fields.map (·, .asc) }

def byTemplateRows (template : String) (v : Sql.Bound) (joins : List Sql.TableJoin) (fields : List Sql.Expr) :
    Sql.Select :=
  { items := [.column "main" "id", .column "main" "name"], table := "musicians", name := "main", joins
    filter := some (.compare .eq (.template template "main" "name") (.bound v))
    groupBy := if joins.isEmpty then [] else [("main", "id")]
    having := none, orderBy := fields.map (·, false), limit := none, offset := none }

def albumJoin : Join := ⟨"main", "albums", "albums", some "Album", none⟩

def bandJoin : Join := ⟨"main", "band", "band", some "Band", none⟩

def albumTable : Sql.TableJoin := ⟨"albums", "albums", "musician_id", "main", "id"⟩

def bandTable : Sql.TableJoin := ⟨"bands", "band", "bid", "main", "band_id"⟩

structure Disagrees [DecidableEq κ] (c : Catalog) (e : Sql.Executor ρ κ) (criteria : Criteria)
    (order order' : OrderBy) : Prop where
  lawful : e.Lawful
  renders : c.RendersRoot
  identifier : c.root.identifier ≠ []
  identified : ∀ rows, e.rows? c.root.table = some rows → e.Identified c.root.table c.root.identifier rows
  own : ∀ e ∈ criteria, e.selectable? = none
  single : ∀ classes, Classes.ofCriteria criteria = .ok classes → ∀ t ∈ classes.terms, t.isAggregate = false
  sorts : ∀ k ∈ order ++ order', k.2 ≠ .index
  apart : ∀ o ∈ [order, order'], ∀ p, Plan.prepare c criteria o = .ok p →
    ∀ path ∈ p.paths o, (Path.associations path).head? ≠ some rootSource
  differs : ∃ q q' records records', Query.compile c criteria order .entity none none = .ok q ∧
    Query.compile c criteria order' .entity none none = .ok q' ∧ Sql.fetch e.run c q = .ok records ∧
    Sql.fetch e.run c q' = .ok records' ∧ ¬ records.Perm records'

theorem paths_of_prepare {p : Plan} {classes : Classes} (h : Plan.prepare c criteria order = .ok p)
    (hc : Classes.ofCriteria criteria = .ok classes) :
    p.paths order = classes.terms.map Criterion.field ++ order.map Prod.fst := by
  obtain ⟨classes', hc', -, hw, hh, -⟩ := Plan.prepare_eq_ok h
  obtain rfl := Except.ok.inj (hc.symm.trans hc')
  rw [Plan.paths, Plan.terms, hw, hh]
  rfl

theorem rendersRoot_players : Catalog.players.RendersRoot := rendersRoot_of_looks rfl ⟨rfl, rfl, rfl⟩

def asking (template : String) : Criteria :=
  [.criterion { Criterion.plain "name" (.text "first") with sqlFunction := some template }]

def byAlbums (template : String) : Sql.Statement :=
  .rows (byTemplateRows template (.text "first") [albumTable] [.column "albums" "year"])

def byBands (template : String) : Sql.Statement :=
  .rows (byTemplateRows template (.text "first") [bandTable] [.column "band" "founded"])

section

variable {e : Sql.Executor (List Table.Cell) Table.Key} {template : String} {t t' : Table}

theorem disagrees_asking (hl : e.Lawful) (hr : e.rows? = lineup.executor.rows?) (hk : e.key? = lineup.executor.key?)
    (hrun : e.run (byAlbums template) = .ok t) (hrun' : e.run (byBands template) = .ok t')
    (hn : t.rows.length ≠ t'.rows.length) :
    players.Disagrees e (asking template) [("albums.year", .asc)] [("band.founded", .asc)] := by
  have hq : Query.compile players (asking template) [("albums.year", .asc)] .entity none none =
      .ok (byTemplate template (.text "first") [albumJoin] [.plain "albums" "year"]) := by cbv
  have hq' : Query.compile players (asking template) [("band.founded", .asc)] .entity none none =
      .ok (byTemplate template (.text "first") [bandJoin] [.plain "band" "founded"]) := by cbv
  have hs : Sql.render players.schema .sqlite
      (byTemplate template (.text "first") [albumJoin] [.plain "albums" "year"]) = .ok (byAlbums template) := rfl
  have hs' : Sql.render players.schema .sqlite
      (byTemplate template (.text "first") [bandJoin] [.plain "band" "founded"]) = .ok (byBands template) := rfl
  refine ⟨hl, rendersRoot_players, List.cons_ne_nil _ _, fun rows hrows => ?_, by simp [asking, Entry.selectable?],
    ?_, by decide, ?_, _, _, _, _, hq, hq', (Sql.fetch_eq_ok rfl).2 ⟨_, t, hs, hrun, rfl⟩,
    (Sql.fetch_eq_ok rfl).2 ⟨_, t', hs', hrun', rfl⟩, ?_⟩
  · have hi := identified_lineup (hr ▸ hrows)
    constructor
    · rw [hk]
      exact hi.present
    · rw [hk]
      exact hi.unique
  · intro classes hc
    obtain rfl := Except.ok.inj hc
    rintro t ht
    obtain rfl := List.mem_singleton.1 ht
    rfl
  · intro o ho p hp
    have hpaths : p.paths o = "name" :: o.map Prod.fst := paths_of_prepare hp rfl
    rw [hpaths]
    clear hpaths hp
    revert o
    decide +kernel
  · intro h
    exact hn (by simpa [Record.ofTable] using h.length_eq)

end

/-- A template names a column of a table that only the ordering joins, which may be one table or another. -/
theorem disagrees_title :
    players.Disagrees lineup.executor (asking "LOWER(title)") [("albums.year", .asc)] [("band.founded", .asc)] := by
  have hrun : Table.run lineup (byAlbums "LOWER(title)") = .ok ⟨["id", "name"], [[.int 1, .text "Ada"]]⟩ := by cbv
  have hrun' : Table.run lineup (byBands "LOWER(title)") = .ok ⟨["id", "name"], []⟩ := by cbv
  exact disagrees_asking lineup.lawful_executor rfl rfl hrun hrun' (by decide)

def isByAlbums (s : Sql.Statement) : Bool := s.select.joins = [albumTable]

def lot (s : Sql.Statement) : Sql.Bound := .text (if isByAlbums s then "first" else "last")

theorem disagrees_lot :
    players.Disagrees (lineup.executor.redraw "IIF(RANDOM() > 0, 'first', 'last')" lot)
      (asking "IIF(RANDOM() > 0, 'first', 'last')") [("albums.year", .asc)] [("band.founded", .asc)] := by
  let drawn := Sql.Executor.drawn "IIF(RANDOM() > 0, 'first', 'last')" lot
  have hrun : Table.run lineup (drawn (byAlbums "IIF(RANDOM() > 0, 'first', 'last')")) =
      .ok ⟨["id", "name"], [[.int 2, .text "Bob"], [.int 1, .text "Ada"]]⟩ := by cbv
  have hrun' : Table.run lineup (drawn (byBands "IIF(RANDOM() > 0, 'first', 'last')")) = .ok ⟨["id", "name"], []⟩ := by
    cbv
  exact disagrees_asking (lineup.lawful_executor.redraw _ _) rfl rfl hrun hrun' (by decide)

def ungrouped (s : Sql.Statement) : Except SqlError Table := .ok
  ⟨["id", "name"], [.int 2, .text "Bob"] ::
    if isByAlbums s then [[.int 1, .text "Ada"], [.int 1, .text "Ada"]] else [[.int 1, .text "Ada"]]⟩

/-- A text that is no expression makes a comment of what comes after it, so that the albums are not grouped. -/
theorem disagrees_ungrouped :
    players.Disagrees (lineup.executor.answering "\"main\".\"name\") <> ? --" ungrouped) (asking "%s) <> ? --")
      [("albums.year", .asc)] [("band.founded", .asc)] :=
  disagrees_asking (lineup.lawful_executor.answering _ _) rfl rfl (Sql.Executor.run_answering (by decide +kernel))
    (Sql.Executor.run_answering (by decide +kernel)) (by decide)

def solo : Database := ⟨[("musicians", ⟨["id"], [[.int 1]]⟩), ("bands", ⟨["bid"], [[.int 1]]⟩)]⟩

def soloRows : Sql.Select :=
  ⟨[.allOf "main"], "musicians", "main", [⟨"bands", "MAIN", "bid", "main", "id"⟩], none, [("main", "id")], none,
    [(.column "MAIN" "bid", false)], none, none⟩

open Table (sameName sameName_refl) in
theorem run_soloRows : Table.run solo (.rows soloRows) = .ok ⟨["id", "bid"], [[.int 1, .int 1]]⟩ := by
  let tables : List (String × Table) := [("main", ⟨["id"], [[.int 1]]⟩), ("MAIN", ⟨["bid"], [[.int 1]]⟩)]
  let x : Table.Scope := ⟨solo, tables.map fun t => ⟨t.1, t.2.columns⟩⟩
  -- either name stands for both tables
  have hm : sameName "MAIN" "main" = true := by cbv
  have hm' : sameName "main" "MAIN" = true := by cbv
  have hc (name : String) (hn : sameName "main" name = true) (hn' : sameName "MAIN" name = true) :
      x.candidates (some name) = [(⟨"main", ["id"]⟩, 0), (⟨"MAIN", ["bid"]⟩, 1)] := by
    simp [x, tables, Table.Scope.candidates, hn, hn']
  have hid : x.slot (some "main") "id" = .ok ⟨0, 0⟩ := by
    rw [Table.Scope.slot, hc _ (sameName_refl _) hm]
    cbv
  have hbid : x.slot (some "main") "bid" = .ok ⟨1, 0⟩ := by
    rw [Table.Scope.slot, hc _ (sameName_refl _) hm]
    cbv
  have hbid' : x.slot (some "MAIN") "bid" = .ok ⟨1, 0⟩ := by
    rw [Table.Scope.slot, hc _ hm' (sameName_refl _)]
    cbv
  have hl : Table.linksOf x tables soloRows.joins = .ok [⟨[[.int 1]], ⟨1, 0⟩, ⟨0, 0⟩⟩] :=
    Except.mapM_eq_ok.2 (.cons (Except.bind_eq_ok.2 ⟨_, hbid', Except.bind_eq_ok.2 ⟨_, hid, rfl⟩⟩) .nil)
  have hg : soloRows.groupBy.mapM (fun i => x.slot (some i.1) i.2) = .ok [⟨0, 0⟩] :=
    Except.mapM_eq_ok.2 (.cons hid .nil)
  have ho : soloRows.orderBy.mapM (fun e => do return (← x.term true e.1, e.2)) =
      .ok [(.slot ⟨1, 0⟩, false)] :=
    Except.mapM_eq_ok.2 (.cons (Except.bind_eq_ok.2 ⟨_, Except.map_eq_ok.2 ⟨_, hbid', rfl⟩, rfl⟩) .nil)
  have hs : soloRows.items.mapM (Table.outputsOf x) = .ok [[⟨"id", .slot ⟨0, 0⟩⟩, ⟨"bid", .slot ⟨1, 0⟩⟩]] := by
    refine Except.mapM_eq_ok.2 (.cons ?_ .nil)
    rw [Table.outputsOf, hc _ (sameName_refl _) hm]
    exact Except.mapM_eq_ok.2 (.cons (Except.bind_eq_ok.2 ⟨_, hid, rfl⟩)
      (.cons (Except.bind_eq_ok.2 ⟨_, hbid, rfl⟩) .nil))
  have ht : Table.sourceTables solo soloRows.fromClause = .ok tables := by cbv
  have hp : Table.Program.ofSelect solo soloRows = .ok _ :=
    Except.bind_eq_ok.2 ⟨_, ht, Except.bind_eq_ok.2 ⟨_, hl, Except.bind_eq_ok.2 ⟨none, rfl,
      Except.bind_eq_ok.2 ⟨_, hg, Except.bind_eq_ok.2 ⟨none, rfl, Except.bind_eq_ok.2 ⟨_, ho,
        Except.bind_eq_ok.2 ⟨_, hs, rfl⟩⟩⟩⟩⟩⟩⟩
  exact Except.bind_eq_ok.2 ⟨_, hp, by cbv⟩

/-- What is joined by a name that only the case of letters tells from that of the root is shown with the root. -/
theorem disagrees_solo : soloists.Disagrees solo.executor [] [("id", .asc)] [("MAIN.bid", .asc)] := by
  let q : Query := { Query.select "Musician" rootSource none with orderBy := [(.plain rootSource "id", .asc)] }
  let q' : Query := { Query.select "Musician" rootSource none with
    joins := [⟨"main", "MAIN", "MAIN", some "Band", none⟩], groupBy := [.plain rootSource "id"]
    orderBy := [(.plain "MAIN" "bid", .asc)] }
  let f : Sql.Select :=
    ⟨[.allOf "main"], "musicians", "main", [], none, [], none, [(.column "main" "id", false)], none, none⟩
  have hrun : Table.run solo (.rows f) = .ok ⟨["id"], [[.int 1]]⟩ := by cbv
  have hq : Query.compile soloists [] [("id", .asc)] .entity none none = .ok q := by cbv
  have hq' : Query.compile soloists [] [("MAIN.bid", .asc)] .entity none none = .ok q' := by cbv
  refine ⟨solo.lawful_executor, rendersRoot_of_looks rfl ⟨rfl, rfl, rfl⟩, List.cons_ne_nil _ _, fun _ =>
    Database.identified_of_column (t := ⟨["id"], [[.int 1]]⟩) (k := 0) (by cbv) (by cbv) (by decide +kernel)
      (by decide +kernel), List.forall_mem_nil _, ?_, by decide, ?_, _, _, _, _, hq, hq',
    (Sql.fetch_eq_ok rfl).2 ⟨.rows f, _, rfl, hrun, rfl⟩,
    (Sql.fetch_eq_ok rfl).2 ⟨.rows soloRows, _, rfl, run_soloRows, rfl⟩, ?_⟩
  · intro classes hc
    obtain rfl := Except.ok.inj hc
    exact List.forall_mem_nil _
  · intro o ho p hp
    have hpaths : p.paths o = o.map Prod.fst := paths_of_prepare hp rfl
    rw [hpaths]
    clear hpaths hp
    revert o
    decide +kernel
  · intro h
    have hsizes := h.map Named.size
    revert hsizes
    decide +kernel

end Catalog

end Sift
