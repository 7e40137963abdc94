import Sift.Proofs.Equality.Query
import Sift.Proofs.Query
import Sift.Proofs.Sql.Failure
import Sift.Settings

namespace Sift

structure Entity.Looks (e root : Entity) : Prop where
  table : e.table = root.table
  columns : e.columns.names = root.columns.names
  identifier : e.identifier = root.identifier

namespace Sql

def countsGroups (q : Query) (root : Entity) : Bool :=
  root.identifier.length ≠ 1 || q.havingCondition.isSome

def rootItems (q : Query) (root : Entity) : List Item :=
  match q.projection with
  | .entity => entityItems q root
  | .count => root.identifier.map (if countsGroups q root then .column q.root else .countDistinct q.root)

def isGrouped (q : Query) (root : Entity) : Bool :=
  match q.projection with
  | .entity => !q.groupBy.isEmpty || q.havingCondition.isSome
  | .count => countsGroups q root

/-- The statement of a query reads the table of its root. It selects columns of the root, and it groups by
the identifier of the root if it groups at all. -/
structure IsOn (root : Entity) (q : Query) (s : Select) : Prop where
  table : s.table = root.table
  items : s.items = rootItems q root
  groupBy : s.groupBy = if isGrouped q root then root.identifier.map fun i => (q.root, i) else []

theorem entityItems_eq {q : Query} {e root : Entity} (h : e.columns.names = root.columns.names) :
    entityItems q e = entityItems q root := by
  have hc (name : String) : e.columns.contains name = root.columns.contains name := by
    rw [Bool.eq_iff_iff, Named.contains_iff, Named.contains_iff, h]
  simp only [entityItems, Named.isEmpty_entries, hc, h]

theorem names_of_entityItems {q : Query} {e root : Entity} (hq : q.indexBy = none)
    (h : entityItems q e = entityItems q root) : e.columns.names = root.columns.names := by
  simp only [entityItems, Named.isEmpty_entries, hq, List.append_nil] at h
  have hi : Function.Injective (Item.column q.root) := by
    intro a b hab
    exact (Item.column.inj hab).2
  cases he : e.columns.names with
  | nil =>
      cases hr : root.columns.names with
      | nil => rfl
      | cons b bs => simp [he, hr] at h
  | cons a as =>
      cases hr : root.columns.names with
      | nil => simp [he, hr] at h
      | cons b bs =>
          simp only [he, hr, List.isEmpty_cons, Bool.false_eq_true, if_false] at h
          exact List.map_injective_iff.2 hi h

variable {schema : Schema} {d : Dialect} {q : Query} {s : Statement} {e root : Entity}

theorem IsOn.congr {s : Select} (h : e.Looks root) (hs : IsOn e q s) : IsOn root q s := by
  have hc : countsGroups q e = countsGroups q root := by rw [countsGroups, countsGroups, h.identifier]
  refine ⟨hs.table.trans h.table, ?_, ?_⟩
  · rw [hs.items, rootItems, rootItems, hc, h.identifier, entityItems_eq h.columns]
  · rw [hs.groupBy, isGrouped, isGrouped, hc, h.identifier]

theorem groupItems_eq (hg : q.groupBy = [] ∨ q.groupBy = e.identifier.map (.plain q.root)) :
    groupItems q e = if !q.groupBy.isEmpty || q.havingCondition.isSome then
      e.identifier.map fun i => (q.root, i) else [] := by
  rw [groupItems]
  rcases hg with hg | hg
  · simp [hg]
  · rw [hg]
    cases e.identifier <;> simp [FieldRef.plain]

theorem isOn_of_countStatement {x : Context} {base : Select} (hp : q.projection = .count)
    (ht : base.table = e.table) (hg : base.groupBy = []) (h : countStatement x q e base = .ok s) :
    IsOn e q s.select := by
  unfold countStatement at h
  split at h
  · cases h
  · rename_i identifier hi hh
    obtain rfl := Except.ok.inj h
    have hc : countsGroups q e = false := by simp [countsGroups, hi, hh]
    refine ⟨ht, ?_, ?_⟩
    · simp [rootItems, hp, hc, hi, Statement.select]
    · simp [isGrouped, hp, hc, hg, Statement.select]
  · rename_i identifiers having hn hone
    obtain ⟨having', -, h⟩ := Except.bind_eq_ok.1 h
    obtain rfl := Except.pure_eq_ok.1 h
    have hc : countsGroups q e = true := by
      rw [countsGroups, Bool.or_eq_true, decide_eq_true_eq]
      by_contra hno
      rw [not_or, not_not] at hno
      obtain ⟨identifier, hi⟩ := List.length_eq_one_iff.1 hno.1
      exact hone identifier hi (by simpa using hno.2)
    refine ⟨ht, ?_, ?_⟩
    · simp [rootItems, hp, hc, Statement.select]
    · simp [isGrouped, hp, hc, Statement.select]

/-- A query is written for the entity that the schema knows by its name. -/
theorem isOn_of_render (he : schema.entity? q.entity = some e)
    (hg : q.groupBy = [] ∨ q.groupBy = e.identifier.map (.plain q.root))
    (h : render schema d q = .ok s) : IsOn e q s.select := by
  cases hp : q.projection with
  | entity =>
      obtain ⟨e', sources, joins, filter, having, hr, -, rfl⟩ := rows_of_render hp h
      obtain rfl : e' = e := Option.some.inj (hr.found.symm.trans he)
      refine ⟨rfl, by simp only [rootItems, hp]; rfl, ?_⟩
      simp only [isGrouped, hp]
      exact groupItems_eq hg
  | count =>
      obtain ⟨e', sources, joins, filter, hr, h⟩ := count_of_render hp h
      obtain rfl : e' = e := Option.some.inj (hr.found.symm.trans he)
      exact isOn_of_countStatement hp rfl rfl h

end Sql

namespace Catalog

inductive Compiled (c : Catalog) : Query → Prop where
  | plan (criteria : Criteria) (order : OrderBy) (projection : Projection) (limit offset : Option Nat)
      {q : Query} (h : Query.compile c criteria order projection limit offset = .ok q) : Compiled c q
  | equality (filter : EqualityFilter) (order : OrderBy) (limit offset : Option Nat)
      (projection : Projection) : Compiled c (filter.toQuery c.root order limit offset projection)

variable {c : Catalog} {q : Query}

theorem Compiled.entity (h : c.Compiled q) : q.entity = c.root.name := by
  cases h with
  | plan criteria order projection limit offset h =>
      obtain ⟨p, -, hq⟩ := Except.bind_eq_ok.1 h
      obtain ⟨w, v, -, -, rfl⟩ := Plan.assemble_eq_ok hq
      rw [Query.foldl_addSelectable Query.entity fun q s => by rw [Query.addSelectable_eq]]
      rfl
  | equality filter order limit offset projection =>
      rw [EqualityFilter.toQuery_eq]
      rfl

theorem Compiled.groupBy (h : c.Compiled q) :
    q.groupBy = [] ∨ q.groupBy = c.root.identifier.map (.plain q.root) := by
  cases h with
  | plan criteria order projection limit offset h =>
      obtain ⟨p, -, hq⟩ := Except.bind_eq_ok.1 h
      obtain ⟨w, v, -, -, rfl⟩ := Plan.assemble_eq_ok hq
      rw [Query.foldl_addSelectable Query.groupBy fun q s => by rw [Query.addSelectable_eq],
        Query.foldl_addSelectable Query.root fun q s => by rw [Query.addSelectable_eq]]
      simp only [Plan.assembled]
      split
      · exact .inr rfl
      · exact .inl rfl
  | equality filter order limit offset projection =>
      rw [EqualityFilter.toQuery_eq]
      exact .inl rfl

/-- Whatever is compiled is written for the root itself, unless something else is unknown. -/
def RendersRoot (c : Catalog) : Prop :=
  ∀ q, c.Compiled q → ∀ d, Sql.render c.schema d q ≠ .error (.unknownEntity c.root.name) ∧
    ∀ s, Sql.render c.schema d q = .ok s → Sql.IsOn c.root q s.select

theorem rendersRoot_of_looks {e : Entity} (he : c.schema.entity? c.root.name = some e)
    (hl : e.Looks c.root) : c.RendersRoot := by
  intro q hq d
  constructor
  · intro h
    have hn : c.schema.entity? c.root.name = none := Sql.failsWith_render c.schema d q _ h
    rw [he] at hn
    cases hn
  · intro s hs
    rw [← hq.entity] at he
    have hg := hq.groupBy
    rw [← hl.identifier] at hg
    exact (Sql.isOn_of_render he hg hs).congr hl

/-- All rows of the root. -/
theorem compiled_all (c : Catalog) : c.Compiled (.select c.root.name rootSource none) :=
  .plan [] [] .entity none none rfl

/-- The groups of rows of the root for which there is no count. -/
theorem compiled_groups (c : Catalog) : c.Compiled { Query.select c.root.name rootSource none with
    havingCondition := some (.isNull ⟨rootSource, "id", some "COUNT(%s)"⟩) } :=
  .plan [.criterion { Criterion.plain "id" .null with groupFunction := some "COUNT(%s)" }] [] .entity none
    none rfl

/-- What is written for `e` and for the root shows what they share. -/
theorem isOn_both (h : c.RendersRoot) {e : Entity} (he : c.schema.entity? c.root.name = some e)
    (hq : c.Compiled q) (hg : q.groupBy = []) {d : Sql.Dialect}
    (hs : ∃ s, Sql.render c.schema d q = .ok s) : ∃ s, Sql.IsOn e q s ∧ Sql.IsOn c.root q s := by
  obtain ⟨s, hs⟩ := hs
  rw [← hq.entity] at he
  exact ⟨s.select, Sql.isOn_of_render he (.inl hg) hs, (h q hq d).2 s hs⟩

theorem looks_of_rendersRoot (h : c.RendersRoot) :
    ∃ e, c.schema.entity? c.root.name = some e ∧ e.Looks c.root := by
  cases he : c.schema.entity? c.root.name with
  | none =>
      have hr : c.schema.require c.root.name = .error (.unknownEntity c.root.name) := by
        rw [Schema.require, he]
      refine absurd ?_ (h _ c.compiled_all .sqlite).1
      rw [Sql.render, Query.select, hr]
      rfl
  | some e =>
      have hr : c.schema.require c.root.name = .ok e := Schema.require_eq_ok.2 he
      obtain ⟨s, hl, hc⟩ := isOn_both (d := .sqlite) h he c.compiled_all rfl (by
        rw [Sql.render, Query.select, hr]
        exact ⟨_, rfl⟩)
      obtain ⟨t, hl', hc'⟩ := isOn_both (d := .sqlite) h he c.compiled_groups rfl (by
        rw [Sql.render, Query.select, hr]
        exact ⟨_, rfl⟩)
      -- all rows show the table and the columns, groups show the identifier
      refine ⟨e, rfl, hl.table.symm.trans hc.table, ?_, ?_⟩
      · apply Sql.names_of_entityItems (q := .select c.root.name rootSource none) rfl
        exact hl.items.symm.trans hc.items
      · have hi : Function.Injective fun i : String => (rootSource, i) := by
          intro a b hab
          exact (Prod.mk.inj hab).2
        exact List.map_injective_iff.2 hi (hl'.groupBy.symm.trans hc'.groupBy)

/-- Whatever is compiled for a root is written for it if and only if the schema knows an entity by the name
of the root that has its table, its columns and its identifier. So it is for a root whose key is its name. -/
theorem rendersRoot_iff {key : String} (hk : c.schema.require key = .ok c.root) :
    (c.RendersRoot ↔ ∃ e, c.schema.entity? c.root.name = some e ∧ e.Looks c.root) ∧
      (c.root.name = key → c.RendersRoot) := by
  refine ⟨⟨looks_of_rendersRoot, ?_⟩, ?_⟩
  · rintro ⟨e, he, hl⟩
    exact rendersRoot_of_looks he hl
  · rintro rfl
    exact rendersRoot_of_looks (Schema.require_eq_ok.1 hk) ⟨rfl, rfl, rfl⟩

theorem rendersRoot_iff_musicians :
    Catalog.musicians.schema.require "Musician" = .ok Catalog.musicians.root ∧
      Catalog.musicians.RendersRoot :=
  ⟨rfl, (rendersRoot_iff rfl).2 rfl⟩

theorem sorted_of_increasing {members : List (String × Json)}
    (h : (members.map Prod.fst).Pairwise (· < ·)) : Toml.sorted members = members := by
  apply List.mergeSort_of_pairwise
  rw [List.pairwise_map] at h
  apply h.imp
  intro a b hab
  rw [decide_eq_true hab]
  rfl

/-- A band, a duo and a solo artist, who are known by other names than their keys. The artist has the name of
the band. -/
def pseudonyms : String :=
  "[entities.Band]\ntable = \"bands\"\n" ++ "[entities.Duo]\nname = \"Pair\"\ntable = \"duos\"\n" ++
    "[entities.Solo]\nname = \"Band\"\ntable = \"solos\"\n"

def bare (name table : String) : Entity := ⟨name, table, Entity.defaultIdentifier, Named.empty, Named.empty⟩

def ofPseudonyms : Schema :=
  ⟨Named.ofList [("Band", bare "Band" "bands"), ("Duo", bare "Pair" "duos"), ("Solo", bare "Band" "solos")]⟩

set_option maxRecDepth 2000 in
theorem ofText_pseudonyms : Settings.ofText Schema.decode pseudonyms = .ok ofPseudonyms := by
  let text (name s : String) : String × Toml.Node := (name, .closed (.text s))
  have hs : ((Toml.scan .between [] (Toml.skipByteOrder pseudonyms.toList)).bind fun tokens =>
      tokens.foldlM Toml.State.feed Toml.State.start) = some ⟨[("entities", .table .implied [
        ("Band", .table .header [text "table" "bands"]),
        ("Duo", .table .header [text "name" "Pair", text "table" "duos"]),
        ("Solo", .table .header [text "name" "Band", text "table" "solos"])])],
      ["entities", "Solo"], [], .line⟩ := rfl
  -- all but the sorting of tables evaluates
  have h1 (m : String × Json) : Toml.sorted [m] = [m] := sorted_of_increasing (List.pairwise_singleton _ m.1)
  have hf (a b : Json) : Toml.sorted [("name", a), ("table", b)] = [("name", a), ("table", b)] :=
    sorted_of_increasing (show ["name", "table"].Pairwise (· < ·) by decide)
  have he (a b c : Json) : Toml.sorted [("Band", a), ("Duo", b), ("Solo", c)] =
      [("Band", a), ("Duo", b), ("Solo", c)] :=
    sorted_of_increasing (show ["Band", "Duo", "Solo"].Pairwise (· < ·) by decide)
  have hj : Toml.ofText? pseudonyms.toList = some (.object [("entities", .object [
      ("Band", .object [("table", .text "bands")]),
      ("Duo", .object [("name", .text "Pair"), ("table", .text "duos")]),
      ("Solo", .object [("name", .text "Band"), ("table", .text "solos")])])]) := by
    rw [Toml.ofText?, hs]
    simp only [Toml.Node.toJson, Toml.membersOf, text, h1, hf, he]
  rw [Settings.ofText, hj]
  rfl

/-- A root that has the key of another entity as its name is read from the table of that entity. One whose
name is no key is not read at all. -/
theorem not_rendersRoot_pseudonyms :
    Settings.ofText Schema.decode pseudonyms = .ok ofPseudonyms ∧
      (∃ root s, ofPseudonyms.require "Solo" = .ok root ∧ ¬ RendersRoot ⟨ofPseudonyms, root⟩ ∧
        root.table = "solos" ∧
        Sql.render ofPseudonyms .sqlite (.select root.name rootSource none) = .ok s ∧
        s.select.table = "bands") ∧
      ∃ root, ofPseudonyms.require "Duo" = .ok root ∧ ¬ RendersRoot ⟨ofPseudonyms, root⟩ ∧
        Sql.render ofPseudonyms .sqlite (.select root.name rootSource none) =
          .error (.unknownEntity root.name) := by
  refine ⟨ofText_pseudonyms, ⟨_, _, rfl, ?_, rfl, rfl, rfl⟩, ⟨_, rfl, ?_, rfl⟩⟩
  · intro h
    have ht := ((h _ (compiled_all _) .sqlite).2 _ rfl).table
    revert ht
    decide
  · intro h
    exact (h _ (compiled_all _) .sqlite).1 rfl

end Catalog

end Sift
