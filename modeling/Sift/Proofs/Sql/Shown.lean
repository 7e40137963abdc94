import Sift.Proofs.Sql.Heads
import Sift.Record

namespace Sift.Sql

def shownItems (name : String) (root : Entity) : List Item :=
  if root.columns.entries.isEmpty then [.allOf name] else root.columns.names.map (.column name)

theorem entityItems_eq_shownItems {q : Query} (hq : q.indexBy = none) (root : Entity) :
    entityItems q root = shownItems q.root root := by
  rw [entityItems, hq, List.append_nil, shownItems]

structure ShowsRoot (root : Entity) (f : Select) : Prop where
  table : f.table = root.table
  name : f.name = rootSource
  items : f.items = shownItems rootSource root
  lists : Lists root.identifier f
  having : f.having = none
  alone : ∀ j ∈ f.joins, Table.sameName j.name rootSource = false

namespace Executor

variable {ρ κ : Type} {e : Executor ρ κ} {s s' : Statement} {f : Select} {t t' : Table} {root : Entity}
  {rows : List ρ}

def record (e : Executor ρ κ) (root : Entity) (x : ρ) : Record :=
  .ofRow root ((shownItems rootSource root).flatMap (e.itemNames root.table))
    ((shownItems rootSource root).flatMap (e.itemCells root.table · x))

def Selects (e : Executor ρ κ) (s : Statement) (x : ρ) : Prop := ∃ rest, x :: rest ∈ e.passing s

theorem selects_iff_head {x : ρ} : e.Selects s x ↔ ∃ r ∈ e.passing s, r.head? = some x := by
  constructor
  · rintro ⟨rest, hm⟩
    exact ⟨_, hm, rfl⟩
  · rintro ⟨r, hm, hx⟩
    obtain ⟨rest, rfl⟩ := List.head?_eq_some_iff.1 hx
    exact ⟨rest, hm⟩

open Classical in
/-- The groups stand for the rows of the table that are selected, each of them once. -/
theorem Heads.perm (h : e.Heads s) (hr : e.rows? s.select.table = some rows) (hn : rows.Nodup) :
    ((e.groups s).map fun g => g.row.head?).Perm ((rows.filter (e.Selects s)).map some) := by
  rw [List.perm_ext_iff_of_nodup h.nodup ((hn.filter _).map (Option.some_injective _))]
  intro o
  simp only [List.mem_map, List.mem_filter, decide_eq_true_iff, selects_iff_head]
  constructor
  · rintro ⟨g, hg, rfl⟩
    obtain ⟨x, hx, rest, he⟩ := passing_cons hr (h.row_mem g hg)
    exact ⟨x, ⟨hx, g.row, h.row_mem g hg, by rw [he, List.head?_cons]⟩, by rw [he, List.head?_cons]⟩
  · rintro ⟨x, ⟨-, r, hm, hx⟩, rfl⟩
    obtain ⟨g, hg, he⟩ := h.covers r hm
    exact ⟨g, hg, he.trans hx⟩

variable [DecidableEq κ] (hl : e.Lawful)

include hl

theorem record_of_group (h : e.Runs (.rows f) t) (hs : ShowsRoot root f) (hh : e.Heads (.rows f)) {g : Group ρ}
    (hg : g ∈ e.groups (.rows f)) {x : ρ} (hx : g.row.head? = some x) :
    Record.ofRow root t.columns (e.cells (.rows f) g) = e.record root x := by
  have hi : ∀ i ∈ f.items, i = .allOf f.name ∨ ∃ column, i = .column f.name column := by
    rw [hs.items, hs.name, shownItems]
    split
    · simp
    · simp only [List.mem_map]
      rintro i ⟨column, -, rfl⟩
      exact .inr ⟨column, rfl⟩
  obtain ⟨hcolumns, hcells⟩ := hl.items h hi (hs.name ▸ hs.alone)
  obtain ⟨r, hr, hcells⟩ := hcells g hg
  obtain ⟨rest, he⟩ := List.head?_eq_some_iff.1 ((hh.alike g hg r hr).trans hx)
  rw [hcolumns, hcells x rest he, hs.items, hs.table]
  rfl

open Classical in
theorem ofTable_perm (h : e.Runs (.rows f) t) (hs : ShowsRoot root f) (hr : e.rows? root.table = some rows)
    (hi : e.Identified root.table root.identifier rows) (hn : root.identifier ≠ []) :
    (Record.ofTable root t).Perm ((rows.filter (e.Selects (.rows f))).map (e.record root)) := by
  rw [← hs.table] at hr hi
  have hheads := heads_of_lists hl h hs.lists hr hi hn
  have hperm := (hheads.perm hr hi.unique.of_map).map fun o => o.elim Named.empty (e.record root)
  rw [List.map_map, List.map_map] at hperm
  refine ((hl.rows h hs.lists.limit hs.lists.offset).map _).trans (.trans (.of_eq ?_) hperm)
  rw [kept_of_having (s := .rows f) hs.having, List.map_map]
  apply List.map_congr_left
  intro g hg
  obtain ⟨x, -, rest, hx⟩ := passing_cons hr (hheads.row_mem g hg)
  rw [Function.comp_apply, record_of_group hl h hs hheads hg (x := x) (by rw [hx]; rfl), Function.comp_apply, hx]
  rfl

section Begins

variable {c : FromClause} (h : e.Runs s t) (h' : e.Runs s' t') (hc : c.Begins s.select.fromClause)
  (hc' : c.Begins s'.select.fromClause) (hx : s'.select.filter = s.select.filter)
  (hk : ∀ x ∈ s.select.filter, e.knows c x ∧ e.IsDeterministic x)

include h h' hc hc' hx hk

theorem selects_of_begins {x : ρ} (hs : e.Selects s x) : e.Selects s' x := by
  obtain ⟨rest, hm⟩ := hs
  rw [passing, List.mem_filter] at hm
  obtain ⟨hj, hp⟩ := hm
  obtain ⟨more, hmore⟩ := joined_of_begins (e := e) hc
  obtain ⟨more', hmore'⟩ := joined_of_begins (e := e) hc'
  obtain ⟨r, hr, added, he, -⟩ := append_of_mem_follow (hmore ▸ hj)
  obtain ⟨added', ha⟩ := exists_mem_follow (e := e) c more' hr
  obtain ⟨x', -, tail, rfl⟩ := joined_cons hr
  obtain ⟨rfl, -⟩ := List.cons.inj he
  refine ⟨tail ++ added', List.mem_filter.2 ⟨hmore' ▸ ha, ?_⟩⟩
  rw [hx]
  cases hf : s.select.filter with
  | none => rfl
  | some y =>
      obtain ⟨hknows, hd⟩ := hk y hf
      rw [hf, Option.all_some, he] at hp
      rw [Option.all_some, ← List.cons_append,
        hl.known h h' hc hc' hf (hx.trans hf) hknows hd (length_of_mem_joined hr) added added']
      exact hp

/-- Statements whose tables begin alike select the same rows of the first one, if their filter reads no others. -/
theorem selects_iff_of_begins {x : ρ} : e.Selects s x ↔ e.Selects s' x :=
  ⟨selects_of_begins hl h h' hc hc' hx hk, selects_of_begins hl h' h hc' hc hx.symm (hx ▸ hk)⟩

end Begins

end Executor

end Sift.Sql
