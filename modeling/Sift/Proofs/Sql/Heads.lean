import Mathlib.Data.List.Perm.Basic
import Sift.Proofs.Sql.Count
import Sift.Proofs.Sql.Executor

namespace Sift.Sql.Executor

variable {ρ κ : Type} {e : Executor ρ κ} {s s' : Statement} {f : Select} {t t' : Table} {ids : List String}
  {rows : List ρ}

structure Identified (e : Executor ρ κ) (table : String) (ids : List String) (rows : List ρ) : Prop where
  present : ∀ x ∈ rows, ∀ i ∈ ids, ∃ k, e.key? table i x = some k
  unique : (rows.map fun x => ids.map fun i => e.key? table i x).Nodup

structure Heads (e : Executor ρ κ) (s : Statement) : Prop where
  row_mem : ∀ g ∈ e.groups s, g.row ∈ e.passing s
  covers : ∀ r ∈ e.passing s, ∃ g ∈ e.groups s, g.row.head? = r.head?
  nodup : ((e.groups s).map fun g => g.row.head?).Nodup
  alike : ∀ g ∈ e.groups s, ∀ r ∈ g.rows, r.head? = g.row.head?

theorem passing_cons (hr : e.rows? s.select.table = some rows) {r : List ρ} (h : r ∈ e.passing s) :
    ∃ x ∈ rows, ∃ rest, r = x :: rest := by
  have hj := joined_cons (List.mem_of_mem_filter h)
  rwa [Select.fromClause, hr, Option.getD_some] at hj

theorem kept_of_having (h : s.select.having = none) : e.kept s = e.groups s := by
  simp [kept, h]

theorem mem_kept {x : Expr} (h : s.select.having = some x) {g : Group ρ} :
    g ∈ e.kept s ↔ g ∈ e.groups s ∧ e.holds s x g := by
  rw [kept, List.mem_filter, h, Option.all_some]

variable [DecidableEq κ] (hl : e.Lawful)

include hl

section Keys

variable (h : e.Runs s t) (hg : s.select.groupBy = ids.map fun i => (s.select.name, i))
  (hr : e.rows? s.select.table = some rows) (hi : e.Identified s.select.table ids rows)

include h hg hi

theorem groupKey_cons {x : ρ} (hx : x ∈ rows) (rest : List ρ) :
    e.groupKey s (x :: rest) = ids.map fun i => e.key? s.select.table i x := by
  rw [groupKey, hg, List.map_map]
  apply List.map_congr_left
  intro i hm
  obtain ⟨k, hk⟩ := hi.present x hx i hm
  have hd : s.select.Distinguishes s.select.name i := by
    rw [Select.Distinguishes, hg]
    exact .inl (List.mem_map_of_mem hm)
  rw [Function.comp_apply, hl.first h hd hk, hk]

include hr

/-- Rows of a group begin with the same row of the first table. -/
theorem groupKey_eq_iff {r r' : List ρ} (hm : r ∈ e.passing s) (hm' : r' ∈ e.passing s) :
    e.groupKey s r = e.groupKey s r' ↔ r.head? = r'.head? := by
  obtain ⟨x, hx, rest, rfl⟩ := passing_cons hr hm
  obtain ⟨x', hx', rest', rfl⟩ := passing_cons hr hm'
  rw [groupKey_cons hl h hg hi hx, groupKey_cons hl h hg hi hx', List.head?_cons, List.head?_cons,
    Option.some.injEq]
  exact ⟨List.inj_on_of_nodup_map hi.unique hx hx', fun he => by rw [he]⟩

theorem heads_of_groupBy (hn : ids ≠ []) : e.Heads s := by
  have hp := hl.grouped h (by simpa [hg] using hn)
  have hm (g : Group ρ) (hmem : g ∈ e.groups s) : g.row ∈ e.passing s :=
    List.mem_of_mem_filter ((hp.rows g hmem).subset (hp.row_mem g hmem))
  refine ⟨hm, fun r hr' => ?_, ?_, fun g hmem r hr' => ?_⟩
  · obtain ⟨g, hmem, hk⟩ := hp.covers r hr'
    exact ⟨g, hmem, (groupKey_eq_iff hl h hg hr hi (hm g hmem) hr').1 hk⟩
  · have hk := List.pairwise_map.1 hp.nodup
    rw [List.Nodup, List.pairwise_map]
    refine hk.imp_of_mem ?_
    intro g g' hmem hmem' hne he
    exact hne ((groupKey_eq_iff hl h hg hr hi (hm g hmem) (hm g' hmem')).2 he)
  · obtain ⟨hr', hk⟩ := List.mem_filter.1 ((hp.rows g hmem).subset hr')
    exact (groupKey_eq_iff hl h hg hr hi hr' (hm g hmem)).1 (of_decide_eq_true hk)

open Classical in
theorem rows_perm_of_groupBy (hn : ids ≠ []) {g : Group ρ} (hmem : g ∈ e.groups s) :
    g.rows.Perm ((e.passing s).filter fun r => r.head? = g.row.head?) := by
  have hp := hl.grouped h (by simpa [hg] using hn)
  have hm := List.mem_of_mem_filter ((hp.rows g hmem).subset (hp.row_mem g hmem))
  refine (hp.rows g hmem).trans (.of_eq (List.filter_congr fun r hr' => ?_))
  rw [decide_eq_decide]
  exact groupKey_eq_iff hl h hg hr hi hr' hm

end Keys

/-- Rows to which nothing is joined stand for themselves. -/
theorem heads_of_single (h : e.Runs s t) (hg : s.select.groupBy = []) (hc : s.select.items.any Item.isCount = false)
    (hj : s.select.joins = []) (hr : e.rows? s.select.table = some rows) (hn : rows.Nodup) : e.Heads s := by
  have hp := hl.single h hg hc
  have hrows : e.joined s.select.fromClause = rows.map ([·]) := by
    rw [joined, Select.fromClause, hj, hr, follow, Option.getD_some]
  refine ⟨fun g hm => ?_, fun r hm => ?_, ?_, fun g hm r hr' => ?_⟩
  · obtain ⟨r, hr', rfl⟩ := List.mem_map.1 (hp.subset hm)
    exact hr'
  · exact ⟨.single r, hp.symm.subset (List.mem_map_of_mem hm), rfl⟩
  · rw [(hp.map _).nodup_iff, List.map_map]
    have hs : (e.passing s).Sublist (rows.map ([·])) := hrows ▸ List.filter_sublist
    refine (hs.map List.head?).nodup ?_
    rw [List.map_map]
    exact hn.map fun a b hab => Option.some.inj hab
  · obtain ⟨r', -, rfl⟩ := List.mem_map.1 (hp.subset hm)
    rw [List.mem_singleton.1 hr']
    rfl

theorem heads_of_lists (h : e.Runs s t) (hs : Lists ids s.select) (hr : e.rows? s.select.table = some rows)
    (hi : e.Identified s.select.table ids rows) (hn : ids ≠ []) : e.Heads s := by
  rcases hs.groupBy with hg | ⟨hg, hj, -⟩
  · exact heads_of_groupBy hl h hg hr hi hn
  · exact heads_of_single hl h hg hs.items hj hr hi.unique.of_map

section Counting

/-- Statements on the same rows with the same filter let the same rows pass. -/
theorem passing_eq (h : e.Runs s t) (h' : e.Runs s' t') (hf : s'.select.fromClause = s.select.fromClause)
    (hx : s'.select.filter = s.select.filter) (hd : ∀ x ∈ s.select.filter, e.IsDeterministic x) :
    e.passing s' = e.passing s := by
  rw [passing, passing, hf, hx]
  cases hs : s.select.filter with
  | none => rfl
  | some x =>
      have hm : x ∈ s.select.conditions := by simp [Select.conditions, hs]
      have hm' : x ∈ s'.select.conditions := by simp [Select.conditions, hx, hs]
      simp only [Option.all_some, hl.deterministic h h' hf hm hm' (hd x hs)]

omit [DecidableEq κ] hl in
/-- Of two statements that let the same rows pass one keeps as many groups as the other, if it keeps those that
begin alike. -/
theorem length_kept_eq (h : e.Heads s) (h' : e.Heads s') (hp : e.passing s' = e.passing s)
    (hk : ∀ g ∈ e.groups s, ∀ g' ∈ e.groups s', g.row.head? = g'.row.head? → (g ∈ e.kept s ↔ g' ∈ e.kept s')) :
    (e.kept s').length = (e.kept s).length := by
  have hn : ((e.kept s).map fun g => g.row.head?).Nodup := (List.filter_sublist.map _).nodup h.nodup
  have hn' : ((e.kept s').map fun g => g.row.head?).Nodup := (List.filter_sublist.map _).nodup h'.nodup
  have hperm := (List.perm_ext_iff_of_nodup hn' hn).2 fun o => ?_
  · simpa using hperm.length_eq
  rw [List.mem_map, List.mem_map]
  constructor
  · rintro ⟨g', hm', rfl⟩
    have hg' := List.mem_of_mem_filter hm'
    obtain ⟨g, hg, he⟩ := h.covers g'.row (hp ▸ h'.row_mem g' hg')
    exact ⟨g, (hk g hg g' hg' he).2 hm', he⟩
  · rintro ⟨g, hm, rfl⟩
    have hg := List.mem_of_mem_filter hm
    obtain ⟨g', hg', he⟩ := h'.covers g.row (hp ▸ h.row_mem g hg)
    exact ⟨g', (hk g hg g' hg' he.symm).1 hm, he⟩

section Keys

variable {identifier : String} (h : e.Runs s t) (hd : s.select.Distinguishes s.select.name identifier)
  (hr : e.rows? s.select.table = some rows) (hi : e.Identified s.select.table [identifier] rows)

include h hd hr hi

theorem joinedKey?_eq_some {r : List ρ} (hm : r ∈ e.passing s) : ∃ x ∈ rows, r.head? = some x ∧ ∃ k,
    e.key? s.select.table identifier x = some k ∧
      e.joinedKey? s.select.fromClause s.select.name identifier r = some k := by
  obtain ⟨x, hx, rest, rfl⟩ := passing_cons hr hm
  obtain ⟨k, hk⟩ := hi.present x hx identifier (List.mem_singleton_self _)
  exact ⟨x, hx, rfl, k, hk, hl.first h hd hk rest⟩

theorem joinedKey?_eq_iff {r r' : List ρ} (hm : r ∈ e.passing s) (hm' : r' ∈ e.passing s) :
    e.joinedKey? s.select.fromClause s.select.name identifier r =
      e.joinedKey? s.select.fromClause s.select.name identifier r' ↔ r.head? = r'.head? := by
  obtain ⟨x, hx, hh, k, hk, hj⟩ := joinedKey?_eq_some hl h hd hr hi hm
  obtain ⟨x', hx', hh', k', hk', hj'⟩ := joinedKey?_eq_some hl h hd hr hi hm'
  rw [hj, hj', hh, hh', Option.some.injEq, Option.some.injEq]
  constructor
  · rintro rfl
    exact List.inj_on_of_nodup_map hi.unique hx hx' (by simp [hk, hk'])
  · rintro rfl
    exact Option.some.inj (hk.symm.trans hk')

section Groups

variable {s' : Statement} (hg : e.Heads s') (hp : e.passing s' = e.passing s)

include hg hp

theorem toFinset_keys_eq {all : List (List ρ)} (ha : all.Perm (e.passing s)) :
    (all.filterMap (e.joinedKey? s.select.fromClause s.select.name identifier)).toFinset =
      ((e.groups s').filterMap fun g =>
        e.joinedKey? s.select.fromClause s.select.name identifier g.row).toFinset := by
  ext k
  simp only [List.mem_toFinset, List.mem_filterMap]
  constructor
  · rintro ⟨r, hm, hk⟩
    have hm := ha.subset hm
    obtain ⟨g, hmem, he⟩ := hg.covers r (hp ▸ hm)
    exact ⟨g, hmem, hk ▸ (joinedKey?_eq_iff hl h hd hr hi (hp ▸ hg.row_mem g hmem) hm).2 he⟩
  · rintro ⟨g, hm, hk⟩
    exact ⟨g.row, ha.symm.subset (hp ▸ hg.row_mem g hm), hk⟩

theorem nodup_keys : ((e.groups s').filterMap fun g =>
    e.joinedKey? s.select.fromClause s.select.name identifier g.row).Nodup := by
  rw [List.Nodup, List.pairwise_filterMap]
  refine (List.pairwise_map.1 hg.nodup).imp_of_mem ?_
  rintro g g' hm hm' hne k hk k' hk' rfl
  have he := joinedKey?_eq_iff hl h hd hr hi (hp ▸ hg.row_mem g hm) (hp ▸ hg.row_mem g' hm')
  exact hne (he.1 (hk.trans hk'.symm))

/-- As many different values of a single identifier are counted as there are groups. -/
theorem card_keys_eq {all : List (List ρ)} (ha : all.Perm (e.passing s)) :
    (all.filterMap (e.joinedKey? s.select.fromClause s.select.name identifier)).toFinset.card =
      (e.groups s').length := by
  rw [toFinset_keys_eq hl h hd hr hi hg hp ha, List.toFinset_card_of_nodup (nodup_keys hl h hd hr hi hg hp),
    List.filterMap_length_eq_length]
  intro g hm
  obtain ⟨-, -, -, k, -, hk⟩ := joinedKey?_eq_some hl h hd hr hi (hp ▸ hg.row_mem g hm)
  exact Option.isSome_iff_exists.2 ⟨k, hk⟩

end Groups

end Keys

omit [DecidableEq κ] hl in
/-- The row that stands for a group makes no difference to the condition on groups, and neither does the order of
its rows. -/
def Steady (e : Executor ρ κ) (s s' : Statement) : Prop :=
  ∀ x ∈ s.select.having, ∀ g ∈ e.groups s, ∀ g' ∈ e.groups s', g.rows.Perm g'.rows → e.holds s x g = e.holds s x g'

section Counts

variable (h : e.Runs (.rows f) t) (h' : e.Runs s' t') (hs : Lists ids f) (hn : ids ≠ [])
  (hr : e.rows? f.table = some rows) (hi : e.Identified f.table ids rows)
  (hd : ∀ x ∈ f.conditions, e.IsDeterministic x)

include h h' hs hr hi hd

/-- A count of the different values of a single identifier counts what is selected. -/
theorem rows_of_distinct {identifier : String} (hids : ids = [identifier]) (hh : f.having = none)
    (he : s' = .rows (f.distinct identifier)) :
    t'.columns = [countColumn] ∧ t'.rows = [[.ofRows t.rows.length]] := by
  subst hids he
  obtain ⟨hcolumns, hcells⟩ := hl.countDistinct h' rfl
  refine ⟨hcolumns, List.perm_singleton.1 ((hl.rows h' rfl rfl).trans (.of_eq ?_))⟩
  obtain ⟨g, hg, hall⟩ := hl.whole h' rfl rfl
  have hp : e.passing (.rows (f.distinct identifier)) = e.passing (.rows f) :=
    passing_eq hl h h' rfl rfl fun x hx => hd x (by simp [Select.conditions, show f.filter = some x from hx])
  have hheads := heads_of_lists hl h hs hr hi (by simp)
  have hcard := card_keys_eq hl h' (.inr (List.mem_singleton_self _)) hr hi hheads hp.symm hall
  rw [kept_of_having (s := .rows (f.distinct identifier)) hh, hg, List.map_singleton, hcells g (by simp [hg]),
    (hl.rows h hs.limit hs.offset).length_eq, List.length_map, kept_of_having (s := .rows f) hh, ← hcard]
  rfl

include hn

/-- A count of the groups of the identifier counts what is selected. -/
theorem rows_of_groups (hst : e.Steady (.rows f) s') (he : s' = .countOf (f.groups ids)) :
    t'.columns = [countColumn] ∧ t'.rows = [[.ofRows t.rows.length]] := by
  subst he
  obtain ⟨hcolumns, hrows⟩ := hl.countOf h' rfl rfl
  refine ⟨hcolumns, ?_⟩
  have hp : e.passing (.countOf (f.groups ids)) = e.passing (.rows f) :=
    passing_eq hl h h' rfl rfl fun x hx => hd x (by simp [Select.conditions, show f.filter = some x from hx])
  have hheads := heads_of_lists hl h hs hr hi hn
  have hheads' := heads_of_groupBy hl h' rfl hr hi hn
  rw [hrows, (hl.rows h hs.limit hs.offset).length_eq, List.length_map, length_kept_eq hheads hheads' hp]
  intro g hg g' hg' he
  cases hx : f.having with
  | none =>
      rw [kept_of_having (s := .rows f) hx, kept_of_having (s := .countOf (f.groups ids)) hx]
      exact iff_of_true hg hg'
  | some x =>
      have hb : f.groupBy = ids.map fun i => (f.name, i) :=
        hs.groupBy.resolve_right fun hg => by simp [hx] at hg
      have hm : x ∈ f.conditions := by simp [Select.conditions, hx]
      have hperm := rows_perm_of_groupBy hl h hb hr hi hn hg
      have hperm' := rows_perm_of_groupBy hl h' rfl hr hi hn hg'
      rw [hp, ← he] at hperm'
      rw [mem_kept (s := .rows f) hx, mem_kept (s := .countOf (f.groups ids)) hx, and_iff_right hg, and_iff_right hg',
        hst x hx g hg g' hg' (hperm.trans hperm'.symm), hl.deterministic h h' rfl hm hm (hd x hm) g']

/-- What counts a selection gives a single row with the number of rows that are selected. -/
theorem rows_of_counts (hc : Counts ids f s') (hst : e.Steady (.rows f) s') :
    t'.columns = [countColumn] ∧ t'.rows = [[.ofRows t.rows.length]] := by
  cases hc with
  | distinct hids hh => exact rows_of_distinct hl h h' hs hr hi hd hids hh rfl
  | groups => exact rows_of_groups hl h h' hs hn hr hi hd hst rfl

end Counts

end Counting

end Sift.Sql.Executor
