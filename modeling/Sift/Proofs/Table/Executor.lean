import Sift.Proofs.Sql.Heads
import Sift.Proofs.Table.Widen

namespace Sift

open Table

namespace Table

def places (t : Table) : Sql.Item → List Nat
  | .column _ column | .countDistinct _ column => (place? t.columns column).toList
  | .allOf _ => t.columns.filterMap (place? t.columns)

def nameAt (t : Table) (k : Nat) : String := t.columns[k]?.getD ""

def cellAt (cells : List Cell) (k : Nat) : Cell := cells[k]?.getD .null

end Table

/-- Tables in memory as a database. All templates that it executes are expressions of deterministic functions. -/
def Database.executor (db : Database) : Sql.Executor (List Cell) Key where
  run := Table.run db
  rows? name := (db.table? name).map Table.rows
  blank := []
  key? table column cells := do (← cells[← place? (← db.table? table).columns column]?).key?
  joinedKey? f source column r := ((scopeOf db f).slot (some source) column).toOption.bind fun k => (Row.cell r k).key?
  fits f j r cells :=
    ((linkOf (scopeOf db (f.join j)) (f.joins.length + 1) j ⟨[], []⟩).map (·.fits r cells)).toOption.getD false
  holds s x g := ((scopeOf db s.select.fromClause).term true x >>= (·.holds g false)).toOption.getD false
  groups s := (Program.ofSelect db s.select >>= fun p => p.passing >>= p.groups).toOption.getD []
  cells s g := (Program.ofSelect db s.select >>= (·.output g)).toOption.getD []
  itemNames table i := ((db.table? table).map fun t => (t.places i).map t.nameAt).getD []
  itemCells table i cells := ((db.table? table).map fun t => (t.places i).map (cellAt cells)).getD []
  isExpression _ := True
  isDeterministic _ := True
  knows f x := ∃ t, (scopeOf db f).term true x = .ok t

theorem Database.rows?_executor (db : Database) (name : String) :
    db.executor.rows? name = (db.table? name).map Table.rows := rfl

namespace Table

open Database (rows?_executor)

section Holds

variable {g : Group} {t : Term} {ts : List Term}

theorem passes_iff : passes g ts = .ok true ↔ ∀ t ∈ ts, t.holds g false = .ok true := by
  induction ts with
  | nil => simp [passes]
  | cons t ts ih =>
      rw [passes, List.forall_mem_cons, ← ih]
      rcases t.holds g false with _ | _ | _ <;> simp [bind, Except.bind, pure, Except.pure]

theorem holds_conjuncts : t.holds g false = .ok true ↔ ∀ c ∈ t.conjuncts, c.holds g false = .ok true := by
  induction t with
  | and left right ihl ihr =>
      rw [Term.conjuncts, List.forall_mem_append, ← ihl, ← ihr, Term.holds]
      rcases left.holds g false with _ | _ | _ <;> simp [bind, Except.bind, pure, Except.pure]
  | slot | const | apply | aggregate | rowCount | compare | isIn | isMember | isNull | like | «matches» | not |
    or => simp [Term.conjuncts]

end Holds

section Ran

variable {db : Database} {s : Sql.Statement} {t : Table}

def answerOf : Sql.Statement → Table → Table
  | .rows _, listed => listed
  | .countOf _, listed => ⟨[Sql.countColumn], [[.ofRows listed.rows.length]]⟩

theorem exists_of_forall₂ {α β : Type} {R : α → β → Prop} {l : List α} {m : List β} (h : List.Forall₂ R l m)
    {a : α} (ha : a ∈ l) : ∃ b, R a b := by
  induction h with
  | nil => cases ha
  | cons hr _ ih =>
      rcases List.mem_cons.1 ha with rfl | ha
      · exact ⟨_, hr⟩
      · exact ih ha

structure Ran (db : Database) (s : Sql.Statement) (t : Table) (tables : List (String × Table)) (p : Program)
    (listed : Table) (rows : List Row) (groups kept : List Group) : Prop where
  compiled : Program.ofSelect db s.select = .ok p
  resolves : Program.Resolves db s.select tables p
  runs : p.Runs listed rows groups kept
  answer : t = answerOf s listed

theorem ran_of_runs (h : db.executor.Runs s t) :
    ∃ tables p listed rows groups kept, Ran db s t tables p listed rows groups kept := by
  replace h : Table.run db s = .ok t := h.answer
  cases s with
  | rows f =>
      obtain ⟨p, hp, h⟩ := Except.bind_eq_ok.1 h
      obtain ⟨tables, hr⟩ := Program.resolves_of_ofSelect hp
      obtain ⟨rows, groups, kept, hruns⟩ := Program.runs_of_run h
      exact ⟨tables, p, t, rows, groups, kept, hp, hr, hruns, rfl⟩
  | countOf f =>
      obtain ⟨p, hp, h⟩ := Except.bind_eq_ok.1 h
      obtain ⟨listed, h, ht⟩ := Except.bind_eq_ok.1 h
      obtain ⟨tables, hr⟩ := Program.resolves_of_ofSelect hp
      obtain ⟨rows, groups, kept, hruns⟩ := Program.runs_of_run h
      exact ⟨tables, p, listed, rows, groups, kept, hp, hr, hruns, (Except.pure_eq_ok.1 ht).symm⟩

variable {tables : List (String × Table)} {p : Program} {listed : Table} {rows : List Row} {groups kept : List Group}

theorem holds_eq_true {x : Sql.Expr} {u : Term} (hu : (scopeOf db s.select.fromClause).term true x = .ok u)
    (g : Group) : db.executor.holds s x g = true ↔ u.holds g false = .ok true := by
  change (((scopeOf db s.select.fromClause).term true x >>= (·.holds g false)).toOption.getD false) = true ↔ _
  rw [hu]
  change (u.holds g false).toOption.getD false = true ↔ _
  rcases u.holds g false with _ | _ | _ <;> simp [Except.toOption]

end Ran

theorem linkOf_eq_ok {x : Scope} {i : Nat} {j : Sql.TableJoin} {t : Table} {l : Link} :
    linkOf x i j t = .ok l ↔ x.slot (some j.name) j.column = .ok l.left ∧
      x.slot (some j.other) j.otherColumn = .ok l.right ∧ (l.left.source ≤ i ∧ l.right.source ≤ i) ∧
      l.rows = t.rows := by
  simp only [linkOf, Except.bind_eq_ok]
  constructor
  · rintro ⟨left, hl, right, hr, h⟩
    split at h
    · rename_i hi
      obtain rfl := Except.pure_eq_ok.1 h
      exact ⟨hl, hr, by simpa using hi, rfl⟩
    · cases h
  · rintro ⟨hl, hr, hi, hrows⟩
    exact ⟨_, hl, _, hr, by rw [if_pos (by simpa using hi), ← hrows]; rfl⟩

theorem widens_of_begins {db : Database} {f g : Sql.FromClause} {tables : List (String × Table)} (h : f.Begins g)
    (ht : sourceTables db g = .ok tables) :
    (scopeOf db f).Widens (scopeOf db g) ∧ (scopeOf db f).sources.length = f.joins.length + 1 := by
  obtain ⟨table, name, joins⟩ := g
  obtain ⟨rfl, rfl, more, rfl⟩ := h
  obtain ⟨first, rest, hf, -, rfl⟩ := sourceTables_append.1 ht
  refine ⟨⟨rfl, ?_⟩, length_sources hf⟩
  rw [sources_scopeOf hf, sources_scopeOf ht, List.map_append]
  exact List.prefix_append ..

/-- The tables up to a join are enough to find what it is joined by. -/
theorem extend_eq {db : Database} {f g : Sql.FromClause} {j : Sql.TableJoin} {tables : List (String × Table)}
    (hb : (f.join j).Begins g) (ht : sourceTables db g = .ok tables) {t : Table} (hj : db.table? j.table = some t)
    {l : Link} (hl : linkOf (scopeOf db g) (f.joins.length + 1) j t = .ok l) (r : Row) :
    db.executor.extend f j r = l.extend r := by
  obtain ⟨hw, hn⟩ := widens_of_begins hb ht
  obtain ⟨hleft, hright, ⟨hi, hi'⟩, hrows⟩ := linkOf_eq_ok.1 hl
  have hlen : (f.join j).joins.length = f.joins.length + 1 := by simp [Sql.FromClause.join]
  have hlt : l.left.source < (scopeOf db (f.join j)).sources.length ∧
      l.right.source < (scopeOf db (f.join j)).sources.length := by omega
  have hlink : linkOf (scopeOf db (f.join j)) (f.joins.length + 1) j ⟨[], []⟩ = .ok ⟨[], l.left, l.right⟩ :=
    linkOf_eq_ok.2 ⟨hw.slot_of_lt hleft hlt.1, hw.slot_of_lt hright hlt.2, ⟨hi, hi'⟩, rfl⟩
  have hfits : db.executor.fits f j r = l.fits r := by
    funext cells
    change ((linkOf _ _ j ⟨[], []⟩).map fun l => l.fits r cells).toOption.getD false = _
    rw [hlink]
    rfl
  rw [Sql.Executor.extend, Link.extend, rows?_executor, hj, hfits, Option.map_some, Option.getD_some, ← hrows]
  cases l.rows.filter (l.fits r) <;> rfl

theorem follow_eq {db : Database} {f g : Sql.FromClause} {js : List Sql.TableJoin} {tables : List (String × Table)}
    {links : List Link} (hg : g = { f with joins := f.joins ++ js }) (ht : sourceTables db g = .ok tables)
    (hl : ((js.zip (tables.drop (f.joins.length + 1))).zipIdx (f.joins.length + 1)).mapM (fun ((j, (_, t)), i) =>
      linkOf (scopeOf db g) i j t) = .ok links) (rows : List Row) :
    db.executor.follow f js rows = links.foldl (fun rows l => rows.flatMap l.extend) rows := by
  induction js generalizing f links rows with
  | nil =>
      obtain rfl := Except.pure_eq_ok.1 hl
      rfl
  | cons j js ih =>
      have hg' : g = { f.join j with joins := (f.join j).joins ++ js } := by
        rw [hg, Sql.FromClause.join, List.append_assoc]
        rfl
      obtain ⟨first, rest, hf, hj, rfl⟩ := sourceTables_append.1 (hg ▸ ht)
      obtain ⟨⟨name, t⟩, rest, hfound, -, rfl⟩ := List.forall₂_cons_left_iff.1 (Except.mapM_eq_ok.1 hj)
      have hlen := length_sourceTables hf
      rw [← hlen, List.drop_left, List.zip_cons_cons, List.zipIdx_cons, List.mapM_cons] at hl
      obtain ⟨l, hlink, hl⟩ := Except.bind_eq_ok.1 hl
      obtain ⟨links, hlinks, he⟩ := Except.bind_eq_ok.1 hl
      obtain rfl := Except.pure_eq_ok.1 he
      have hb : (f.join j).Begins g := by
        rw [hg']
        exact ⟨rfl, rfl, List.prefix_append ..⟩
      rw [hlen] at hlink
      rw [Sql.Executor.follow, List.foldl_cons,
        funext (extend_eq hb ht (sourceTable_eq_ok.1 hfound).1 hlink)]
      refine ih hg' ?_ _
      rw [show (f.join j).joins.length + 1 = first.length + 1 by simp [Sql.FromClause.join, hlen],
        List.drop_append, List.drop_of_length_le (by omega), Nat.add_sub_cancel_left]
      exact hlinks

section Ran

variable {db : Database} {s : Sql.Statement} {t : Table} {tables : List (String × Table)} {p : Program}
  {listed : Table} {rows : List Row} {groups kept : List Group}
  (h : Ran db s t tables p listed rows groups kept)

include h

namespace Ran

theorem first : ∃ first, db.table? s.select.table = some first ∧ p.rows = first.rows ∧
    ∃ rest, (scopeOf db s.select.fromClause).sources = ⟨s.select.name, first.columns⟩ :: rest ∧
      rest.map Source.name = s.select.joins.map Sql.TableJoin.name := by
  obtain ⟨first, rest, hf, hr, rfl⟩ := sourceTables_eq_ok.1 h.resolves.found
  refine ⟨first, hf, h.resolves.rows, _, sources_scopeOf h.resolves.found, ?_⟩
  rw [List.map_map, ← List.forall₂_eq_eq_eq, List.forall₂_map_left_iff, List.forall₂_map_right_iff]
  exact hr.flip.imp fun _ _ ht => ht.2

theorem joined_eq : db.executor.joined s.select.fromClause = joined p.rows p.links := by
  obtain ⟨first, hf, hr, -⟩ := h.first
  have hrows : db.executor.rows? s.select.fromClause.table = some p.rows := by
    rw [rows?_executor, Sql.Select.fromClause, hf, hr, Option.map_some]
  have hl := h.resolves.links
  rw [linksOf] at hl
  rw [Sql.Executor.joined, hrows, joined]
  exact follow_eq (f := { s.select.fromClause with joins := [] }) (g := s.select.fromClause) rfl
    h.resolves.found hl _

theorem passing_eq : db.executor.passing s = rows := by
  rw [Sql.Executor.passing, h.joined_eq]
  refine (Except.eq_filter_of_filterM (fun r => ?_) h.runs.passed).symm
  obtain ⟨f, hf, hp⟩ := h.resolves.filter
  rw [hp, passes_iff]
  simp only [List.mem_mergeSort]
  cases hx : s.select.filter with
  | none =>
      rw [hx] at hf
      obtain rfl := Except.ok.inj hf
      simp
  | some x =>
      rw [hx] at hf
      obtain ⟨u, hu, rfl⟩ := Except.map_eq_ok.1 hf
      rw [Option.all_some, holds_eq_true (Scope.term_of_false hu), holds_conjuncts]
      rfl

theorem groups_eq : db.executor.groups s = groups := by
  change (Program.ofSelect db s.select >>= fun p => p.passing >>= p.groups).toOption.getD [] = groups
  rw [h.compiled]
  change (p.passing >>= p.groups).toOption.getD [] = groups
  rw [h.runs.passed]
  change (p.groups rows).toOption.getD [] = groups
  rw [h.runs.grouped]
  rfl

theorem kept_eq : db.executor.kept s = kept := by
  rw [Sql.Executor.kept, h.groups_eq]
  refine (Except.eq_filter_of_filterM (fun g => ?_) h.runs.decided).symm
  have hv := h.resolves.having
  rw [Program.isKept]
  cases hx : s.select.having with
  | none =>
      rw [hx] at hv
      obtain hv := Except.ok.inj hv
      simp [← hv]
  | some x =>
      rw [hx] at hv
      obtain ⟨u, hu, hv⟩ := Except.map_eq_ok.1 hv
      rw [← hv, Option.all_some, holds_eq_true hu]

theorem cells_eq {g : Group} {cells : List Cell} (hc : p.output g = .ok cells) : db.executor.cells s g = cells := by
  change (Program.ofSelect db s.select >>= (·.output g)).toOption.getD [] = cells
  rw [h.compiled]
  change (p.output g).toOption.getD [] = cells
  rw [hc]
  rfl

theorem listed_rows (hl : s.select.limit = none) (ho : s.select.offset = none) :
    listed.rows.Perm (kept.map (db.executor.cells s)) := by
  obtain ⟨cells, hc, hp⟩ := h.runs.rows (h.resolves.limit.trans hl) (h.resolves.offset.trans ho)
  refine hp.trans (.of_eq ?_)
  rw [← List.forall₂_eq_eq_eq, List.forall₂_map_right_iff]
  exact hc.flip.imp fun _ _ hc => (h.cells_eq hc).symm

theorem groupBy_of_nil (hg : s.select.groupBy = []) :
    p.groupBy = if s.select.items.any Sql.Item.isCount then some [] else none := by
  obtain ⟨keys, hk, hp⟩ := h.resolves.groupBy
  rw [hg] at hk
  obtain rfl := List.forall₂_nil_left_iff.1 hk
  rw [hp]
  rfl

theorem groups_of_single (hg : s.select.groupBy = []) (hi : s.select.items.any Sql.Item.isCount = false) :
    groups = rows.map .single := by
  have hgroups := h.runs.grouped
  rw [Program.groups, h.groupBy_of_nil hg, hi] at hgroups
  exact (Except.ok.inj hgroups).symm

theorem groups_of_whole (hg : s.select.groupBy = []) (hi : s.select.items.any Sql.Item.isCount = true) :
    ∃ row, groups = [⟨row, rows⟩] := by
  have hgroups := h.runs.grouped
  rw [Program.groups, h.groupBy_of_nil hg, hi] at hgroups
  obtain ⟨g, rest, hrow, hrest, rfl⟩ := List.forall₂_cons_left_iff.1 (Except.mapM_eq_ok.1 hgroups)
  obtain rfl := List.forall₂_nil_left_iff.1 hrest
  obtain ⟨row, -, hrow⟩ := Except.bind_eq_ok.1 hrow
  exact ⟨row, congrArg (· :: []) (Except.pure_eq_ok.1 hrow).symm⟩

theorem groups_of_slots (hg : s.select.groupBy ≠ []) :
    ∃ slots, List.Forall₂ (fun i k => (scopeOf db s.select.fromClause).slot (some i.1) i.2 = .ok k)
        s.select.groupBy slots ∧
      List.Forall₂ (fun rs g => g.row ∈ rs ∧ g.rows = rs) (groupsBy slots rows) groups := by
  obtain ⟨slots, hs, hp⟩ := h.resolves.groupBy
  have hn : slots ≠ [] := by
    rintro rfl
    exact hg (List.forall₂_nil_right_iff.1 hs)
  have hgroups := h.runs.grouped
  rw [Program.groups, hp, if_pos (by simp [hn])] at hgroups
  simp only [List.isEmpty_iff, hn, if_false] at hgroups
  refine ⟨slots, hs, ((List.forall₂_and_left _ _).2 ⟨fun rs hm => hm, Except.mapM_eq_ok.1 hgroups⟩).imp ?_⟩
  rintro rs g ⟨hm, hrow⟩
  obtain ⟨row, hr, hrow⟩ := Except.bind_eq_ok.1 hrow
  obtain rfl := Except.pure_eq_ok.1 hrow
  exact ⟨representative_mem (ne_nil_of_mem_groupsBy hm) hr, rfl⟩

omit h in
theorem joinedKey?_of_slot {f : Sql.FromClause} {source column : String} {k : Slot}
    (hk : (scopeOf db f).slot (some source) column = .ok k) (r : Row) :
    db.executor.joinedKey? f source column r = (Row.cell r k).key? := by
  change ((scopeOf db f).slot (some source) column).toOption.bind _ = _
  rw [hk]
  rfl

omit h in
theorem groupKey_eq_iff {slots : List Slot}
    (hs : List.Forall₂ (fun i k => (scopeOf db s.select.fromClause).slot (some i.1) i.2 = .ok k) s.select.groupBy slots)
    (r r' : Row) : db.executor.groupKey s r = db.executor.groupKey s r' ↔ keyOf slots r = keyOf slots r' := by
  have hk (r : Row) : db.executor.groupKey s r = slots.map fun k => (Row.cell r k).key? := by
    rw [Sql.Executor.groupKey, ← List.forall₂_eq_eq_eq, List.forall₂_map_left_iff, List.forall₂_map_right_iff]
    exact hs.imp fun i k hk => joinedKey?_of_slot hk r
  simp only [hk, keyOf, List.map_inj_left, Cell.key?_eq_iff]

theorem partitions (hg : s.select.groupBy ≠ []) : db.executor.Partitions s := by
  obtain ⟨slots, hs, hgroups⟩ := h.groups_of_slots hg
  obtain ⟨hkeys, hrows⟩ := keyed_of_groupsBy hgroups
  constructor
  · rw [h.passing_eq, h.groups_eq]
    intro r hm
    have hk : keyOf slots r ∈ groups.map fun g => keyOf slots g.row :=
      hkeys.symm.subset (List.mem_eraseDups.2 (List.mem_map_of_mem hm))
    obtain ⟨g, hg, he⟩ := List.mem_map.1 hk
    exact ⟨g, hg, (groupKey_eq_iff hs _ _).2 he⟩
  · rw [h.groups_eq]
    have hn := hkeys.nodup_iff.2 (nodup_eraseDups _)
    rw [List.Nodup, List.pairwise_map] at hn ⊢
    exact hn.imp fun hne he => hne ((groupKey_eq_iff hs _ _).1 he)
  · rw [h.groups_eq]
    exact fun g hm => (hrows g hm).1
  · rw [h.groups_eq, h.passing_eq]
    intro g hm
    rw [(hrows g hm).2]
    simp only [groupKey_eq_iff hs, List.Perm.refl]

/-- A column that the first table has is found there or not at all. -/
theorem slot_first {first : Table} (hf : db.table? s.select.table = some first) {column : String} {n : Nat}
    (hn : place? first.columns column = some n) {k : Slot}
    (hk : (scopeOf db s.select.fromClause).slot (some s.select.name) column = .ok k) : k = ⟨0, n⟩ := by
  obtain ⟨first', hf', -, rest, hx, -⟩ := h.first
  obtain rfl := Option.some.inj (hf.symm.trans hf')
  have hc := Scope.slot_eq_ok.1 hk
  rw [Scope.candidates, hx, List.zipIdx_cons, List.filter_cons_of_pos (by simp [sameName_refl]),
    List.filterMap_cons_some (b := ⟨0, n⟩) (congrArg (Option.map _) hn)] at hc
  exact (List.cons.inj hc).1.symm

theorem slot_of_distinguishes {source column : String} (hc : s.select.Distinguishes source column) :
    ∃ k, (scopeOf db s.select.fromClause).slot (some source) column = .ok k := by
  rcases hc with hc | hc
  · obtain ⟨keys, hk, -⟩ := h.resolves.groupBy
    obtain ⟨k, hk⟩ := exists_of_forall₂ hk hc
    exact ⟨k, hk⟩
  · obtain ⟨os, ho, -⟩ := h.resolves.outputs
    obtain ⟨o, ho⟩ := exists_of_forall₂ ho hc
    obtain ⟨k, hk, -⟩ := Except.bind_eq_ok.1 ho
    exact ⟨k, hk⟩

theorem joinedKey?_first {column : String} (hc : s.select.Distinguishes s.select.name column) {x : List Cell} {k : Key}
    (hk : db.executor.key? s.select.table column x = some k) (rest : Row) :
    db.executor.joinedKey? s.select.fromClause s.select.name column (x :: rest) = some k := by
  obtain ⟨slot, hs⟩ := h.slot_of_distinguishes hc
  simp only [Database.executor, Option.bind_eq_bind, Option.bind_eq_some_iff] at hk
  obtain ⟨first, hf, n, hn, c, hc, hk⟩ := hk
  obtain rfl := h.slot_first hf hn hs
  rw [joinedKey?_of_slot hs, ← hk]
  simp [Row.cell, hc]

theorem listed_countDistinct {source column : String} (hi : s.select.items = [.countDistinct source column]) :
    listed.columns = [Sql.countColumn] ∧ ∀ g : Group, db.executor.cells s g =
      [.ofRows (g.rows.filterMap (db.executor.joinedKey? s.select.fromClause source column)).toFinset.card] := by
  obtain ⟨os, hos, hp⟩ := h.resolves.outputs
  rw [hi] at hos
  obtain ⟨o, rest, ho, hrest, rfl⟩ := List.forall₂_cons_left_iff.1 hos
  obtain rfl := List.forall₂_nil_left_iff.1 hrest
  obtain ⟨k, hk, ho⟩ := Except.bind_eq_ok.1 ho
  obtain rfl := Except.pure_eq_ok.1 ho
  rw [List.flatten_singleton] at hp
  refine ⟨by rw [h.runs.columns, hp]; rfl, fun g => h.cells_eq ?_⟩
  have hm : g.rows.mapM (fun r => (Term.slot k).value (.single r)) = .ok (g.rows.map (Row.cell · k)) :=
    List.mapM_pure
  have hkeys : (g.rows.map (Row.cell · k)).filterMap Cell.key? =
      g.rows.filterMap (db.executor.joinedKey? s.select.fromClause source column) := by
    rw [List.filterMap_map]
    exact List.filterMap_congr fun r _ => (joinedKey?_of_slot hk r).symm
  have hv : (Term.aggregate .count true (.slot k)).value g = .ok (.ofRows
      (g.rows.filterMap (db.executor.joinedKey? s.select.fromClause source column)).toFinset.card) := by
    rw [Term.value, hm, ← hkeys]
    exact value_countDistinct _
  rw [Program.output, hp, List.mapM_cons, hv]
  rfl

/-- The first source is the only one of its name. -/
theorem candidates_first {first : Table} (hf : db.table? s.select.table = some first)
    (hn : ∀ j ∈ s.select.joins, sameName j.name s.select.name = false) :
    (scopeOf db s.select.fromClause).candidates (some s.select.name) = [(⟨s.select.name, first.columns⟩, 0)] := by
  obtain ⟨first', hf', -, rest, hx, hnames⟩ := h.first
  obtain rfl := Option.some.inj (hf.symm.trans hf')
  rw [Scope.candidates, hx, List.zipIdx_cons, List.filter_cons_of_pos (by simp [sameName_refl]),
    List.filter_eq_nil_iff.2]
  rintro ⟨source, i⟩ hm
  have hs := List.mem_map_of_mem (f := Source.name) (List.fst_mem_of_mem_zipIdx hm)
  rw [hnames] at hs
  obtain ⟨j, hj, hs⟩ := List.mem_map.1 hs
  have hne : sameName source.name s.select.name = false := hs ▸ hn j hj
  simp [hne]

def firstOutput (first : Table) (n : Nat) : Output := ⟨first.nameAt n, .slot ⟨0, n⟩⟩

theorem output_first {first : Table} (hf : db.table? s.select.table = some first)
    (hn : ∀ j ∈ s.select.joins, sameName j.name s.select.name = false) {column : String} {k : Slot}
    (hk : (scopeOf db s.select.fromClause).slot (some s.select.name) column = .ok k) :
    ∃ n, place? first.columns column = some n ∧
      (⟨(scopeOf db s.select.fromClause).nameOf k, .slot k⟩ : Output) = firstOutput first n := by
  have hs := Scope.slot_eq_ok.1 hk
  rw [h.candidates_first hf hn, List.filterMap_cons, List.filterMap_nil] at hs
  cases hp : place? first.columns column with
  | none => simp [hp] at hs
  | some n =>
      obtain rfl : ⟨0, n⟩ = k := by simpa [hp] using hs
      obtain ⟨first', hf', -, rest, hx, -⟩ := h.first
      obtain rfl := Option.some.inj (hf.symm.trans hf')
      refine ⟨n, rfl, ?_⟩
      rw [Scope.nameOf, hx]
      rfl

theorem outputs_first {first : Table} (hf : db.table? s.select.table = some first)
    (hn : ∀ j ∈ s.select.joins, sameName j.name s.select.name = false) {columns : List String} {os : List Output}
    (ho : List.Forall₂ (fun column o => ∃ k, (scopeOf db s.select.fromClause).slot (some s.select.name) column = .ok k ∧
      o = ⟨(scopeOf db s.select.fromClause).nameOf k, .slot k⟩) columns os) :
    os = (columns.filterMap (place? first.columns)).map (firstOutput first) := by
  induction ho with
  | nil => rfl
  | cons ho _ ih =>
      obtain ⟨k, hk, rfl⟩ := ho
      obtain ⟨n, hp, ho⟩ := h.output_first hf hn hk
      rw [List.filterMap_cons_some hp, List.map_cons, ← ih, ho]

theorem outputsOf_first {first : Table} (hf : db.table? s.select.table = some first)
    (hn : ∀ j ∈ s.select.joins, sameName j.name s.select.name = false) {i : Sql.Item}
    (hi : i = .allOf s.select.name ∨ ∃ column, i = .column s.select.name column) {os : List Output}
    (ho : outputsOf (scopeOf db s.select.fromClause) i = .ok os) : os = (first.places i).map (firstOutput first) := by
  rcases hi with rfl | ⟨column, rfl⟩
  · rw [outputsOf, h.candidates_first hf hn, List.flatMap_singleton, Except.mapM_eq_ok] at ho
    refine h.outputs_first hf hn (ho.imp ?_)
    intro column o ho
    obtain ⟨k, hk, ho⟩ := Except.bind_eq_ok.1 ho
    exact ⟨k, hk, (Except.pure_eq_ok.1 ho).symm⟩
  · obtain ⟨k, hk, ho⟩ := Except.bind_eq_ok.1 ho
    obtain rfl := Except.pure_eq_ok.1 ho
    obtain ⟨n, hp, ho⟩ := h.output_first hf hn hk
    rw [ho, places, hp]
    rfl

/-- What items of the first table put out depends on its row alone. -/
theorem listed_items (hn : ∀ j ∈ s.select.joins, sameName j.name s.select.name = false)
    (hi : ∀ i ∈ s.select.items, i = .allOf s.select.name ∨ ∃ column, i = .column s.select.name column) :
    listed.columns = s.select.items.flatMap (db.executor.itemNames s.select.table) ∧ ∀ (g : Group) x rest,
      g.row = x :: rest →
        db.executor.cells s g = s.select.items.flatMap (db.executor.itemCells s.select.table · x) := by
  obtain ⟨first, hf, -⟩ := h.first
  have hnames : db.executor.itemNames s.select.table = fun i => (first.places i).map first.nameAt := by
    funext i
    change ((db.table? _).map _).getD [] = _
    rw [hf]
    rfl
  have hcells (x : List Cell) :
      (db.executor.itemCells s.select.table · x) = fun i => (first.places i).map (cellAt x) := by
    funext i
    change ((db.table? _).map _).getD [] = _
    rw [hf]
    rfl
  obtain ⟨os, hos, hp⟩ := h.resolves.outputs
  have ho : p.outputs = (s.select.items.flatMap first.places).map (firstOutput first) := by
    have he : s.select.items.map (fun i => (first.places i).map (firstOutput first)) = os := by
      rw [← List.forall₂_eq_eq_eq, List.forall₂_map_left_iff]
      exact ((List.forall₂_and_left _ _).2 ⟨hi, hos⟩).imp fun i o ho => (h.outputsOf_first hf hn ho.1 ho.2).symm
    rw [hp, ← he, List.map_flatMap, List.flatMap_def]
  constructor
  · rw [h.runs.columns, ho, hnames, List.map_map, ← List.map_flatMap]
    rfl
  · intro g x rest hg
    apply h.cells_eq
    rw [Program.output, ho, hcells, ← List.map_flatMap, Except.mapM_eq_ok, List.forall₂_map_left_iff,
      List.forall₂_map_right_iff, List.forall₂_same]
    intro n _
    rw [firstOutput, Term.value, hg]
    rfl

theorem row_mem (hi : ∀ i ∈ s.select.items, i = .allOf s.select.name ∨ ∃ column, i = .column s.select.name column)
    {g : Group} (hg : g ∈ db.executor.groups s) : g.row ∈ g.rows := by
  by_cases hgroup : s.select.groupBy = []
  · have hc : s.select.items.any Sql.Item.isCount = false := by
      rw [List.any_eq_false]
      intro i hm
      rcases hi i hm with rfl | ⟨column, rfl⟩ <;> simp [Sql.Item.isCount]
    rw [h.groups_eq, h.groups_of_single hgroup hc] at hg
    obtain ⟨r, -, rfl⟩ := List.mem_map.1 hg
    exact List.mem_singleton_self r
  · exact (h.partitions hgroup).row_mem g hg

end Ran

theorem holds_known {s' : Sql.Statement} {t' : Table} {tables' : List (String × Table)} {p' : Program}
    {listed' : Table} {rows' : List Row} {groups' kept' : List Group}
    (h' : Ran db s' t' tables' p' listed' rows' groups' kept') {f : Sql.FromClause}
    (hf : f.Begins s.select.fromClause) (hf' : f.Begins s'.select.fromClause) {x : Sql.Expr}
    (hx : s.select.filter = some x) (hx' : s'.select.filter = some x) (hk : db.executor.knows f x) {r : Row}
    (hr : r.length = f.joins.length + 1) (more more' : Row) :
    db.executor.holds s' x (.single (r ++ more')) = db.executor.holds s x (.single (r ++ more)) := by
  obtain ⟨u, hu⟩ := hk
  have hsame {s : Sql.Statement} {t : Table} {tables : List (String × Table)} {p : Program} {listed : Table}
      {rows : List Row} {groups kept : List Group} (h : Ran db s t tables p listed rows groups kept)
      (hf : f.Begins s.select.fromClause) (hx : s.select.filter = some x) (more : Row) :
      db.executor.holds s x (.single (r ++ more)) = true ↔ u.holds (.single r) false = .ok true := by
    obtain ⟨hw, hn⟩ := widens_of_begins hf h.resolves.found
    obtain ⟨v, hv, -⟩ := h.resolves.filter
    rw [hx] at hv
    obtain ⟨u', hu', -⟩ := Except.map_eq_ok.1 hv
    have hu' := Scope.term_of_false hu'
    obtain rfl := hw.term_eq hu hu'
    rw [holds_eq_true hu', Term.holds_append ((Scope.level_term hu).trans (by omega))]
  rw [Bool.eq_iff_iff, hsame h hf hx more, hsame h' hf' hx' more']

end Ran

end Table

theorem Database.lawful_executor (db : Database) : db.executor.Lawful where
  found h := by
    obtain ⟨tables, p, listed, rows, groups, kept, h⟩ := ran_of_runs h
    obtain ⟨first, hf, -⟩ := h.first
    exact ⟨first.rows, by rw [rows?_executor, hf, Option.map_some]⟩
  first h _ hc _ _ hk rest := by
    obtain ⟨tables, p, listed, rows, groups, kept, h⟩ := ran_of_runs h
    exact h.joinedKey?_first hc hk rest
  single h hg hi := by
    obtain ⟨tables, p, listed, rows, groups, kept, h⟩ := ran_of_runs h
    rw [h.groups_eq, h.passing_eq, h.groups_of_single hg hi]
  whole h hg hi := by
    obtain ⟨tables, p, listed, rows, groups, kept, h⟩ := ran_of_runs h
    obtain ⟨row, hgroups⟩ := h.groups_of_whole hg hi
    exact ⟨_, h.groups_eq.trans hgroups, by rw [h.passing_eq]⟩
  grouped h hg := by
    obtain ⟨tables, p, listed, rows, groups, kept, h⟩ := ran_of_runs h
    exact h.partitions hg
  rows h hl ho := by
    obtain ⟨tables, p, listed, rows, groups, kept, h⟩ := ran_of_runs h
    obtain rfl := h.answer
    rw [h.kept_eq]
    exact h.listed_rows hl ho
  countOf h hl ho := by
    obtain ⟨tables, p, listed, rows, groups, kept, h⟩ := ran_of_runs h
    obtain rfl := h.answer
    rw [h.kept_eq, answerOf, (h.listed_rows hl ho).length_eq, List.length_map]
    exact ⟨rfl, rfl⟩
  countDistinct h _ _ hi := by
    obtain ⟨tables, p, listed, rows, groups, kept, h⟩ := ran_of_runs h
    obtain rfl := h.answer
    exact ⟨(h.listed_countDistinct hi).1, fun g _ => (h.listed_countDistinct hi).2 g⟩
  items h hi hn := by
    obtain ⟨tables, p, listed, rows, groups, kept, h⟩ := ran_of_runs h
    obtain rfl := h.answer
    obtain ⟨hcolumns, hcells⟩ := h.listed_items hn hi
    exact ⟨hcolumns, fun g hg => ⟨g.row, h.row_mem hi hg, hcells g⟩⟩
  deterministic _ _ hf _ _ _ _ g := by
    simp only [executor, hf]
  known h h' _ hf hf' _ hx hx' hk _ _ hr more more' := by
    obtain ⟨_, _, _, _, _, _, h⟩ := ran_of_runs h
    obtain ⟨_, _, _, _, _, _, h'⟩ := ran_of_runs h'
    exact holds_known h h' hf hf' hx hx' hk hr more more'

section Columns

variable {db : Database} {t : Table} {name column : String} {k : Nat} {rows : List (List Cell)}

theorem Database.identified_of_column (ht : db.table? name = some t) (hk : place? t.columns column = some k)
    (hp : ∀ x ∈ t.rows, ((x[k]?).bind Cell.key?).isSome) (hn : (t.rows.map fun x => (x[k]?).bind Cell.key?).Nodup)
    (h : db.executor.rows? name = some rows) : db.executor.Identified name [column] rows := by
  have hkey (x : List Cell) : db.executor.key? name column x = (x[k]?).bind Cell.key? := by
    simp only [executor, ht, Option.bind_eq_bind, Option.bind_some, hk]
  obtain rfl : t.rows = rows := by simpa [rows?_executor, ht] using h
  refine ⟨fun x hx i hi => ?_, ?_⟩
  · rw [List.mem_singleton.1 hi, hkey]
    exact Option.isSome_iff_exists.1 (hp x hx)
  · simp only [List.map_singleton, hkey]
    rw [List.Nodup, List.pairwise_map] at hn ⊢
    exact hn.imp fun hne he => hne (List.singleton_inj.1 he)

/-- Whether there are so many cells of a column is the same in whatever order the rows come. -/
theorem Database.holds_count_of_perm {s : Sql.Statement} {x : Sql.Expr} {op : Comparator} {k : Table.Slot} {c : Cell}
    (hx : (scopeOf db s.select.fromClause).term true x =
      .ok (.compare op (.aggregate .count false (.slot k)) (.const c))) {g g' : Table.Group} (h : g.rows.Perm g'.rows) :
    db.executor.holds s x g = db.executor.holds s x g' := by
  have hv (g : Table.Group) : (Term.compare op (.aggregate .count false (.slot k)) (.const c)).value g =
      .ok (.ofTruth ((Cell.ofRows (g.rows.countP fun r => !(Row.cell r k).isNull)).compareWith op c)) := by
    have hm : g.rows.mapM (fun r => (Term.slot k).value (.single r)) = .ok (g.rows.map (Row.cell · k)) :=
      List.mapM_pure
    have hc : ((g.rows.map (Row.cell · k)).filter (!·.isNull)).length =
        g.rows.countP fun r => !(Row.cell r k).isNull := by
      rw [← List.countP_eq_length_filter, List.countP_map]
      rfl
    rw [Term.value, Term.value, Term.value, hm, ← hc]
    rfl
  rw [Bool.eq_iff_iff, holds_eq_true hx, holds_eq_true hx, Term.holds, Term.holds, hv, hv, h.countP_eq] <;> simp

end Columns

end Sift
