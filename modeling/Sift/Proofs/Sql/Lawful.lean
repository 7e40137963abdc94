import Sift.Proofs.Sql.Executor

namespace Sift.Sql

def Expr.replace (text : String) (b : Bound) : Expr → Expr
  | .template t source name =>
    if (Expr.template t source name).templates = [text] then .bound b else .template t source name
  | .column source name => .column source name
  | .bound b => .bound b
  | .inMembers b m => .inMembers b m
  | .compare op left right => .compare op (left.replace text b) (right.replace text b)
  | .isIn e items => .isIn (e.replace text b) items
  | .isNull e => .isNull (e.replace text b)
  | .like e pattern => .like (e.replace text b) pattern
  | .matches e pattern => .matches (e.replace text b) pattern
  | .not e => .not (e.replace text b)
  | .and left right => .and (left.replace text b) (right.replace text b)
  | .or left right => .or (left.replace text b) (right.replace text b)

def Select.mapExprs (f : Expr → Expr) (s : Select) : Select :=
  { s with filter := s.filter.map f, having := s.having.map f, orderBy := s.orderBy.map fun x => (f x.1, x.2) }

def Statement.mapExprs (f : Expr → Expr) : Statement → Statement
  | .rows s => .rows (s.mapExprs f)
  | .countOf s => .countOf (s.mapExprs f)

section

variable {text : String} {b : Bound} {x : Expr} {s : Statement} {f : Expr → Expr}

theorem Expr.templates_replace {y : String} (h : y ∈ (x.replace text b).templates) : y ∈ x.templates := by
  induction x with
  | template t source name =>
      rw [replace] at h
      split at h
      · cases h
      · exact h
  | column | bound | inMembers => exact h
  | compare _ left right ihl ihr | and left right ihl ihr | or left right ihl ihr =>
      exact List.mem_append.2 ((List.mem_append.1 h).imp ihl ihr)
  | isIn e _ ih | isNull e ih | like e _ ih | «matches» e _ ih | not e ih => exact ih h

theorem Expr.replace_eq_self (h : text ∉ x.templates) : x.replace text b = x := by
  induction x with
  | template t source name =>
      rw [replace, if_neg]
      intro ht
      exact h (ht ▸ List.mem_singleton_self _)
  | column | bound | inMembers => rfl
  | compare _ left right ihl ihr | and left right ihl ihr | or left right ihl ihr =>
      rw [templates, List.mem_append, not_or] at h
      rw [replace, ihl h.1, ihr h.2]
  | isIn e _ ih | isNull e ih | like e _ ih | «matches» e _ ih | not e ih => rw [replace, ih h]

theorem Statement.select_mapExprs : (s.mapExprs f).select = s.select.mapExprs f := by
  cases s <;> rfl

theorem Select.mem_exprs_mapExprs {s : Select} (h : x ∈ (s.mapExprs f).exprs) : ∃ y ∈ s.exprs, x = f y := by
  simp only [exprs, mapExprs, List.mem_append, Option.mem_toList, Option.map_eq_some_iff, List.map_map,
    List.mem_map] at h ⊢
  rcases h with (⟨y, hy, rfl⟩ | ⟨y, hy, rfl⟩) | ⟨y, hy, rfl⟩
  · exact ⟨y, .inl (.inl hy), rfl⟩
  · exact ⟨y, .inl (.inr hy), rfl⟩
  · exact ⟨y.1, .inr ⟨y, hy, rfl⟩, rfl⟩

theorem Select.mem_conditions_mapExprs {s : Select} (h : x ∈ s.conditions) :
    f x ∈ (s.mapExprs f).conditions := by
  simp only [conditions, mapExprs, List.mem_append, Option.mem_toList, Option.map_eq_some_iff] at h ⊢
  exact h.imp (fun h => ⟨x, h, rfl⟩) fun h => ⟨x, h, rfl⟩

end

namespace Executor

variable {ρ κ : Type} {e e' : Executor ρ κ} {text : String} {s : Statement} {t : Table}

theorem joined_congr (hr : e'.rows? = e.rows?) (hb : e'.blank = e.blank) (hf : e'.fits = e.fits) (f : FromClause) :
    e'.joined f = e.joined f := by
  have hfollow (f : FromClause) (js : List TableJoin) (rows : List (List ρ)) :
      e'.follow f js rows = e.follow f js rows := by
    induction js generalizing f rows with
    | nil => rfl
    | cons j js ih =>
        have hx : e'.extend f j = e.extend f j := by
          funext r
          rw [extend, extend, hr, hb, hf]
        rw [follow, follow, hx, ih]
  rw [joined, joined, hr, hfollow]

section Answering

variable {answer : Statement → Except SqlError Table}

/-- A database with other answers to the statements in which a text is written that is no expression. -/
def answering (e : Executor ρ κ) (text : String) (answer : Statement → Except SqlError Table) : Executor ρ κ :=
  { e with
    run s := if text ∈ s.select.exprs.flatMap Expr.templates then answer s else e.run s
    isExpression y := e.isExpression y ∧ y ≠ text }

theorem Runs.of_answering (h : (e.answering text answer).Runs s t) : e.Runs s t := by
  have hn : text ∉ s.select.exprs.flatMap Expr.templates := by
    intro hm
    obtain ⟨x, hx, hy⟩ := List.mem_flatMap.1 hm
    exact (h.expressions x hx text hy).2 rfl
  exact ⟨(if_neg hn).symm.trans h.answer, fun x hx y hy => (h.expressions x hx y hy).1⟩

theorem run_answering (h : text ∈ s.select.exprs.flatMap Expr.templates) :
    (e.answering text answer).run s = answer s := if_pos h

theorem passing_answering : (e.answering text answer).passing s = e.passing s := by
  have hj : (e.answering text answer).joined = e.joined := funext (joined_congr rfl rfl rfl)
  rw [passing, passing, hj]
  rfl

theorem Lawful.answering [DecidableEq κ] (hl : e.Lawful) (text : String)
    (answer : Statement → Except SqlError Table) : (e.answering text answer).Lawful where
  found h := hl.found h.of_answering
  first h := hl.first h.of_answering
  single h := by
    rw [passing_answering]
    exact hl.single h.of_answering
  whole h := by
    rw [passing_answering]
    exact hl.whole h.of_answering
  grouped h hg := by
    obtain ⟨hcovers, hnodup, hmem, hrows⟩ := hl.grouped h.of_answering hg
    refine ⟨?_, hnodup, hmem, ?_⟩ <;> rw [passing_answering]
    · exact hcovers
    · exact hrows
  rows h := hl.rows h.of_answering
  countOf h := hl.countOf h.of_answering
  countDistinct h := hl.countDistinct h.of_answering
  items h := hl.items h.of_answering
  deterministic h h' := hl.deterministic h.of_answering h'.of_answering
  known h h' := hl.known h.of_answering h'.of_answering

end Answering

section Redraw

variable {draw : Statement → Bound}

def drawn (text : String) (draw : Statement → Bound) (s : Statement) : Statement :=
  s.mapExprs (·.replace text (draw s))

/-- A database with a function that gives each statement another value. -/
def redraw (e : Executor ρ κ) (text : String) (draw : Statement → Bound) : Executor ρ κ :=
  { e with
    run s := e.run (drawn text draw s)
    holds s x g := e.holds (drawn text draw s) (x.replace text (draw s)) g
    groups s := e.groups (drawn text draw s)
    cells s g := e.cells (drawn text draw s) g
    isDeterministic y := e.isDeterministic y ∧ y ≠ text }

theorem select_drawn : (drawn text draw s).select = s.select.mapExprs (·.replace text (draw s)) :=
  Statement.select_mapExprs

theorem Runs.of_redraw (h : (e.redraw text draw).Runs s t) : e.Runs (drawn text draw s) t := by
  refine ⟨h.answer, fun x hx y hy => ?_⟩
  rw [select_drawn] at hx
  obtain ⟨z, hz, rfl⟩ := Select.mem_exprs_mapExprs hx
  exact h.expressions z hz y (Expr.templates_replace hy)

theorem passing_redraw : (e.redraw text draw).passing s = e.passing (drawn text draw s) := by
  have hj : (e.redraw text draw).joined = e.joined := funext (joined_congr rfl rfl rfl)
  rw [passing, passing, hj, select_drawn]
  simp only [Select.mapExprs, Select.fromClause, Option.all_map]
  rfl

theorem kept_redraw : (e.redraw text draw).kept s = e.kept (drawn text draw s) := by
  rw [kept, kept, select_drawn]
  simp only [Select.mapExprs, Option.all_map]
  rfl

theorem groupKey_redraw (r : List ρ) : (e.redraw text draw).groupKey s r = e.groupKey (drawn text draw s) r := by
  rw [groupKey, groupKey, select_drawn]
  rfl

theorem replace_of_deterministic {x : Expr} (h : (e.redraw text draw).IsDeterministic x) (b : Bound) :
    e.IsDeterministic x ∧ x.replace text b = x :=
  ⟨fun y hy => (h y hy).1, Expr.replace_eq_self fun hm => (h text hm).2 rfl⟩

variable [DecidableEq κ]

theorem Lawful.redraw (hl : e.Lawful) (text : String) (draw : Statement → Bound) : (e.redraw text draw).Lawful where
  found h := by
    have hf := hl.found h.of_redraw
    rwa [select_drawn] at hf
  first h _ hc _ _ hk rest := by
    have hf := @Lawful.first _ _ _ _ hl _ _ h.of_redraw
    rw [select_drawn] at hf
    exact hf hc hk rest
  single h hg hi := by
    have hs := hl.single h.of_redraw
    rw [select_drawn] at hs
    rw [passing_redraw]
    exact hs hg hi
  whole h hg hi := by
    have hs := hl.whole h.of_redraw
    rw [select_drawn] at hs
    rw [passing_redraw]
    exact hs hg hi
  grouped h hg := by
    have hs := hl.grouped h.of_redraw
    rw [select_drawn] at hs
    obtain ⟨hcovers, hnodup, hmem, hrows⟩ := hs hg
    refine ⟨?_, ?_, hmem, ?_⟩ <;> simp only [passing_redraw, groupKey_redraw]
    · exact hcovers
    · exact hnodup
    · exact hrows
  rows h hl' ho := by
    rw [kept_redraw]
    exact hl.rows (f := Select.mapExprs _ _) h.of_redraw hl' ho
  countOf h hl' ho := by
    rw [kept_redraw]
    exact hl.countOf (f := Select.mapExprs _ _) h.of_redraw hl' ho
  countDistinct h _ _ hi := hl.countDistinct (f := Select.mapExprs _ _) h.of_redraw hi
  items h hi hn := hl.items (f := Select.mapExprs _ _) h.of_redraw hi hn
  deterministic {s s' _ _} h h' hf x hx hx' hd g := by
    have hx := Select.mem_conditions_mapExprs (f := (·.replace text (draw s))) hx
    have hx' := Select.mem_conditions_mapExprs (f := (·.replace text (draw s'))) hx'
    rw [(replace_of_deterministic hd _).2, ← select_drawn] at hx hx'
    have hs := hl.deterministic h.of_redraw h'.of_redraw (by rw [select_drawn, select_drawn]; exact hf) hx hx'
      (replace_of_deterministic hd (draw s)).1 g
    change e.holds _ _ g = e.holds _ _ g
    rwa [(replace_of_deterministic hd _).2, (replace_of_deterministic hd _).2]
  known {s s' _ _} h h' f hf hf' x hx hx' hk hd _ hr more more' := by
    have hs := @Lawful.known _ _ _ _ hl _ _ _ _ h.of_redraw h'.of_redraw f
    rw [select_drawn, select_drawn] at hs
    have hmap {s : Statement} (hx : s.select.filter = some x) :
        (s.select.mapExprs (·.replace text (draw s))).filter = some x := by
      rw [Select.mapExprs, hx, Option.map_some, (replace_of_deterministic hd _).2]
    change e.holds _ _ _ = e.holds _ _ _
    rw [(replace_of_deterministic hd _).2, (replace_of_deterministic hd _).2]
    exact hs hf hf' (hmap hx) (hmap hx') hk (replace_of_deterministic hd (draw s)).1 hr more more'

end Redraw

end Executor

end Sift.Sql
