import Sift.Proofs.Sql.Flat

namespace Sift.Sql

def Expr.blank : Expr → Expr
  | .column source name => .column source name
  | .template text source name => .template text source name
  | .bound _ => .bound .null
  | .compare op left right => .compare op left.blank right.blank
  | .isIn left items => .isIn left.blank (items.map fun _ => .null)
  | .inMembers _ members => .inMembers .null members
  | .isNull e => .isNull e.blank
  | .like e _ => .like e.blank ""
  | .matches e _ => .matches e.blank .null
  | .not e => .not e.blank
  | .and left right => .and left.blank right.blank
  | .or left right => .or left.blank right.blank

namespace Expr

@[simp] theorem blank_blank (e : Expr) : e.blank.blank = e.blank := by
  induction e <;> simp_all [blank]

@[simp] theorem isAtom_blank (e : Expr) : e.blank.isAtom = e.isAtom := by cases e <;> rfl

@[simp] theorem isTest_blank (e : Expr) : e.blank.isTest = e.isTest := by cases e <;> rfl

@[simp] theorem isAnd_blank (e : Expr) : e.blank.isAnd = e.isAnd := by cases e <;> rfl

@[simp] theorem isOr_blank (e : Expr) : e.blank.isOr = e.isOr := by cases e <;> rfl

end Expr

namespace Filter

mutual

def blank : Filter → Filter
  | .test e => .test e.blank
  | .group negated combinator members => .group negated combinator (blanks members)

def blanks : List Filter → List Filter
  | [] => []
  | f :: rest => f.blank :: blanks rest

end

theorem blank_negate (f : Filter) : f.negate.blank = f.blank.negate := by
  cases f <;> rfl

theorem blank_combine (k : Combinator) (left right : Expr) :
    (combine k left right).blank = combine k left.blank right.blank := by
  cases k <;> rfl

def fold (k : Combinator) : List Expr → Expr
  | [] => .always (k = .all)
  | e :: es => es.foldl (combine k) e

theorem toExpr_group (negated : Bool) (k : Combinator) (members : List Filter) :
    (group negated k members).toExpr =
      if negated then .not (fold k (toExprs members)) else fold k (toExprs members) := by
  rw [toExpr]
  cases toExprs members <;> rfl

theorem blank_foldl (k : Combinator) (e : Expr) (es : List Expr) :
    (es.foldl (combine k) e).blank = (es.map Expr.blank).foldl (combine k) e.blank := by
  induction es generalizing e with
  | nil => rfl
  | cons e' es ih => rw [List.foldl_cons, ih, blank_combine, List.map_cons, List.foldl_cons]

theorem blank_fold (k : Combinator) {es es' : List Expr} (h : es.map Expr.blank = es'.map Expr.blank) :
    (fold k es).blank = (fold k es').blank := by
  cases es with
  | nil => rw [List.map_eq_nil_iff.1 h.symm]
  | cons e es =>
      obtain ⟨e', es', rfl, he, hes⟩ := List.map_eq_cons_iff.1 h.symm
      rw [fold, fold, blank_foldl, blank_foldl, he, hes]

mutual

-- what stands for a group without members has values of its own, so both sides are erased
theorem blank_toExpr (f : Filter) : f.blank.toExpr.blank = f.toExpr.blank := by
  match f with
  | .test e => exact e.blank_blank
  | .group negated k members =>
      have h := blank_fold k (blank_toExprs members)
      rw [blank, toExpr_group, toExpr_group]
      cases negated with
      | false => exact h
      | true => exact congrArg Expr.not h

theorem blank_toExprs (fs : List Filter) :
    (toExprs (blanks fs)).map Expr.blank = (toExprs fs).map Expr.blank := by
  match fs with
  | [] => rfl
  | f :: fs =>
      rw [blanks, toExprs, toExprs, List.map_cons, List.map_cons, blank_toExpr f, blank_toExprs fs]

end

end Filter

def Piece.blank : Piece → Piece
  | .text s => .text s
  | .value _ => .value .null

namespace Dialect

variable (d : Dialect)

theorem blank_brackets (needed : Bool) (ps : List Piece) :
    (brackets needed ps).map Piece.blank = brackets needed (ps.map Piece.blank) := by
  cases needed
  · rfl
  · simp [brackets, Piece.blank]

theorem blank_commas (pss : List (List Piece)) :
    (commas pss).map Piece.blank = commas (pss.map (·.map Piece.blank)) := by
  induction pss with
  | nil => rfl
  | cons ps pss ih =>
      cases pss with
      | nil => rfl
      | cons qs pss =>
          rw [commas, List.map_append, List.map_cons, ih]
          · rfl
          · simp

theorem blank_clause (word : String) (pss : List (List Piece)) :
    (clause word pss).map Piece.blank = clause word (pss.map (·.map Piece.blank)) := by
  cases pss with
  | nil => rfl
  | cons ps pss =>
      rw [clause, List.map_cons, blank_commas]
      · rfl
      · simp

/-- What is written of an expression shows its values only where they are bound. -/
theorem blank_expr (e : Expr) : (d.expr e.blank).map Piece.blank = (d.expr e).map Piece.blank := by
  induction e with
  | column | template => rfl
  | bound b => rfl
  | inMembers b m => rfl
  | isIn left items ih =>
      have hi : ((items.map fun _ => Bound.null).map fun b => [Piece.value b]).map (·.map Piece.blank) =
          (items.map fun b => [Piece.value b]).map (·.map Piece.blank) := by
        rw [List.map_map, List.map_map, List.map_map]
        rfl
      simp only [Expr.blank, expr, List.map_append, List.map_cons, blank_brackets, blank_commas, hi, ih,
        Expr.isAtom_blank]
  | compare op left right ihl ihr => simp [Expr.blank, expr, blank_brackets, ihl, ihr]
  | and left right ihl ihr | or left right ihl ihr => simp [Expr.blank, expr, blank_brackets, ihl, ihr]
  | isNull e ih | «matches» e b ih | like e b ih => simp [Expr.blank, expr, blank_brackets, ih, Piece.blank]
  | not e ih => simp [Expr.blank, expr, blank_brackets, ih]

theorem blank_where (word : String) (e : Option Expr) :
    (clause word ((e.map Expr.blank).map d.expr).toList).map Piece.blank =
      (clause word (e.map d.expr).toList).map Piece.blank := by
  rw [blank_clause, blank_clause]
  cases e with
  | none => rfl
  | some e => simp only [Option.map_some, Option.toList_some, List.map_cons, blank_expr]

end Dialect

def Select.blank (s : Select) : Select :=
  { s with filter := s.filter.map Expr.blank, having := s.having.map Expr.blank }

def Statement.blank : Statement → Statement
  | .rows s => .rows s.blank
  | .countOf s => .countOf s.blank

namespace Dialect

variable (d : Dialect)

theorem blank_select (s : Select) : (d.select s.blank).map Piece.blank = (d.select s).map Piece.blank := by
  simp only [select, Select.blank, List.map_append, List.map_cons, blank_where]

theorem blank_statement (s : Statement) :
    (d.statement s.blank).map Piece.blank = (d.statement s).map Piece.blank := by
  cases s with
  | rows s => exact d.blank_select s
  | countOf s =>
      simp only [Statement.blank, statement, List.map_append, List.map_cons, blank_select]

theorem prepareFrom_blank (n : Nat) (ps : List Piece) :
    d.prepareFrom n (ps.map Piece.blank) = d.prepareFrom n ps := by
  induction ps generalizing n with
  | nil => rfl
  | cons p ps ih =>
      cases p with
      | text s => exact congrArg (s ++ ·) (ih n)
      | value b => exact congrArg (d.placeholder n ++ ·) (ih (n + 1))

theorem length_values_blank (ps : List Piece) :
    (Piece.values (ps.map Piece.blank)).length = (Piece.values ps).length := by
  induction ps with
  | nil => rfl
  | cons p ps ih =>
      cases p with
      | text s => exact ih
      | value b => exact congrArg (· + 1) ih

end Dialect

def Prepared.outline (p : Prepared) : String × Nat := (p.text, p.values.length)

/-- Statements that only differ in their values are the same text, with as many values. -/
theorem outline_eq_of_blank (d : Dialect) {s t : Statement} (h : s.blank = t.blank) :
    (prepared d s).outline = (prepared d t).outline := by
  have hp : (d.statement s).map Piece.blank = (d.statement t).map Piece.blank := by
    rw [← d.blank_statement s, h, d.blank_statement t]
  have ht : d.prepare (d.statement s) = d.prepare (d.statement t) := by
    rw [Dialect.prepare, ← d.prepareFrom_blank, hp, d.prepareFrom_blank]
    rfl
  have hv : (Piece.values (d.statement s)).length = (Piece.values (d.statement t)).length := by
    rw [← Dialect.length_values_blank, hp, Dialect.length_values_blank]
  exact Prod.ext ht hv

end Sift.Sql
