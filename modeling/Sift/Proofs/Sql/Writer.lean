import Sift.Sql.Writer

namespace Sift.Sql

def Expr.conj? : List Expr → Option Expr
  | [] => none
  | e :: es => some (es.foldl .and e)

namespace Piece

theorem values_append (ps qs : List Piece) : values (ps ++ qs) = values ps ++ values qs :=
  List.filterMap_append

@[simp] theorem values_nil : values [] = [] := rfl

@[simp] theorem values_text (s : String) (ps : List Piece) : values (.text s :: ps) = values ps := rfl

@[simp] theorem values_value (b : Bound) (ps : List Piece) : values (.value b :: ps) = b :: values ps := rfl

end Piece

namespace Dialect

variable (d : Dialect)

@[simp] theorem values_brackets (needed : Bool) (ps : List Piece) :
    Piece.values (brackets needed ps) = Piece.values ps := by
  unfold brackets
  split
  · simp [Piece.values_append]
  · rfl

theorem values_commas (items : List Bound) :
    Piece.values (commas (items.map fun b => [.value b])) = items := by
  induction items with
  | nil => rfl
  | cons b items ih =>
      cases items with
      | nil => rfl
      | cons c items => simpa [commas, Piece.values_append] using ih

def values (e : Expr) : List Bound := Piece.values (d.expr e)

theorem values_and (left right : Expr) : d.values (.and left right) = d.values left ++ d.values right := by
  simp [values, expr, Piece.values_append]

theorem values_foldl_and (es : List Expr) (e : Expr) :
    d.values (es.foldl .and e) = d.values e ++ es.flatMap d.values := by
  induction es generalizing e with
  | nil => simp
  | cons f es ih => rw [List.foldl_cons, ih, values_and, List.flatMap_cons, List.append_assoc]

theorem values_conj? (es : List Expr) :
    (Expr.conj? es).toList.flatMap d.values = es.flatMap d.values := by
  cases es with
  | nil => rfl
  | cons e es => simp [Expr.conj?, values_foldl_and]

theorem values_isIn (source column : String) (items : List Bound) :
    d.values (.isIn (.column source column) items) = items := by
  simp [values, expr, Piece.values_append, Expr.isAtom, brackets, Dialect.column, values_commas]

theorem values_where (filter : Option Expr) :
    Piece.values (clause "WHERE" (filter.map d.expr).toList) = filter.toList.flatMap d.values := by
  cases filter with
  | none => rfl
  | some e => simp [clause, commas, values]

/-- Statements that only differ in their filters have the same values before and after those of the
filter. -/
theorem values_select (s : Select) :
    ∃ before after, ∀ filter, Piece.values (d.select { s with filter }) =
      before ++ (filter.toList.flatMap d.values ++ after) := by
  refine ⟨Piece.values (.text "SELECT " :: commas (s.items.map d.item) ++ .text " FROM " ::
      d.named s.table s.name ++ s.joins.flatMap d.join),
    Piece.values (clause "GROUP BY" (s.groupBy.map fun c => d.column c.1 c.2) ++
      clause "HAVING" (s.having.map d.expr).toList ++ clause "ORDER BY" (s.orderBy.map d.order) ++
      clause "LIMIT" (s.limit.map fun n => [.value (.rows n)]).toList ++
      clause "OFFSET" (s.offset.map fun n => [.value (.rows n)]).toList), fun filter => ?_⟩
  rw [← values_where, ← Piece.values_append, ← Piece.values_append]
  apply congrArg Piece.values
  simp only [select, List.append_assoc]

theorem values_statement_rows (s : Select) :
    Piece.values (d.statement (.rows s)) = Piece.values (d.select s) := rfl

theorem values_statement_countOf (s : Select) :
    Piece.values (d.statement (.countOf s)) = Piece.values (d.select s) := by
  simp [statement, Piece.values_append]

end Dialect

end Sift.Sql
