import Sift.Proofs.Truth
import Sift.Sql.Render
import Sift.Table.Term

namespace Sift.Sql

/-- A database that computes with operands of type `γ`. Its operations are free. It is only known how it
takes truth values, and how it compares the numbers that statements use for them. -/
structure Engine (γ : Type) where
  column : String → String → γ
  template : String → String → String → γ
  bound : Bound → γ
  compare : Comparator → γ → γ → Truth
  among : γ → List γ → Truth
  isNull : γ → Truth
  like : γ → String → Truth
  matched : γ → γ → Truth
  /-- the keys of the rows of a table in which a column holds an operand -/
  related : String → String → String → γ → List γ
  ofTruth : Truth → γ
  truth : γ → Truth
  truth_ofTruth (t : Truth) : truth (ofTruth t) = t
  compare_one (t : Truth) : compare .eq (ofTruth t) (bound (.constant 1)) = t
  compare_constant (b : Bool) :
    compare .eq (bound (.constant 1)) (bound (.constant (if b then 1 else 0))) = some b

namespace Engine

def cells (column : String → String → Table.Cell) (template : String → String → String → Table.Cell)
    (related : String → String → String → Table.Cell → List Table.Cell) : Engine Table.Cell where
  column
  template
  related
  bound := .ofBound
  compare op a b := a.compareWith op b
  among := Table.Cell.among
  isNull c := some c.isNull
  like c pattern := (Table.likeCell c pattern).toOption.join
  matched c pattern := (Table.matchCell c pattern).toOption.join
  ofTruth := .ofTruth
  truth := Table.Cell.truth?
  truth_ofTruth := by rintro (_ | _ | _) <;> rfl
  compare_one := by rintro (_ | _ | _) <;> rfl
  compare_constant := by rintro (_ | _) <;> rfl

variable {γ : Type} (m : Engine γ)

def members (s : Members) : List γ := m.related s.table s.key s.column (m.column s.owner s.ownerKey)

def value : Expr → γ
  | .column source column => m.column source column
  | .template text source column => m.template text source column
  | .bound b => m.bound b
  | .compare op left right => m.ofTruth (m.compare op (value left) (value right))
  | .isIn left items => m.ofTruth (m.among (value left) (items.map m.bound))
  | .inMembers b s => m.ofTruth (m.among (m.bound b) (m.members s))
  | .isNull e => m.ofTruth (m.isNull (value e))
  | .like e pattern => m.ofTruth (m.like (value e) pattern)
  | .matches e pattern => m.ofTruth (m.matched (value e) (m.bound pattern))
  | .not e => m.ofTruth (Truth.not (m.truth (value e)))
  | .and left right => m.ofTruth (Truth.and (m.truth (value left)) (m.truth (value right)))
  | .or left right => m.ofTruth (Truth.or (m.truth (value left)) (m.truth (value right)))

def test (e : Expr) : Truth := m.truth (m.value e)

theorem test_not (e : Expr) : m.test (.not e) = Truth.not (m.test e) := m.truth_ofTruth _

theorem test_combine (k : Combinator) (left right : Expr) :
    m.test (Filter.combine k left right) = Truth.join k (m.test left) (m.test right) := by
  cases k <;> exact m.truth_ofTruth _

theorem test_always (b : Bool) : m.test (.always b) = some b :=
  (m.truth_ofTruth _).trans (m.compare_constant b)

theorem test_foldl (k : Combinator) (e : Expr) (es : List Expr) :
    m.test (es.foldl (Filter.combine k) e) = Truth.join k (m.test e) (Truth.group k (es.map m.test)) := by
  rw [← Truth.foldl_join]
  induction es generalizing e with
  | nil => rfl
  | cons e' es ih => rw [List.foldl_cons, ih, test_combine, List.map_cons, List.foldl_cons]

/-- A group of tests has the truth of the group of what they answer, and an empty one that of a group
without members. -/
theorem test_group (k : Combinator) (fs : List Filter) :
    m.test (Filter.group false k fs).toExpr = Truth.group k ((Filter.toExprs fs).map m.test) := by
  rw [Filter.toExpr]
  cases Filter.toExprs fs with
  | nil => exact m.test_always _
  | cons e es => exact m.test_foldl k e es

theorem test_negate (f : Filter) : m.test f.negate.toExpr = Truth.not (m.test f.toExpr) := by
  cases f with
  | test e => exact m.test_not e
  | group negated k fs =>
      rw [Filter.negate, Filter.toExpr, Filter.toExpr]
      cases negated with
      | false => exact m.test_not _
      | true => exact (congrArg Truth.not (m.test_not _)).symm ▸ (Truth.not_not _).symm

def operand (f : FieldRef) : γ :=
  match f.template with
  | none => m.column f.source f.column
  | some text => m.template text f.source f.column

theorem value_field (f : FieldRef) : m.value (Context.field f) = m.operand f := by
  rw [Context.field, operand]
  cases f.template <;> rfl

def isMember (b : γ) (source : String) (owner : Entity) : Association → Entity → Truth
  | .toOne _ column, _ => m.compare .eq (m.column source column) b
  | .toMany _ mappedBy, target =>
    m.among b (m.related target.table (target.identifier.headD "") mappedBy
      (m.column source (owner.identifier.headD "")))
  | .manyToMany _ joinTable sourceColumn targetColumn, _ =>
    m.among b (m.related joinTable targetColumn sourceColumn
      (m.column source (owner.identifier.headD "")))

end Engine

end Sift.Sql
