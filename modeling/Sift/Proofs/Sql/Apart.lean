import Sift.Proofs.Sql.Blank

namespace Sift.Sql

variable {d : Dialect} {P Q : Prop} {ps qs ps' qs' : List Piece}

/-- Whatever follows each of them, the text differs or a value does. -/
def Apart (d : Dialect) (ps qs : List Piece) : Prop :=
  ∀ n rest rest', ¬ (d.prepareFrom n (ps ++ rest) = d.prepareFrom n (qs ++ rest') ∧
    Piece.values (ps ++ rest) = Piece.values (qs ++ rest'))

namespace Apart

theorem cons (h : Apart d ps qs) (p : Piece) : Apart d (p :: ps) (p :: qs) := by
  rintro n rest rest' ⟨ht, hv⟩
  cases p with
  | text s => exact h n rest rest' ⟨(String.append_right_inj s).1 ht, hv⟩
  | value b => exact h (n + 1) rest rest' ⟨(String.append_right_inj _).1 ht, (List.cons.inj hv).2⟩

theorem after (h : Apart d ps qs) (before : List Piece) : Apart d (before ++ ps) (before ++ qs) := by
  induction before with
  | nil => exact h
  | cons p before ih => exact ih.cons p

theorem append (h : Apart d ps qs) (ps' qs' : List Piece) : Apart d (ps ++ ps') (qs ++ qs') := by
  intro n rest rest'
  rw [List.append_assoc, List.append_assoc]
  exact h n (ps' ++ rest) (qs' ++ rest')

theorem of_value {b c : Bound} (h : b ≠ c) : Apart d (.value b :: ps) (.value c :: qs) := by
  rintro n rest rest' ⟨-, hv⟩
  exact h (List.cons.inj hv).1

theorem of_head {a b : Char} {s t : String} (hs : s.toList.head? = some a) (ht : t.toList.head? = some b)
    (h : a ≠ b) : Apart d (.text s :: ps) (.text t :: qs) := by
  rintro n rest rest' ⟨he, -⟩
  have hh := congrArg (fun u : String => u.toList.head?) he
  simp only [List.cons_append, Dialect.prepareFrom, String.toList_append, List.head?_append, hs, ht,
    Option.some_or, Option.some.injEq] at hh
  exact h hh

end Apart

structure Shows (d : Dialect) (P : Prop) (ps qs : List Piece) : Prop where
  same : P → ps = qs
  apart : ¬ P → Apart d ps qs

namespace Shows

theorem refl (ps : List Piece) : Shows d True ps ps := ⟨fun _ => rfl, fun h => absurd trivial h⟩

theorem cons (h : Shows d P ps qs) (p : Piece) : Shows d P (p :: ps) (p :: qs) :=
  ⟨fun hP => congrArg (p :: ·) (h.same hP), fun hP => (h.apart hP).cons p⟩

theorem after (h : Shows d P ps qs) (before : List Piece) : Shows d P (before ++ ps) (before ++ qs) :=
  ⟨fun hP => congrArg (before ++ ·) (h.same hP), fun hP => (h.apart hP).after before⟩

theorem before (h : Shows d P ps qs) (after : List Piece) : Shows d P (ps ++ after) (qs ++ after) :=
  ⟨fun hP => congrArg (· ++ after) (h.same hP), fun hP => (h.apart hP).append after after⟩

/-- Of two parts the first is apart or, if it is the same, the second. -/
theorem append (h : Shows d P ps qs) (h' : Shows d Q ps' qs') : Shows d (P ∧ Q) (ps ++ ps') (qs ++ qs') := by
  refine ⟨fun hP => ?_, fun hn => ?_⟩
  · rw [h.same hP.1, h'.same hP.2]
  · by_cases hP : P
    · rw [h.same hP]
      exact (h'.apart fun hQ => hn ⟨hP, hQ⟩).after qs
    · exact (h.apart hP).append ps' qs'

theorem brackets (h : Shows d P ps qs) (needed : Bool) :
    Shows d P (Dialect.brackets needed ps) (Dialect.brackets needed qs) := by
  cases needed with
  | false => exact h
  | true => exact (h.cons _).before _

theorem prepared_eq_iff (h : Shows d P ps qs) :
    (⟨d.prepare ps, Piece.values ps⟩ : Prepared) = ⟨d.prepare qs, Piece.values qs⟩ ↔ P := by
  constructor
  · intro he
    obtain ⟨ht, hv⟩ := Prepared.mk.inj he
    by_contra hn
    apply h.apart hn 1 [] []
    rw [List.append_nil, List.append_nil]
    exact ⟨ht, hv⟩
  · intro hP
    rw [h.same hP]

end Shows

variable {e e' f f' : Expr} {es es' : List Expr}

structure Tells (d : Dialect) (P : Prop) (e e' : Expr) : Prop where
  isAtom : e.isAtom = e'.isAtom
  isTest : e.isTest = e'.isTest
  isAnd : e.isAnd = e'.isAnd
  isOr : e.isOr = e'.isOr
  shows : Shows d P (d.expr e) (d.expr e')

namespace Tells

theorem refl (e : Expr) : Tells d True e e := ⟨rfl, rfl, rfl, rfl, .refl _⟩

theorem congr (h : Tells d P e e') (hP : P ↔ Q) : Tells d Q e e' := propext hP ▸ h

theorem not (h : Tells d P e e') : Tells d P (.not e) (.not e') := by
  refine ⟨rfl, rfl, rfl, rfl, ?_⟩
  rw [Dialect.expr, Dialect.expr, h.isAtom, h.isTest]
  exact (h.shows.brackets _).cons _

theorem combine (h : Tells d P e e') (h' : Tells d Q f f') (k : Combinator) :
    Tells d (P ∧ Q) (Filter.combine k e f) (Filter.combine k e' f') := by
  cases k with
  | all =>
      refine ⟨rfl, rfl, rfl, rfl, ?_⟩
      rw [Filter.combine, Dialect.expr, Dialect.expr, h.isAtom, h.isTest, h.isAnd, h'.isAtom, h'.isTest]
      exact (h.shows.brackets _).append ((h'.shows.brackets _).cons _)
  | any =>
      refine ⟨rfl, rfl, rfl, rfl, ?_⟩
      rw [Filter.combine, Dialect.expr, Dialect.expr, h.isAtom, h.isTest, h.isOr, h'.isAtom, h'.isTest]
      exact (h.shows.brackets _).append ((h'.shows.brackets _).cons _)

end Tells

inductive TellsAll (d : Dialect) : Prop → List Expr → List Expr → Prop
  | nil : TellsAll d True [] []
  | cons {P Q : Prop} {e e' : Expr} {es es' : List Expr} (h : Tells d P e e') (hs : TellsAll d Q es es') :
      TellsAll d (P ∧ Q) (e :: es) (e' :: es')

namespace TellsAll

theorem foldl (hs : TellsAll d Q es es') (h : Tells d P e e') (k : Combinator) :
    Tells d (P ∧ Q) (es.foldl (Filter.combine k) e) (es'.foldl (Filter.combine k) e') := by
  induction hs generalizing P e e' with
  | nil => exact h.congr (and_iff_left trivial).symm
  | cons h' hs ih => exact (ih (h.combine h' k)).congr and_assoc

theorem fold (hs : TellsAll d P es es') (k : Combinator) :
    Tells d P (Filter.fold k es) (Filter.fold k es') := by
  cases hs with
  | nil => exact .refl _
  | cons h hs => exact hs.foldl h k

end TellsAll

namespace Filter

variable {g g' : Filter}

inductive Tells (d : Dialect) (P : Prop) : Filter → Filter → Prop
  | group (negated : Bool) (k : Combinator) {members members' : List Filter}
      (h : TellsAll d P (toExprs members) (toExprs members')) :
      Tells d P (.group negated k members) (.group negated k members')

theorem tells_leaf (h : Sql.Tells d P e e') : Tells d P (.leaf e) (.leaf e') := by
  have hs := TellsAll.cons h .nil
  rw [and_true] at hs
  exact .group false .all hs

theorem Tells.negate (h : Tells d P g g') : Tells d P g.negate g'.negate := by
  cases h with
  | group negated k h => exact .group (!negated) k h

theorem Tells.toExpr (h : Tells d P g g') : Sql.Tells d P g.toExpr g'.toExpr := by
  cases h with
  | group negated k h =>
      rw [toExpr_group, toExpr_group]
      cases negated with
      | false => exact h.fold k
      | true => exact (h.fold k).not

end Filter

inductive Tells? (d : Dialect) : Prop → Option Expr → Option Expr → Prop
  | none : Tells? d True none none
  | some {P : Prop} {e e' : Expr} (h : Tells d P e e') : Tells? d P (some e) (some e')

theorem Tells?.clause {w w' : Option Expr} (h : Tells? d P w w') (word : String) :
    Shows d P (Dialect.clause word (w.map d.expr).toList) (Dialect.clause word (w'.map d.expr).toList) := by
  cases h with
  | none => exact .refl _
  | some h => exact h.shows.cons _

theorem shows_select (s : Select) {w w' v v' : Option Expr} (hw : Tells? d P w w') (hv : Tells? d Q v v') :
    Shows d (P ∧ Q) (d.select { s with filter := w, having := v })
      (d.select { s with filter := w', having := v' }) :=
  (((((((hw.clause "WHERE").after _).before _).append (hv.clause "HAVING")).before _).before _).before _)

end Sift.Sql
