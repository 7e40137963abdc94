import Sift.Proofs.Condition
import Sift.Proofs.Named
import Sift.Proofs.Parameters
import Sift.Proofs.Raw
import Sift.Proofs.Sql.Apart
import Sift.Proofs.Sql.Failure
import Sift.Proofs.Sql.Width

namespace Sift

/-- Whether a test sees of its parameter what the value stands for. A parameter without a declared type is not
unwrapped: LIKE shows a wrapped text or null, and IN takes a wrapped list for a single value. -/
def Condition.isTransparent (ps : Named Parameter) : Condition → Bool
  | .like _ name => !(ps.get? name).any fun p =>
      p.declared.isNone && p.value.wraps fun v => v.isNull || v.text?.isSome
  | .isIn _ name => !(ps.get? name).any fun p => p.declared.isNone && p.value.wraps Value.isArray
  | _ => true

def Parameter.raw (p : Parameter) : Parameter := ⟨p.value.raw, p.declared⟩

namespace Query

def raw (q : Query) : Query := { q with parameters := q.parameters.mapEntries fun _ p => p.raw }

end Query

theorem Named.get?_mapEntries {α : Type} (f : α → α) (t : Named α) (name : String) :
    (t.mapEntries fun _ a => f a).get? name = (t.get? name).map f := by
  rw [get?, get?, ← lookup_map]
  rfl

open Sift.Except (Agree agree_bind)

namespace Sql

theorem Apart.of_placeholder {d : Dialect} {ps qs : List Piece} {b : Bound} {a : Char} {s : String}
    (hs : s.toList.head? = some a) (hq : a ≠ '?') (hd : a ≠ '$') :
    Apart d (.value b :: ps) (.text s :: qs) := by
  rintro n rest rest' ⟨he, -⟩
  have hp : (d.placeholder n).toList.head? = some '?' ∨ (d.placeholder n).toList.head? = some '$' := by
    cases d with
    | postgres =>
        rw [Dialect.placeholder, String.toList_append]
        exact .inr rfl
    | sqlite | mysql =>
        rw [Dialect.placeholder]
        exact .inl (by decide)
  have hh := congrArg (fun u : String => u.toList.head?) he
  simp only [List.cons_append, Dialect.prepareFrom, String.toList_append, List.head?_append, hs,
    Option.some_or] at hh
  rcases hp with hp | hp
  · rw [hp] at hh
    exact hq (Option.some.inj hh).symm
  · rw [hp] at hh
    exact hd (Option.some.inj hh).symm

variable {d : Dialect}

theorem tells_like (e : Expr) (a b : String) : Tells d (a = b) (.like e a) (.like e b) := by
  refine ⟨rfl, rfl, rfl, rfl, fun h => ?_, fun h => ?_⟩
  · rw [h]
  · exact ((Apart.of_value (mt Bound.text.inj h)).cons _).after _

theorem exists_expr_field (d : Dialect) (f : FieldRef) :
    ∃ s rest a, Dialect.brackets (!(Context.field f).isAtom) (d.expr (Context.field f)) = .text s :: rest ∧
      s.toList.head? = some a ∧ a ≠ '?' ∧ a ≠ '$' := by
  rw [Context.field]
  cases f.template with
  | none =>
      refine ⟨_, _, d.quoteMark, rfl, ?_, ?_⟩
      · rw [Dialect.qualify, Dialect.quote, String.toList_append, String.toList_append, String.toList_ofList]
        rfl
      · cases d <;> decide
  | some t => exact ⟨_, _, '(', rfl, rfl, by decide, by decide⟩

def listTest (f : FieldRef) (bs : List Bound) : Expr :=
  if bs.isEmpty then .always false else .isIn (Context.field f) bs

/-- A test of a list of values is not written as a test of a single one. -/
theorem tells_listTest (f : FieldRef) (bs : List Bound) (c : Bound) :
    Tells d (bs = [c]) (listTest f bs) (listTest f [c]) := by
  match bs with
  | [] =>
      refine ⟨rfl, rfl, rfl, rfl, fun h => absurd h (List.cons_ne_nil c []).symm, fun _ => ?_⟩
      obtain ⟨s, rest, a, he, hs, hq, hd⟩ := exists_expr_field d f
      change Apart d _ (Dialect.brackets _ _ ++ _ ++ _)
      rw [he]
      exact Apart.of_placeholder hs hq hd
  | [b] =>
      refine ⟨rfl, rfl, rfl, rfl, fun h => ?_, fun h => ?_⟩
      · rw [h]
      · have hb : b ≠ c := fun hb => h (congrArg (fun b => [b]) hb)
        exact (((Apart.of_value hb).cons _).after _).append _ _
  | b :: b' :: bs =>
      refine ⟨rfl, rfl, rfl, rfl, fun h => ?_, fun _ => ?_⟩
      · cases h
      · have hs : Apart d (.text ", " :: (Dialect.commas ((b' :: bs).map fun b => [.value b]) ++ [.text ")"]))
            [.text ")"] := Apart.of_head rfl rfl (by decide)
        simp only [listTest, List.isEmpty_cons, Bool.false_eq_true, if_false, Dialect.expr, List.map_cons,
          Dialect.commas, List.append_assoc, List.cons_append, List.nil_append, List.map_nil]
        apply Apart.after
        apply Apart.cons
        by_cases hb : b = c
        · rw [hb]
          exact hs.cons _
        · exact Apart.of_value hb

namespace Context

variable {x : Context}

def raw (x : Context) : Context := { x with parameters := x.parameters.mapEntries fun _ p => p.raw }

theorem leaf_listTest (x : Context) (f : FieldRef) (param : String) :
    x.leaf (.isIn f param) = (x.parameter param).map fun v => listTest f (v.elements.map .ofValue) := by
  rw [leaf_isIn]
  simp only [listTest, List.isEmpty_map]

/-- Only a value without a declared type is read with its wrappers. -/
theorem parameter_raw (x : Context) (name : String) :
    (x.raw.parameter name = x.parameter name ∧ ∀ p ∈ x.parameters.get? name, p.declared.isNone = false) ∨
      ∃ v, x.parameters.get? name = some ⟨v, none⟩ ∧ x.raw.parameter name = .ok v.raw ∧
        x.parameter name = .ok v := by
  rw [parameter, parameter, raw, Named.get?_mapEntries]
  cases x.parameters.get? name with
  | none => exact .inl ⟨rfl, fun p hp => nomatch hp⟩
  | some p =>
      obtain ⟨v, declared⟩ := p
      cases declared with
      | none => exact .inr ⟨v, rfl, rfl, rfl⟩
      | some t =>
          refine .inl ⟨congrArg Except.ok (Coercion.toType_raw t v), ?_⟩
          rintro _ ⟨⟩
          rfl

theorem scalar_raw (x : Context) (name : String) : x.raw.scalar name = x.scalar name := by
  rw [scalar, scalar]
  obtain ⟨h, -⟩ | ⟨v, -, hr, hv⟩ := parameter_raw x name
  · rw [h]
  · rw [hr, hv]
    exact congrArg Except.ok (Bound.ofValue_raw v)

theorem elements_raw {v : Value} (h : v.wraps Value.isArray = false) :
    v.raw.elements.map Bound.ofValue = v.elements.map .ofValue := by
  cases v with
  | array items =>
      rw [Value.raw, Value.elements, Value.elements, Value.rawItems_eq_map, List.map_map]
      exact List.map_congr_left fun w _ => Bound.ofValue_raw w
  | null | bool | int | float | text => rfl
  | backed w =>
      have hv : (Value.backed w).raw.elements = [(Value.backed w).raw] := by
        rw [Value.raw]
        change w.raw.isArray = false at h
        cases hw : w.raw with
        | array items =>
            rw [hw] at h
            cases h
        | null | bool | int | float | text | backed => rfl
      rw [hv, List.map_singleton, Bound.ofValue_raw]
      rfl

theorem elements_raw_ne {v : Value} (h : v.wraps Value.isArray = true) :
    v.elements = [v] ∧ v.raw.elements.map Bound.ofValue ≠ [.ofValue v] := by
  cases v with
  | null | bool | int | float | text | array => cases h
  | backed w =>
      refine ⟨rfl, ?_⟩
      change w.raw.isArray = true at h
      rw [← Bound.ofValue_raw, Value.raw]
      cases hw : w.raw with
      | array items =>
          intro he
          obtain ⟨u, rfl, hu⟩ := List.map_eq_singleton_iff.1 he
          exact Bound.ofValue_ne_singleton u hu
      | null | bool | int | float | text | backed =>
          rw [hw] at h
          cases h

theorem any_eq_false_of_typed {o : Option Parameter} (h : ∀ p ∈ o, p.declared.isNone = false)
    (kind : Value → Bool) : (o.any fun p => p.declared.isNone && p.value.wraps kind) = false := by
  cases o with
  | none => rfl
  | some p => rw [Option.any_some, h p rfl, Bool.false_and]

/-- A test is written alike with and without wrappers if and only if it is transparent. -/
theorem leaf_raw (d : Dialect) (x : Context) {c : Condition} (hc : c.isTest = true) :
    Agree (Tells d (c.isTransparent x.parameters = true)) (x.raw.leaf c) (x.leaf c) := by
  have hs (ht : c.isTransparent x.parameters = true) (h : x.raw.leaf c = x.leaf c) :
      Agree (Tells d (c.isTransparent x.parameters = true)) (x.raw.leaf c) (x.leaf c) := by
    rw [h]
    cases x.leaf c with
    | error e => exact .error e
    | ok e => exact .ok ((Tells.refl e).congr (iff_of_true trivial ht))
  cases c with
  | compare f op param =>
      apply hs rfl
      rw [leaf, leaf, scalar_raw]
  | memberOf param f | regexp f param =>
      apply hs rfl
      rw [leaf, leaf, scalar_raw]
      rfl
  | isNull | never => exact hs rfl rfl
  | not | and | or => cases hc
  | like f param =>
      obtain ⟨h, ht⟩ | ⟨v, hp, hr, hv⟩ := parameter_raw x param
      · apply hs
        · rw [Condition.isTransparent, any_eq_false_of_typed ht, Bool.not_false]
        · rw [leaf, leaf, h]
      · rw [leaf, leaf, hr, hv, Condition.isTransparent, hp]
        refine .ok ((tells_like _ _ _).congr ((Value.indexKey_raw_iff v).trans ?_))
        simp
  | isIn f param =>
      rw [leaf_listTest, leaf_listTest] at hs ⊢
      obtain ⟨h, ht⟩ | ⟨v, hp, hr, hv⟩ := parameter_raw x param
      · apply hs
        · rw [Condition.isTransparent, any_eq_false_of_typed ht, Bool.not_false]
        · rw [h]
      · cases hw : v.wraps Value.isArray with
        | false =>
            apply hs
            · rw [Condition.isTransparent, hp, Option.any_some, hw, Bool.and_false, Bool.not_false]
            · rw [hr, hv]
              exact congrArg (fun bs => Except.ok (listTest f bs)) (elements_raw hw)
        | true =>
            obtain ⟨hl, hn⟩ := elements_raw_ne hw
            have hf : (Condition.isIn f param).isTransparent x.parameters = false := by
              rw [Condition.isTransparent, hp, Option.any_some, hw]
              rfl
            rw [hr, hv, hf]
            have ht := tells_listTest (d := d) f (v.raw.elements.map Bound.ofValue) (.ofValue v)
            rw [← List.map_singleton, ← hl] at ht
            exact .ok (ht.congr (iff_of_false (by rwa [hl, List.map_singleton]) Bool.false_ne_true))

mutual

theorem filter_raw (d : Dialect) (x : Context) (c : Condition) :
    Agree (Filter.Tells d (∀ t ∈ c.tests, t.isTransparent x.parameters = true)) (x.raw.filter c)
      (x.filter c) := by
  match c with
  | .and [] =>
      have h := Filter.tells_leaf (Tells.refl (d := d) (.always true))
      exact .ok (by simpa [Condition.tests, Condition.testsAll] using h)
  | .or [] =>
      have h := Filter.tells_leaf (Tells.refl (d := d) (.always false))
      exact .ok (by simpa [Condition.tests, Condition.testsAll] using h)
  | .and (c :: cs) | .or (c :: cs) =>
      simp only [filter, Condition.tests]
      apply (filters_raw d x (c :: cs)).map
      intro fs gs h
      exact .group false _ h
  | .not inner =>
      rw [filter, filter, Condition.tests]
      apply (filter_raw d x inner).map
      intro f g h
      exact h.negate
  | .compare .. | .isNull .. | .isIn .. | .like .. | .memberOf .. | .regexp .. | .never =>
      simp only [filter, Condition.tests, List.forall_mem_singleton]
      apply (leaf_raw d x rfl).map
      intro e e' h
      exact Filter.tells_leaf h

theorem filters_raw (d : Dialect) (x : Context) (cs : List Condition) :
    Agree (fun fs gs => TellsAll d (∀ t ∈ Condition.testsAll cs, t.isTransparent x.parameters = true)
      (Filter.toExprs fs) (Filter.toExprs gs)) (x.raw.filters cs) (x.filters cs) := by
  match cs with
  | [] =>
      rw [Condition.testsAll, eq_true (List.forall_mem_nil _)]
      exact .ok .nil
  | c :: cs =>
      rw [filters, filters, Condition.testsAll]
      apply (filter_raw d x c).bind
      intro f g h
      apply (filters_raw d x cs).bind
      intro fs gs hs
      rw [List.forall_mem_append]
      exact .ok (.cons h.toExpr hs)

end

theorem expr?_raw (d : Dialect) (x : Context) (c : Option Condition) :
    Agree (Tells? d (∀ t ∈ c.toList.flatMap Condition.tests, t.isTransparent x.parameters = true))
      (x.raw.expr? c) (x.expr? c) := by
  cases c with
  | none =>
      rw [Option.toList_none, List.flatMap_nil, eq_true (List.forall_mem_nil _)]
      exact .ok .none
  | some c =>
      rw [expr?, expr?, expr, expr, Option.toList_some, List.flatMap_singleton]
      apply ((filter_raw d x c).map (S := Tells d _) fun f g h => h.toExpr).map
      intro e e' h
      exact .some h

end Context

def Statement.Tells (d : Dialect) (P : Prop) (s t : Statement) : Prop :=
  Shows d P (d.statement s) (d.statement t)

section Statements

variable {P Q : Prop} {w w' v v' : Option Expr}

theorem tells_rows (s : Select) (hw : Tells? d P w w') (hv : Tells? d Q v v') :
    Statement.Tells d (P ∧ Q) (.rows { s with filter := w, having := v })
      (.rows { s with filter := w', having := v' }) :=
  shows_select s hw hv

theorem tells_countOf (s : Select) (hw : Tells? d P w w') (hv : Tells? d Q v v') :
    Statement.Tells d (P ∧ Q) (.countOf { s with filter := w, having := v })
      (.countOf { s with filter := w', having := v' }) :=
  ((shows_select s hw hv).cons _).before _

theorem countStatement_raw (x : Context) (q : Query) (root : Entity) (s : Select) (hw : Tells? d P w w') :
    Agree (Statement.Tells d (P ∧ ∀ c ∈ q.havingCondition.toList.flatMap Condition.tests,
        c.isTransparent x.parameters = true))
      (countStatement x.raw q.raw root { s with filter := w, having := none })
      (countStatement x q root { s with filter := w', having := none }) := by
  have hv := Context.expr?_raw d x q.havingCondition
  unfold countStatement
  rw [Query.raw]
  -- groups are counted for several identifiers, and for one under a condition on groups
  have hg (items : List Item) (groupBy : List (String × String)) :
      Agree (Statement.Tells d (P ∧ ∀ c ∈ q.havingCondition.toList.flatMap Condition.tests,
          c.isTransparent x.parameters = true))
        (x.raw.expr? q.havingCondition >>= fun having =>
          .ok (.countOf { s with filter := w, items, groupBy, having }))
        (x.expr? q.havingCondition >>= fun having =>
          .ok (.countOf { s with filter := w', items, groupBy, having })) :=
    hv.bind fun v v' hv => .ok (tells_countOf { s with items, groupBy } hw hv)
  cases root.identifier with
  | nil => exact .error _
  | cons i is =>
      cases is with
      | cons j is => exact hg _ _
      | nil =>
          cases hh : q.havingCondition with
          | some c =>
              rw [hh] at hg
              exact hg _ _
          | none =>
              rw [Option.toList_none, List.flatMap_nil, eq_true (List.forall_mem_nil _)]
              exact .ok (tells_rows { s with items := [.countDistinct q.root i] } hw .none)

end Statements

/-- The statement of a query shows whether one of its tests looks at a wrapper. -/
theorem render_raw (schema : Schema) (d : Dialect) (q : Query) :
    Agree (Statement.Tells d (∀ c ∈ q.tests, c.isTransparent q.parameters = true))
      (render schema d q.raw) (render schema d q) := by
  rw [Query.tests, List.forall_mem_append]
  apply agree_bind (schema.require q.entity)
  intro root
  apply agree_bind (q.joins.foldlM (addJoin schema) (Named.empty.put q.root root, []))
  rintro ⟨sources, joins⟩
  have he (c : Option Condition) := Context.expr?_raw d ⟨schema, d, q.parameters, sources⟩ c
  apply (he q.whereCondition).bind
  intro w w' hw
  let base : Select :=
    { items := [], table := root.table, name := q.root, joins, filter := none, groupBy := [], having := none
      orderBy := [], limit := none, offset := none }
  cases hp : q.projection with
  | count =>
      simp only [Query.raw, hp]
      exact countStatement_raw ⟨schema, d, q.parameters, sources⟩ q root base hw
  | entity =>
      simp only [Query.raw, hp]
      apply (he q.havingCondition).bind
      intro v v' hv
      exact .ok (tells_rows { base with
        items := entityItems q root, groupBy := groupItems q root, orderBy := orderItems q
        limit := limitOf d q, offset := q.firstResult } hw hv)

/-- Replacing the values of its parameters by what they stand for makes a query fail as it did. It leaves the
statement and its values as they were if and only if all tests are transparent, or if both fail. -/
theorem build_raw_eq_iff (schema : Schema) (d : Dialect) (q : Query) :
    (∀ e, build schema d q.raw = .error e ↔ build schema d q = .error e) ∧
      (build schema d q.raw = build schema d q ↔
        (∃ e, build schema d q = .error e) ∨ ∀ c ∈ q.tests, c.isTransparent q.parameters = true) := by
  have h := render_raw schema d q
  rw [build_eq_map, build_eq_map]
  generalize render schema d q.raw = s at h
  generalize render schema d q = t at h
  cases h with
  | error e => exact ⟨fun _ => Iff.rfl, iff_of_true rfl (.inl ⟨e, rfl⟩)⟩
  | ok h =>
      constructor
      · intro e
        exact iff_of_false (fun he => nomatch he) (fun he => nomatch he)
      · rw [Except.map, Except.map, Except.ok.injEq]
        apply h.prepared_eq_iff.trans
        simp

/-- Of compiled criteria LIKE takes a wrapped text in quotes, and IN a wrapped list for one value. -/
theorem build_raw_ne :
    let named := (Selectable.empty.andWhere (.like (.plain "main" "name") "p")).parameter "p" (.backed (.text "A%"))
    let among := (Selectable.empty.andWhere (.isIn (.plain "main" "id") "p")).parameter "p"
      (.backed (.array [.int 1, .int 2]))
    (∃ q, Query.compile .musicians [.selectable named] [] .entity none none = .ok q ∧
      build Catalog.musicians.schema .sqlite q.raw ≠ build Catalog.musicians.schema .sqlite q) ∧
    ∃ q, Query.compile .musicians [.selectable among] [] .entity none none = .ok q ∧
      build Catalog.musicians.schema .sqlite q.raw ≠ build Catalog.musicians.schema .sqlite q := by
  refine ⟨⟨_, rfl, fun h => ?_⟩, ⟨_, rfl, fun h => ?_⟩⟩
  · have hv : (Except.ok [Bound.text "A%"] : Except SqlError _) = .ok [.text "'A%'"] :=
      congrArg (Except.map Prepared.values) h
    revert hv
    simp
  · have hv : (Except.ok [Bound.int 1, .int 2] : Except SqlError _) = .ok [.text "[1,2]"] :=
      congrArg (Except.map Prepared.values) h
    revert hv
    simp

end Sql

end Sift
