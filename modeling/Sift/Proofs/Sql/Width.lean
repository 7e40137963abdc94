import Sift.Proofs.Named
import Sift.Proofs.Sql.Blank

namespace Sift

def Value.width (v : Value) : Nat := v.elements.length

def Parameter.width (p : Parameter) : Nat := (Coercion.coerce p.declared p.value).width

def SameWidths (ps qs : Named Parameter) : Prop :=
  ps.entries.map (Prod.map id Parameter.width) = qs.entries.map (Prod.map id Parameter.width)

namespace SameWidths

variable {ps qs : Named Parameter}

theorem get? (h : SameWidths ps qs) (name : String) :
    (ps.get? name).map Parameter.width = (qs.get? name).map Parameter.width := by
  rw [Named.get?, Named.get?, ← Named.lookup_map, ← Named.lookup_map]
  exact congrArg (List.lookup name) h

theorem put (h : SameWidths ps qs) (name : String) {p q : Parameter} (hp : p.width = q.width) :
    SameWidths (ps.put name p) (qs.put name q) := by
  rw [SameWidths, Named.put, Named.put, Named.map_putEntry, Named.map_putEntry, hp]
  exact congrArg (Named.putEntry name q.width) h

theorem putAll (h : SameWidths ps qs) {l m : List (String × Parameter)}
    (hl : l.map (Prod.map id Parameter.width) = m.map (Prod.map id Parameter.width)) :
    SameWidths (ps.putAll l) (qs.putAll m) := by
  induction l generalizing ps qs m with
  | nil =>
      rw [List.map_eq_nil_iff.1 hl.symm]
      exact h
  | cons e l ih =>
      obtain ⟨e', m, rfl, he, hm⟩ := List.map_eq_cons_iff.1 hl.symm
      obtain ⟨hn, hw⟩ := Prod.mk.inj he
      rw [Named.putAll, Named.putAll, List.foldl_cons, List.foldl_cons, ← Named.putAll, ← Named.putAll,
        show e'.1 = e.1 from hn]
      exact ih (h.put e.1 hw.symm) hm.symm

end SameWidths

open Sift.Except (Agree agree_bind)

namespace Sql

namespace Context

variable {x : Context} {ps : Named Parameter}

theorem parameter_agree (h : SameWidths x.parameters ps) (name : String) :
    Agree (fun v w => v.width = w.width) (x.parameter name)
      (parameter { x with parameters := ps } name) := by
  have hg := h.get? name
  unfold parameter
  cases hp : x.parameters.get? name with
  | none =>
      rw [hp] at hg
      rw [Option.map_eq_none_iff.1 hg.symm]
      exact .error _
  | some p =>
      rw [hp] at hg
      obtain ⟨q, hq, hw⟩ := Option.map_eq_some_iff.1 hg.symm
      rw [hq]
      exact .ok hw.symm

theorem scalar_agree (h : SameWidths x.parameters ps) (name : String) :
    Agree (fun _ _ => True) (x.scalar name) (scalar { x with parameters := ps } name) :=
  (parameter_agree h name).map fun _ _ _ => trivial

/-- A test of a list shows how many values there are, and nothing else of them. -/
theorem blank_isIn (f : FieldRef) (items : List Value) :
    (if items.isEmpty then Expr.always false else .isIn (field f) (items.map .ofValue)).blank =
      if items.length = 0 then (Expr.always false).blank
      else .isIn (field f).blank (List.replicate items.length .null) := by
  cases items with
  | nil => rfl
  | cons v items => simp [Expr.blank, List.replicate_succ, Function.comp_def, List.map_const']

theorem memberTest_agree (b c : Bound) (f : FieldRef) :
    Agree (fun e e' => e.blank = e'.blank) (x.memberTest b f)
      (memberTest { x with parameters := ps } c f) := by
  apply agree_bind (x.source f.source)
  intro owner
  apply agree_bind owner.key
  intro ownerKey
  apply agree_bind (x.schema.association owner f.column)
  rintro ⟨a, target⟩
  cases a with
  | toOne | manyToMany => exact .ok rfl
  | toMany name mappedBy => exact agree_bind target.key fun key => .ok rfl

theorem leaf_agree (h : SameWidths x.parameters ps) (c : Condition) :
    Agree (fun e e' => e.blank = e'.blank) (x.leaf c) (leaf { x with parameters := ps } c) := by
  cases c with
  | compare f op param => exact (scalar_agree h param).bind fun _ _ _ => .ok rfl
  | isNull | never | not | and | or => exact .ok rfl
  | isIn f param =>
      rw [leaf_isIn, leaf_isIn]
      apply (parameter_agree h param).map
      intro v w hw
      rw [blank_isIn, blank_isIn, show v.elements.length = w.elements.length from hw]
  | like f param => exact (parameter_agree h param).bind fun _ _ _ => .ok rfl
  | memberOf param f => exact (scalar_agree h param).bind fun b c _ => memberTest_agree b c f
  | regexp f param =>
      apply (scalar_agree h param).bind
      intro b c _
      dsimp only
      cases x.dialect.patternIsBoolean <;> exact .ok rfl

mutual

theorem filter_agree (h : SameWidths x.parameters ps) (c : Condition) :
    Agree (fun f g => f.blank = g.blank) (x.filter c) (filter { x with parameters := ps } c) := by
  match c with
  | .and [] | .or [] => exact .ok rfl
  | .and (c :: cs) | .or (c :: cs) =>
      simp only [filter]
      apply (filters_agree h (c :: cs)).map
      intro fs gs hf
      rw [Filter.blank, Filter.blank, hf]
  | .not inner =>
      rw [filter, filter]
      apply (filter_agree h inner).map
      intro f g hf
      rw [Filter.blank_negate, Filter.blank_negate, hf]
  | .compare .. | .isNull .. | .isIn .. | .like .. | .memberOf .. | .regexp .. | .never =>
      simp only [filter]
      apply (leaf_agree h _).map
      intro e e' he
      simp only [Filter.leaf, Filter.blank, Filter.blanks, he]

theorem filters_agree (h : SameWidths x.parameters ps) (cs : List Condition) :
    Agree (fun fs gs => Filter.blanks fs = Filter.blanks gs) (x.filters cs)
      (filters { x with parameters := ps } cs) := by
  match cs with
  | [] => exact .ok rfl
  | c :: cs =>
      rw [filters, filters]
      apply (filter_agree h c).bind
      intro f g hf
      apply (filters_agree h cs).bind
      intro fs gs hfs
      apply Agree.ok
      rw [Filter.blanks, Filter.blanks, hf, hfs]

end

theorem expr?_agree (h : SameWidths x.parameters ps) (c : Option Condition) :
    Agree (fun e e' => e.map Expr.blank = e'.map Expr.blank) (x.expr? c)
      (expr? { x with parameters := ps } c) := by
  cases c with
  | none => exact .ok rfl
  | some c =>
      rw [expr?, expr?, expr, expr]
      apply ((filter_agree h c).map (S := fun e e' => e.blank = e'.blank) ?_).map
      · intro e e' he
        exact congrArg some he
      · intro f g hf
        rw [← Filter.blank_toExpr f, hf, Filter.blank_toExpr g]

end Context

theorem blank_items {s t : Select} (h : s.blank = t.blank) (items : List Item) :
    { s with items }.blank = { t with items }.blank := by
  simp only [Select.blank, Select.mk.injEq] at h ⊢
  exact ⟨trivial, h.2⟩

theorem blank_grouped {s t : Select} (h : s.blank = t.blank) (groupBy : List (String × String))
    {having having' : Option Expr} (he : having.map Expr.blank = having'.map Expr.blank) :
    { s with groupBy, having }.blank = { t with groupBy, having := having' }.blank := by
  simp only [Select.blank, Select.mk.injEq] at h ⊢
  obtain ⟨hi, ht, hn, hj, hf, -, -, hr⟩ := h
  exact ⟨hi, ht, hn, hj, hf, trivial, he, hr⟩

theorem countStatement_agree {x : Context} {ps : Named Parameter} (h : SameWidths x.parameters ps)
    (q : Query) (root : Entity) {s t : Select} (hs : s.blank = t.blank) :
    Agree (fun (s t : Statement) => s.blank = t.blank) (countStatement x q root s)
      (countStatement { x with parameters := ps } { q with parameters := ps } root t) := by
  unfold countStatement
  -- groups are counted for several identifiers, and for one under a condition on groups
  have hg (identifiers : List String) :
      Agree (fun (s t : Statement) => s.blank = t.blank)
        (x.expr? q.havingCondition >>= fun having => .ok (.countOf { s with
          items := identifiers.map (.column q.root), groupBy := identifiers.map fun i => (q.root, i), having }))
        (Context.expr? { x with parameters := ps } q.havingCondition >>= fun having => .ok (.countOf { t with
          items := identifiers.map (.column q.root), groupBy := identifiers.map fun i => (q.root, i)
          having })) := by
    apply (Context.expr?_agree h q.havingCondition).bind
    intro e e' he
    exact .ok (congrArg Statement.countOf (blank_grouped (blank_items hs _) _ he))
  cases root.identifier with
  | nil => exact .error _
  | cons i is =>
      cases is with
      | cons j is => exact hg (i :: j :: is)
      | nil =>
          cases hh : q.havingCondition with
          | some c =>
              rw [hh] at hg
              exact hg [i]
          | none => exact .ok (congrArg Statement.rows (blank_items hs _))

/-- A statement shows of the parameters of its query how many values each of them has. -/
theorem render_agree (schema : Schema) (d : Dialect) {q : Query} {ps : Named Parameter}
    (h : SameWidths q.parameters ps) :
    Agree (fun s t => s.blank = t.blank) (render schema d q) (render schema d { q with parameters := ps }) := by
  apply agree_bind (schema.require q.entity)
  intro root
  apply agree_bind (q.joins.foldlM (addJoin schema) (Named.empty.put q.root root, []))
  rintro ⟨sources, joins⟩
  have he (c : Option Condition) := Context.expr?_agree (x := ⟨schema, d, q.parameters, sources⟩) h c
  apply (he q.whereCondition).bind
  intro filter filter' hf
  cases q.projection with
  | count =>
      apply countStatement_agree h
      simp only [Select.blank, hf]
  | entity =>
      apply (he q.havingCondition).bind
      intro having having' hh
      apply Agree.ok
      simp only [Statement.blank, Select.blank, hf, hh]
      rfl

theorem build_eq_map (schema : Schema) (d : Dialect) (q : Query) :
    build schema d q = (render schema d q).map (prepared d) := by
  rw [build]
  cases render schema d q <;> rfl

theorem outline_build (schema : Schema) (d : Dialect) {q : Query} {ps : Named Parameter}
    (h : SameWidths q.parameters ps) :
    (build schema d q).map Prepared.outline =
      (build schema d { q with parameters := ps }).map Prepared.outline := by
  rw [build_eq_map, build_eq_map]
  apply ((render_agree schema d h).map (R := fun s t => s.blank = t.blank)
    (S := fun p p' : Prepared => p.outline = p'.outline) ?_).map_eq
  · intro p p' hp
    exact hp
  · intro s t hs
    exact outline_eq_of_blank d hs

end Sql

end Sift
