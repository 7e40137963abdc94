import Sift.Equality
import Sift.Proofs.Coercion
import Sift.Proofs.Leaf
import Sift.Proofs.Sql.Flat

namespace Sift

abbrev Slot := (String × Value) × Nat

namespace EqualityFilter

/-- What must hold of the lists of a filter. None of the texts that their elements are matched by has a
wildcard, and no element is bound as another value because of the type of the column. -/
def Kept (root : Entity) (wildcards : Bool) (t : String × Value) : Prop :=
  ∀ items, t.2 = .array items →
    (wildcards = true → ∀ v ∈ items, Wildcard.occurs (Scope.patternText v) = false) ∧
    ∀ v ∈ items, Sql.Bound.ofValue (Coercion.coerce (root.typeOf? t.1) v) = .ofValue v

end EqualityFilter

namespace Slot

open EqualityFilter (Kept)

variable {root : Entity} {t : Slot} {wildcards : Bool} {d : Sql.Dialect}

def ref (t : Slot) : FieldRef := Path.qualify t.1.1

def name (t : Slot) : String := Path.parameterName t.ref t.2

def test (t : Slot) : Condition :=
  match t.1.2 with
  | .null => .isNull t.ref
  | .array _ => .isIn t.ref t.name
  | _ => .compare t.ref .eq t.name

def planned (wildcards : Bool) (t : Slot) : Condition :=
  match t.1.2 with
  | .array items =>
    if wildcards && (items.map Scope.patternText).any Wildcard.occurs then .regexp t.ref t.name else t.test
  | _ => t.test

def type? (root : Entity) (t : Slot) : Option FieldType := root.typeOf? t.ref.column

def parameter? (root : Entity) (t : Slot) : Option (String × Parameter) :=
  if t.1.2.isNull then none else some (t.name, ⟨t.1.2, t.type? root⟩)

def column (t : Slot) : Sql.Expr := .column t.ref.source t.ref.column

def bound (root : Entity) (t : Slot) (v : Value) : Sql.Bound := .ofValue (Coercion.coerce (t.type? root) v)

def expr (root : Entity) (t : Slot) : Sql.Expr :=
  match t.1.2 with
  | .null => .isNull t.column
  | .array items => .isIn t.column (items.map (t.bound root))
  | v => .compare .eq t.column (.bound (t.bound root v))

def matched (d : Sql.Dialect) (t : Slot) (pattern : String) : Sql.Expr :=
  let e := Sql.Expr.matches t.column (.text pattern)
  if d.patternIsBoolean then e else .compare .eq e (.bound (.constant 1))

def plannedExpr (d : Sql.Dialect) (wildcards : Bool) (root : Entity) (t : Slot) : Sql.Expr :=
  match t.1.2 with
  | .array items =>
    if wildcards && (items.map Scope.patternText).any Wildcard.occurs then
      t.matched d (Wildcard.anyOf (items.map Scope.patternText))
    else .isIn t.column (items.map .ofValue)
  | _ => t.expr root

theorem template_ref (t : Slot) : t.ref.template = none := by
  unfold ref Path.qualify
  split <;> rfl

theorem field_ref (t : Slot) : Sql.Context.field t.ref = t.column := by
  rw [Sql.Context.field, template_ref, column]

theorem parameter_eq {x : Sql.Context} {name : String} {v : Value} {type : Option FieldType}
    (h : x.parameters.get? name = some ⟨v, type⟩) : x.parameter name = .ok (Coercion.coerce type v) := by
  rw [Sql.Context.parameter, h]

theorem filter_isIn {x : Sql.Context} {items : List Value} (hi : items ≠ [])
    (hx : x.parameter t.name = .ok (.array items)) :
    x.filter (.isIn t.ref t.name) = .ok (.leaf (.isIn t.column (items.map .ofValue))) := by
  cases items with
  | nil => exact absurd rfl hi
  | cons v items =>
      simp only [Sql.Context.filter, Sql.Context.leaf, hx, bind, Except.bind, field_ref]
      rfl

theorem filter_compare {x : Sql.Context} {v : Value} (hx : x.parameter t.name = .ok v) :
    x.filter (.compare t.ref .eq t.name) = .ok (.leaf (.compare .eq t.column (.bound (.ofValue v)))) := by
  simp only [Sql.Context.filter, Sql.Context.leaf, Sql.Context.scalar, hx, Except.map, bind, Except.bind,
    field_ref]
  rfl

theorem filter_regexp {x : Sql.Context} {pattern : String} (hx : x.parameter t.name = .ok (.text pattern)) :
    x.filter (.regexp t.ref t.name) = .ok (.leaf (t.matched x.dialect pattern)) := by
  simp only [Sql.Context.filter, Sql.Context.leaf, Sql.Context.scalar, hx, Except.map, bind, Except.bind,
    field_ref]
  rfl

theorem filter_test {x : Sql.Context} (hi : t.1.2 ≠ .array [])
    (hx : t.1.2.isNull = false → x.parameters.get? t.name = some ⟨t.1.2, t.type? root⟩) :
    x.filter t.test = .ok (.leaf (t.expr root)) := by
  unfold test expr
  cases hv : t.1.2 with
  | null => simp only [Sql.Context.filter, Sql.Context.leaf, field_ref]; rfl
  | bool | int | float | text | backed => 
      rw [hv] at hx
      exact filter_compare (parameter_eq (hx rfl))
  | array items =>
      rw [hv] at hx hi
      have hp := parameter_eq (hx rfl)
      rw [Coercion.coerce_array] at hp
      have hf := filter_isIn (by simpa using hi) hp
      rw [List.map_map] at hf
      exact hf

theorem filter_planned {x : Sql.Context} {s : Scope} (hi : t.1.2 ≠ .array [])
    (hx : t.1.2.binds = true → x.parameters.get? t.name =
      some ⟨s.carried t.1.2, if (s.carried t.1.2).isArray then none else t.type? root⟩) :
    x.filter (t.planned s.wildcards) = .ok (.leaf (t.plannedExpr x.dialect s.wildcards root)) := by
  cases hv : t.1.2 with
  | null | bool | int | float | text | backed =>
      have ht : x.filter t.test = .ok (.leaf (t.expr root)) := by
        apply filter_test hi
        intro hn
        rw [hv] at hx hn ⊢
        first
        | exact hx rfl
        | cases hn
      simpa only [planned, plannedExpr, hv] using ht
  | array items =>
      rw [hv] at hx hi
      have hb : (Value.array items).binds = true := by
        cases items with
        | nil => exact absurd rfl hi
        | cons v items => rfl
      have hp := parameter_eq (hx hb)
      simp only [planned, plannedExpr, hv]
      cases hw : s.wildcards && (items.map Scope.patternText).any Wildcard.occurs with
      | true =>
          have hc : s.carried (.array items) = .text (Wildcard.anyOf (items.map Scope.patternText)) :=
            if_pos hw
          rw [hc, Coercion.coerce_anchored _ (Wildcard.head?_anyOf _)] at hp
          exact filter_regexp hp
      | false =>
          have hc : s.carried (.array items) = .array items := if_neg (Bool.not_eq_true _ ▸ hw)
          rw [hc] at hp
          simpa only [test, hv, Bool.false_eq_true, if_false] using filter_isIn (by simpa using hi) hp

theorem any_occurs_eq_false_iff {items : List Value} :
    (wildcards && (items.map Scope.patternText).any Wildcard.occurs) = false ↔
      (wildcards = true → ∀ v ∈ items, Wildcard.occurs (Scope.patternText v) = false) := by
  cases wildcards <;> simp

theorem expr_eq_of_kept (hq : t.ref.column = t.1.1) (hk : Kept root wildcards t.1) :
    t.expr root = t.plannedExpr d wildcards root := by
  cases hv : t.1.2 with
  | null | bool | int | float | text | backed => simp only [plannedExpr, hv]
  | array items =>
      obtain ⟨hw, hb⟩ := hk items hv
      have hm : items.map (t.bound root) = items.map .ofValue :=
        List.map_congr_left fun v hv => by rw [bound, type?, hq, hb v hv]
      simp only [expr, plannedExpr, hv, any_occurs_eq_false_iff.2 hw, Bool.false_eq_true, if_false, hm]

theorem head?_values_matched (d : Sql.Dialect) (t : Slot) (pattern : String) :
    (d.values (t.matched d pattern)).head? = some (.text pattern) := by
  cases d <;> rfl

theorem values_expr {items : List Value} (hv : t.1.2 = .array items) :
    d.values (t.expr root) = items.map (t.bound root) := by
  simp only [expr, hv]
  exact d.values_isIn _ _ _

theorem values_plannedExpr {items : List Value} (hv : t.1.2 = .array items)
    (hw : (wildcards && (items.map Scope.patternText).any Wildcard.occurs) = false) :
    d.values (t.plannedExpr d wildcards root) = items.map .ofValue := by
  simp only [plannedExpr, hv, hw, Bool.false_eq_true, if_false]
  exact d.values_isIn _ _ _

/-- Where a plan matches a pattern, it binds another value first than a filter does. -/
theorem head?_values_ne {items : List Value} (hv : t.1.2 = .array items) (hi : items ≠ [])
    (hr : ∀ v ∈ items, ∀ w, v ≠ .backed w)
    (hw : (wildcards && (items.map Scope.patternText).any Wildcard.occurs) = true) :
    ∃ a b, (d.values (t.expr root)).head? = some a ∧
      (d.values (t.plannedExpr d wildcards root)).head? = some b ∧ a ≠ b := by
  cases items with
  | nil => exact absurd rfl hi
  | cons v items =>
      refine ⟨t.bound root v, .text (Wildcard.anyOf ((v :: items).map Scope.patternText)), ?_, ?_, ?_⟩
      · rw [values_expr hv]
        rfl
      · simp only [plannedExpr, hv, hw, if_true]
        exact head?_values_matched d t _
      · exact Coercion.ofValue_coerce_ne_anyOf _ (hr v List.mem_cons_self) _

def Aligned (as bs : List Sql.Bound) : Prop :=
  as.length = bs.length ∨ ∃ a b, as.head? = some a ∧ bs.head? = some b ∧ a ≠ b

theorem aligned_values (hi : t.1.2 ≠ .array [])
    (hr : ∀ items, t.1.2 = .array items → ∀ v ∈ items, ∀ w, v ≠ .backed w) :
    Aligned (d.values (t.expr root)) (d.values (t.plannedExpr d wildcards root)) := by
  cases hv : t.1.2 with
  | null | bool | int | float | text | backed => exact .inl (by simp only [plannedExpr, hv])
  | array items =>
      have hn : items ≠ [] := fun h => hi (h ▸ hv)
      cases hw : wildcards && (items.map Scope.patternText).any Wildcard.occurs with
      | true => exact .inr (head?_values_ne hv hn (hr items hv) hw)
      | false =>
          apply Or.inl
          rw [values_expr hv, values_plannedExpr hv hw, List.length_map, List.length_map]

theorem kept_of_values_eq (hq : t.ref.column = t.1.1) (hi : t.1.2 ≠ .array [])
    (hr : ∀ items, t.1.2 = .array items → ∀ v ∈ items, ∀ w, v ≠ .backed w)
    (h : d.values (t.expr root) = d.values (t.plannedExpr d wildcards root)) : Kept root wildcards t.1 := by
  intro items hv
  have hn : items ≠ [] := fun h => hi (h ▸ hv)
  have hw : (wildcards && (items.map Scope.patternText).any Wildcard.occurs) = false := by
    by_contra hw
    obtain ⟨a, b, ha, hb, hne⟩ :=
      @head?_values_ne root t wildcards d items hv hn (hr items hv) (Bool.not_eq_false _ ▸ hw)
    rw [h, hb] at ha
    exact hne (Option.some.inj ha).symm
  refine ⟨any_occurs_eq_false_iff.1 hw, ?_⟩
  intro v hm
  rw [values_expr hv, values_plannedExpr hv hw] at h
  rw [← hq]
  exact List.map_inj_left.1 h v hm

/-- Aligned lists can be cut at the same places wherever they stand side by side. -/
theorem eq_of_flatMap_eq {l : List Slot} {f g : Slot → List Sql.Bound} (hl : ∀ t ∈ l, Aligned (f t) (g t))
    (h : l.flatMap f = l.flatMap g) : ∀ t ∈ l, f t = g t := by
  induction l with
  | nil => simp
  | cons t l ih =>
      obtain ⟨ht, hl⟩ := List.forall_mem_cons.1 hl
      rw [List.flatMap_cons, List.flatMap_cons] at h
      rcases ht with hn | ⟨a, b, ha, hb, hne⟩
      · obtain ⟨hf, hr⟩ := List.append_inj h hn
        exact List.forall_mem_cons.2 ⟨hf, ih hl hr⟩
      · have hh := congrArg List.head? h
        rw [List.head?_append, List.head?_append, ha, hb] at hh
        exact absurd (Option.some.inj hh) hne

end Slot

end Sift
