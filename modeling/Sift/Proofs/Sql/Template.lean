import Mathlib.Logic.Function.Iterate
import Sift.Proofs.Parameters
import Sift.Proofs.Shape.Value
import Sift.Proofs.Sql.Meaning

namespace Sift

namespace Text

/-- One text is another with its first mark replaced. A text without marks stays as it is. -/
def Replaces (mark new text result : List Char) : Prop :=
  (∃ before after, text = before ++ mark ++ after ∧ ¬ mark <:+: before ++ mark.dropLast ∧
      result = before ++ new ++ after) ∨
    (¬ mark <:+: text ∧ result = text)

theorem not_infix_of_length_lt {mark cs : List Char} (h : cs.length < mark.length) : ¬ mark <:+: cs :=
  fun hi => absurd hi.length_le (by omega)

theorem replaces_replaceFirst {mark : List Char} (hm : mark ≠ []) (new text : List Char) :
    Replaces mark new text (replaceFirst mark new text) := by
  have hl := List.length_pos_iff.2 hm
  induction text with
  | nil =>
      refine .inr ⟨not_infix_of_length_lt hl, ?_⟩
      rw [replaceFirst, if_neg (by simpa using hm)]
  | cons c text ih =>
      rw [replaceFirst]
      cases h : after? mark (c :: text) with
      | some tail =>
          refine .inl ⟨[], tail, after?_eq_some.1 h, not_infix_of_length_lt ?_, rfl⟩
          rw [List.nil_append, List.length_dropLast]
          omega
      | none =>
          have hp := after?_eq_none h
          rcases ih with ⟨before, after, ht, hb, hr⟩ | ⟨hn, hr⟩
          · refine .inl ⟨c :: before, after, by rw [ht]; rfl, ?_, by rw [hr]; rfl⟩
            rw [List.cons_append, List.infix_cons_iff]
            rintro (hi | hi)
            -- a mark at the start would be one of the whole text
            · refine hp (hi.trans ?_)
              rw [ht, List.append_assoc, List.cons_prefix_cons]
              exact ⟨rfl, (List.prefix_append_right_inj before).2
                ((List.dropLast_prefix mark).trans (List.prefix_append mark after))⟩
            · exact hb hi
          · refine .inr ⟨?_, by rw [hr]⟩
            rw [List.infix_cons_iff]
            rintro (hi | hi)
            · exact hp hi
            · exact hn hi

end Text

namespace Sql

def Expr.tested : Expr → Option Expr
  | .not e => e.tested
  | .compare _ (.matches e _) _ => some e
  | .compare _ e _ | .isIn e _ | .isNull e | .like e _ | .matches e _ => some e
  | _ => none

namespace Dialect

def Tests (d : Dialect) (text : String) (e : Expr) : Prop :=
  ∃ before after, d.expr e = before ++ .text "(" :: .text text :: .text ")" :: after ∧
    ∀ p ∈ before, p = .text "NOT " ∨ p = .text "("

variable {d : Dialect}

theorem Tests.not {text : String} {e : Expr} (h : d.Tests text e) : d.Tests text (.not e) := by
  obtain ⟨before, after, he, hb⟩ := h
  rw [Tests, expr, he]
  cases !(e.isAtom || e.isTest) with
  | true =>
      exact ⟨.text "NOT " :: .text "(" :: before, after ++ [.text ")"], by simp [brackets], by simpa using hb⟩
  | false => exact ⟨.text "NOT " :: before, after, by simp [brackets], by simpa using hb⟩

/-- Whatever a test compares a template with, the template stands in it with its column filled in. -/
theorem tests_of_tested {e : Expr} {text source column : String}
    (h : e.tested = some (.template text source column)) :
    d.Tests ((FieldRef.mk source column (some text)).apply (d.qualify source column)) e := by
  fun_induction Expr.tested e with
  | case1 e ih => exact (ih h).not
  | case2 op e p right =>
      obtain rfl := Option.some.inj h
      exact ⟨[.text "("], _, rfl, by simp⟩
  | case3 | case4 | case5 | case6 | case7 =>
      obtain rfl := Option.some.inj h
      exact ⟨[], _, rfl, by simp⟩
  | case8 => cases h

end Dialect

namespace Filter

theorem iterate_negate_group (n : Nat) (b : Bool) (k : Combinator) (fs : List Filter) :
    ∃ b', negate^[n] (.group b k fs) = .group b' k fs := by
  induction n generalizing b with
  | zero => exact ⟨b, rfl⟩
  | succ n ih => exact ih (!b)

theorem tested_iterate_negate (n : Nat) (e : Expr) : (negate^[n] (leaf e)).toExpr.tested = e.tested := by
  obtain ⟨b, hb⟩ := iterate_negate_group n false .all [.test e]
  rw [leaf, hb]
  cases b <;> rfl

end Filter

namespace Context

theorem filter_negate (x : Context) (n : Nat) (c : Condition) :
    x.filter (Scope.negate n c) = (x.filter c).map Filter.negate^[n] := by
  induction n generalizing c with
  | zero =>
      rw [Scope.negate]
      cases x.filter c <;> rfl
  | succ n ih =>
      rw [Scope.negate, ih, filter]
      cases x.filter c <;> rfl

theorem expr_negate_eq_ok {x : Context} {n : Nat} {c : Condition} (hc : c.isTest = true) {e : Expr} :
    x.expr (Scope.negate n c) = .ok e ↔
      ∃ e', x.leaf c = .ok e' ∧ (Filter.negate^[n] (.leaf e')).toExpr = e := by
  rw [expr, filter_negate, filter_test hc]
  cases x.leaf c <;> simp [Except.map]

theorem tested_compare_field (op : Comparator) (f : FieldRef) (right : Expr) :
    (Expr.compare op (field f) right).tested = some (field f) := by
  rw [field]
  split <;> rfl

theorem tested_memberTest {x : Context} {b : Bound} {f : FieldRef} {e : Expr} (h : x.memberTest b f = .ok e)
    (text source column : String) : e.tested ≠ some (.template text source column) := by
  obtain ⟨column, rfl⟩ | ⟨members, rfl⟩ := memberTest_shape h
  · simp [Expr.tested]
  · simp [Expr.tested]

end Context

end Sql

namespace Scope

def testsMember (s : Scope) (c : Criterion) : Bool :=
  c.value.shape = .scalar && !(s.wildcards && c.value.isPattern) &&
    s.isCollection (Path.qualify c.field) && c.resolvedComparator = .eq

variable {s : Scope} {x : Sql.Context} {c : Criterion} {t : String}

theorem condition_of_testsMember (h : s.testsMember c = true) :
    (s.test c).condition =
      .memberOf c.parameterName { Path.qualify c.field with template := c.template } := by
  simp only [testsMember, Bool.and_eq_true, decide_eq_true_eq, Bool.not_eq_true'] at h
  obtain ⟨⟨⟨hv, hp⟩, hc⟩, ho⟩ := h
  rw [condition_test, hv, hp, testOf, hc, ho]
  rfl

theorem field_of_template (ht : c.template = some t) :
    Sql.Context.field { Path.qualify c.field with template := c.template } =
      .template t (Path.qualify c.field).source (Path.qualify c.field).column := by
  rw [Sql.Context.field, ht]

theorem shape_ne_list_zero {v : Value} (hv : v ≠ .array []) : v.shape ≠ .list 0 := by
  cases v with
  | array items =>
      cases items with
      | nil => exact absurd rfl hv
      | cons => simp [Value.shape]
  | null | bool | int | float | text | backed => simp [Value.shape]

/-- A list that is no pattern is bound as the list it is, in whatever type. -/
theorem elements_carried_ne_nil {v : Value} {n : Nat} (hv : v.shape = .list (n + 1))
    (hp : (s.wildcards && v.isPattern) = false) (declared : Option FieldType) :
    (Coercion.coerce declared (s.carried v)).elements ≠ [] := by
  cases v with
  | array items =>
      rw [carried, if_neg (by simpa [Value.isPattern] using hp), Coercion.coerce_array]
      intro h
      rw [Value.elements, List.map_eq_nil_iff] at h
      rw [h] at hv
      cases hv
  | null | bool | int | float | text | backed => simp [Value.shape] at hv

/-- A test of a field with a template is written as a test of the template, if it is not one of membership. -/
theorem leaf_test_of_template (ht : c.template = some t) (hv : c.value ≠ .array [])
    (hb : c.value.binds = true →
      ∃ declared, x.parameters.get? c.parameterName = some ⟨s.carried c.value, declared⟩)
    (hm : s.testsMember c = false) :
    ∃ e, x.leaf (s.test c).condition = .ok e ∧
      e.tested = some (.template t (Path.qualify c.field).source (Path.qualify c.field).column) := by
  have hz := shape_ne_list_zero hv
  rw [condition_test, ← field_of_template ht]
  cases hs : c.value.shape with
  | null => exact ⟨_, rfl, rfl⟩
  | list n =>
      cases n with
      | zero => exact absurd hs hz
      | succ n =>
          obtain ⟨declared, hg⟩ := hb (by simp [Value.binds_eq, hs])
          cases hp : s.wildcards && c.value.isPattern with
          | true =>
              rw [testOf, Sql.Context.leaf, Sql.Context.scalar_of_get? hg]
              refine ⟨_, rfl, ?_⟩
              -- a match is compared with one where it is not a truth value
              cases x.dialect.patternIsBoolean <;> rfl
              simp
          | false =>
              have he := elements_carried_ne_nil hs hp declared
              rw [testOf, Sql.Context.leaf_isIn, Sql.Context.parameter, hg]
              refine ⟨_, congrArg Except.ok (if_neg (by simpa using he)), rfl⟩
              simp
  | scalar =>
      obtain ⟨declared, hg⟩ := hb (by simp [Value.binds_eq, hs])
      cases hp : s.wildcards && c.value.isPattern with
      | true =>
          rw [testOf, Sql.Context.leaf, Sql.Context.parameter_of_get? hg]
          exact ⟨_, rfl, rfl⟩
      | false =>
          have ho : (s.isCollection (Path.qualify c.field) && c.resolvedComparator = .eq) = false := by
            simpa [testsMember, hs, hp] using hm
          rw [testOf, if_neg (by simpa using ho), Sql.Context.leaf, Sql.Context.scalar_of_get? hg]
          exact ⟨_, rfl, Sql.Context.tested_compare_field _ _ _⟩

/-- The test of a term with a template is written with the template in place of its field, in every dialect,
if and only if it is not a test of membership. -/
theorem template_kept_iff (s : Scope) (x : Sql.Context) (c : Criterion) {t : String} (ht : c.template = some t)
    (hv : c.value ≠ .array [])
    (hb : c.value.binds = true →
      ∃ declared, x.parameters.get? c.parameterName = some ⟨s.carried c.value, declared⟩) :
    (∃ e text, x.expr (s.compile c).condition = .ok e ∧
        e.tested = some (.template t (Path.qualify c.field).source (Path.qualify c.field).column) ∧
        Text.Replaces ['%', 's']
          (x.dialect.qualify (Path.qualify c.field).source (Path.qualify c.field).column).toList t.toList
          text.toList ∧
        x.dialect.Tests text e) ↔
      s.testsMember c = false := by
  constructor
  · rintro ⟨e, -, he, hte, -⟩
    by_contra hm
    rw [Bool.not_eq_false] at hm
    obtain ⟨e', hl, rfl⟩ := (Sql.Context.expr_negate_eq_ok (isTest_test s c)).1 he
    rw [condition_of_testsMember hm, Sql.Context.leaf] at hl
    obtain ⟨b, -, hl⟩ := Except.bind_eq_ok.1 hl
    rw [Sql.Filter.tested_iterate_negate] at hte
    exact Sql.Context.tested_memberTest hl _ _ _ hte
  · intro hm
    obtain ⟨e, he, hte⟩ := leaf_test_of_template ht hv hb hm
    rw [← Sql.Filter.tested_iterate_negate c.negations] at hte
    refine ⟨_, _, (Sql.Context.expr_negate_eq_ok (isTest_test s c)).2 ⟨e, he, rfl⟩, hte, ?_,
      Sql.Dialect.tests_of_tested hte⟩
    rw [FieldRef.apply, String.toList_ofList]
    exact Text.replaces_replaceFirst (by simp) _ _

theorem template_kept_iff_names :
    let s : Scope := ⟨true, .artists, Named.empty⟩
    let c := { Criterion.plain "name" (.array [.text "a%", .text "b"]) with
      negations := 1, sqlFunction := some "LOWER(%s)" }
    let x : Sql.Context := ⟨Catalog.artists.schema, .sqlite,
      Named.ofList [("main_name_0", ⟨.text "^(a.*|b)$", some .string⟩)], Named.empty⟩
    c.template = some "LOWER(%s)" ∧ c.value ≠ .array [] ∧ s.testsMember c = false ∧
      ∃ e text, x.expr (s.compile c).condition = .ok e ∧
        e.tested = some (.template "LOWER(%s)" "main" "name") ∧
        Text.Replaces ['%', 's'] "\"main\".\"name\"".toList "LOWER(%s)".toList text.toList ∧
        x.dialect.Tests text e := by
  intro s c x
  have hm : s.testsMember c = false := rfl
  have hq : Path.qualify c.field = .plain "main" "name" := by decide
  have hn : c.parameterName = "main_name_0" := by decide
  have hc : s.carried c.value = .text "^(a.*|b)$" :=
    congrArg Value.text (by decide : Wildcard.anyOf ["a%", "b"] = "^(a.*|b)$")
  have hv : c.value ≠ .array [] := Value.array.inj.mt (by simp)
  have h := (template_kept_iff s x c rfl hv fun _ => ⟨some .string, by rw [hn, hc]; rfl⟩).2 hm
  rw [hq] at h
  exact ⟨rfl, hv, hm, h⟩

/-- The template of a term that asks for members of a collection is written nowhere. -/
theorem template_lost_member :
    let s : Scope := ⟨false, .artists, Named.empty⟩
    let c := { Criterion.plain "albums" (.int 3) with sqlFunction := some "LENGTH(%s)" }
    let x : Sql.Context := ⟨Catalog.artists.schema, .sqlite,
      Named.ofList [("main_albums_0", ⟨.int 3, none⟩)], Named.ofList [("main", .artist)]⟩
    ∃ e, x.expr (s.compile c).condition = .ok e ∧
      x.dialect.prepare (x.dialect.expr e) =
        "? IN (SELECT \"main_albums__member\".\"id\" FROM \"albums\" AS \"main_albums__member\" " ++
          "WHERE \"main_albums__member\".\"musician_id\" = \"main\".\"id\")" ∧
      ∀ text, ¬ x.dialect.Tests text e := by
  refine ⟨_, rfl, by decide +kernel, ?_⟩
  rintro text ⟨before, after, he, hb⟩
  cases before with
  | nil => cases he
  | cons p before =>
      obtain ⟨rfl, -⟩ := List.cons.inj he
      simpa using hb _ (List.mem_cons_self ..)

end Scope

end Sift
