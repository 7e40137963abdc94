import Sift.Proofs.Sql.Meaning
import Sift.Proofs.Sql.Root
import Sift.Proofs.Sql.Sources
import Sift.Proofs.Wildcard.Display

namespace Sift

namespace Sql

def Expr.patternTests : Expr → List Expr
  | .column .. | .template .. | .bound _ | .inMembers .. => []
  | .isIn e _ | .isNull e | .not e => e.patternTests
  | .compare _ left right | .and left right | .or left right => left.patternTests ++ right.patternTests
  | .like e pattern => e.patternTests ++ [.like e pattern]
  | .matches e pattern => e.patternTests ++ [.matches e pattern]

def Statement.patternTests (s : Statement) : List Expr := s.select.exprs.flatMap Expr.patternTests

namespace Dialect

variable {d : Dialect}

theorem infix_brackets_append (needed : Bool) (ps qs : List Piece) : ps <:+: brackets needed ps ++ qs := by
  cases needed with
  | true => exact ⟨[.text "("], .text ")" :: qs, by simp [brackets]⟩
  | false => exact (List.prefix_append ps qs).isInfix

theorem infix_append_brackets (needed : Bool) (ps qs : List Piece) (p : Piece) :
    qs <:+: ps ++ p :: brackets needed qs := by
  cases needed with
  | true => exact ⟨ps ++ [p, .text "("], [.text ")"], by simp [brackets]⟩
  | false => exact ⟨ps ++ [p], [], by simp [brackets]⟩

/-- A test for a pattern is written with its value, wherever it stands. -/
theorem infix_expr {e t : Expr} (h : t ∈ e.patternTests) : d.expr t <:+: d.expr e := by
  induction e with
  | column | template | bound | inMembers => cases h
  | isIn e items ih =>
      rw [expr, List.append_assoc]
      exact (ih h).trans (infix_brackets_append ..)
  | isNull e ih => exact (ih h).trans (infix_brackets_append ..)
  | not e ih => exact (ih h).trans (infix_append_brackets _ [] _ _)
  | compare | and | or =>
      rename_i left right hl hr
      rcases List.mem_append.1 h with h | h
      · exact (hl h).trans (infix_brackets_append ..)
      · exact (hr h).trans (infix_append_brackets ..)
  | like | «matches» =>
      rename_i e pattern ih
      rcases List.mem_append.1 h with h | h
      · exact (ih h).trans (infix_brackets_append ..)
      · rw [List.mem_singleton.1 h]

theorem infix_commas {parts : List (List Piece)} {ps : List Piece} (h : ps ∈ parts) : ps <:+: commas parts := by
  induction parts with
  | nil => cases h
  | cons qs parts ih =>
      cases parts with
      | nil =>
          rw [List.mem_singleton.1 h]
          exact List.infix_rfl
      | cons rs parts =>
          change ps <:+: qs ++ .text ", " :: commas (rs :: parts)
          rcases List.mem_cons.1 h with rfl | h
          · exact (List.prefix_append ..).isInfix
          · exact (ih h).trans ((List.suffix_cons ..).trans (List.suffix_append ..)).isInfix

theorem infix_clause (word : String) {parts : List (List Piece)} {ps : List Piece} (h : ps ∈ parts) :
    ps <:+: clause word parts := by
  cases parts with
  | nil => cases h
  | cons qs parts => exact (infix_commas h).trans (List.suffix_cons ..).isInfix

theorem infix_select {s : Select} {e : Expr} (h : e ∈ s.exprs) : d.expr e <:+: d.select s := by
  rw [Select.exprs, List.mem_append, List.mem_append, Option.mem_toList, Option.mem_toList, List.mem_map] at h
  unfold select
  -- the clauses after that of the expression go first, and then those before it
  rcases h with (h | h) | ⟨o, ho, rfl⟩
  · iterate 5 refine .trans ?_ (List.prefix_append ..).isInfix
    refine .trans ?_ (List.suffix_append ..).isInfix
    exact infix_clause _ (by rw [h]; exact List.mem_singleton_self _)
  · iterate 3 refine .trans ?_ (List.prefix_append ..).isInfix
    refine .trans ?_ (List.suffix_append ..).isInfix
    exact infix_clause _ (by rw [h]; exact List.mem_singleton_self _)
  · iterate 2 refine .trans ?_ (List.prefix_append ..).isInfix
    refine .trans ?_ (List.suffix_append ..).isInfix
    exact (List.prefix_append ..).isInfix.trans (infix_clause _ (List.mem_map_of_mem ho))

theorem infix_statement {s : Statement} {t : Expr} (h : t ∈ s.patternTests) :
    d.expr t <:+: d.statement s := by
  obtain ⟨e, he, ht⟩ := List.mem_flatMap.1 h
  apply ((infix_expr ht).trans (infix_select he)).trans
  cases s with
  | rows => exact List.infix_rfl
  | countOf => exact (List.suffix_cons ..).isInfix.trans (List.prefix_append ..).isInfix

end Dialect

namespace Filter

theorem patternTests_foldl_combine (k : Combinator) (es : List Expr) (e : Expr) :
    (es.foldl (combine k) e).patternTests = e.patternTests ++ es.flatMap Expr.patternTests := by
  induction es generalizing e with
  | nil => simp
  | cons f es ih =>
      have hc : (combine k e f).patternTests = e.patternTests ++ f.patternTests := by
        cases k <;> rfl
      rw [List.foldl_cons, ih, hc, List.flatMap_cons, List.append_assoc]

theorem patternTests_group (negated : Bool) (k : Combinator) (fs : List Filter) :
    (group negated k fs).toExpr.patternTests = (toExprs fs).flatMap Expr.patternTests := by
  rw [toExpr]
  cases toExprs fs with
  | nil => cases negated <;> rfl
  | cons e es =>
      rw [List.flatMap_cons, ← patternTests_foldl_combine k]
      cases negated <;> rfl

theorem patternTests_negate (f : Filter) : f.negate.toExpr.patternTests = f.toExpr.patternTests := by
  cases f with
  | test e => rw [negate, patternTests_group, toExprs, toExprs, List.flatMap_singleton]
  | group negated k fs => rw [negate, patternTests_group, patternTests_group]

end Filter

namespace Context

variable {x : Context}

def patternTest? (x : Context) : Condition → Option Expr
  | .like f param => some (.like (field f) (x.carried param).indexKey)
  | .regexp f param => some (.matches (field f) (.ofValue (x.carried param)))
  | _ => none

theorem patternTests_field (f : FieldRef) : (field f).patternTests = [] := by
  unfold field
  split <;> rfl

theorem patternTests_leaf {c : Condition} {e : Expr} (h : x.leaf c = .ok e) :
    e.patternTests = [c].filterMap x.patternTest? := by
  cases c with
  | compare f op param =>
      obtain ⟨b, -, h⟩ := Except.bind_eq_ok.1 h
      obtain rfl := Except.pure_eq_ok.1 h
      rw [Expr.patternTests, patternTests_field]
      rfl
  | isIn f param =>
      rw [leaf_isIn, Except.map_eq_ok] at h
      obtain ⟨v, -, rfl⟩ := h
      split
      · rfl
      · exact patternTests_field f
  | like f param =>
      obtain ⟨v, hv, h⟩ := Except.bind_eq_ok.1 h
      obtain rfl := Except.pure_eq_ok.1 h
      rw [Expr.patternTests, patternTests_field, (parameter_eq_ok hv).1]
      rfl
  | regexp f param =>
      obtain ⟨b, hb, h⟩ := Except.bind_eq_ok.1 h
      obtain rfl := Except.pure_eq_ok.1 h
      have hm : (Expr.matches (field f) b).patternTests = [.regexp f param].filterMap x.patternTest? := by
        rw [Expr.patternTests, patternTests_field, (scalar_eq_ok hb).1]
        rfl
      -- a match is compared with one where it is not a truth value
      split
      · exact hm
      · rw [Expr.patternTests, hm]
        rfl
  | memberOf param f =>
      obtain ⟨b, -, h⟩ := Except.bind_eq_ok.1 h
      obtain ⟨column, rfl⟩ | ⟨members, rfl⟩ := memberTest_shape h
      · rfl
      · rfl
  | isNull f =>
      obtain rfl := Except.pure_eq_ok.1 h
      exact patternTests_field f
  | never | not | and | or =>
      obtain rfl := Except.pure_eq_ok.1 h
      rfl

mutual

/-- Groups and negations have the tests for patterns that their members have. -/
theorem patternTests_filter {c : Condition} {f : Filter} (h : x.filter c = .ok f) :
    f.toExpr.patternTests = c.tests.filterMap x.patternTest? := by
  match c with
  | .and [] | .or [] =>
      obtain rfl := Except.ok.inj h
      rfl
  | .and (c :: cs) | .or (c :: cs) =>
      simp only [filter, Except.map_eq_ok] at h
      obtain ⟨fs, hf, rfl⟩ := h
      rw [Filter.patternTests_group, patternTests_filters hf, Condition.tests]
  | .not inner =>
      rw [filter, Except.map_eq_ok] at h
      obtain ⟨g, hg, rfl⟩ := h
      rw [Filter.patternTests_negate, patternTests_filter hg, Condition.tests]
  | .compare .. | .isNull .. | .isIn .. | .like .. | .memberOf .. | .regexp .. | .never =>
      rw [filter_test rfl, Except.map_eq_ok] at h
      obtain ⟨e, he, rfl⟩ := h
      rw [Filter.leaf, Filter.patternTests_group, Filter.toExprs, Filter.toExprs, List.flatMap_singleton,
        Filter.toExpr, patternTests_leaf he, Condition.tests_of_isTest rfl]

theorem patternTests_filters {cs : List Condition} {fs : List Filter} (h : x.filters cs = .ok fs) :
    (Filter.toExprs fs).flatMap Expr.patternTests = (Condition.testsAll cs).filterMap x.patternTest? := by
  match cs with
  | [] =>
      obtain rfl := Except.ok.inj h
      rfl
  | c :: cs =>
      simp only [filters, Except.bind_eq_ok, Except.pure_eq_ok] at h
      obtain ⟨f, hf, fs, hfs, rfl⟩ := h
      rw [Filter.toExprs, List.flatMap_cons, patternTests_filter hf, patternTests_filters hfs,
        Condition.testsAll, List.filterMap_append]

end

theorem patternTests_expr? {c : Option Condition} {e : Option Expr} (h : x.expr? c = .ok e) :
    e.toList.flatMap Expr.patternTests = (c.toList.flatMap Condition.tests).filterMap x.patternTest? := by
  cases c with
  | none =>
      obtain rfl := Except.ok.inj h
      rfl
  | some c =>
      rw [expr?, expr, Except.map_eq_ok] at h
      obtain ⟨e, he, rfl⟩ := h
      obtain ⟨f, hf, rfl⟩ := Except.map_eq_ok.1 he
      simpa using patternTests_filter hf

end Context

section

variable {schema : Schema} {d : Dialect} {q : Query} {s : Statement}

theorem patternTests_orderItems (q : Query) :
    ((orderItems q).map Prod.fst).flatMap Expr.patternTests = [] := by
  rw [orderItems, List.map_map, List.flatMap_map]
  exact List.flatMap_eq_nil_iff.2 fun e _ => Context.patternTests_field e.1

/-- The statement of a query has the tests for patterns that its conditions have, with the values of their
parameters. -/
theorem patternTests_render (h : render schema d q = .ok s) :
    ∃ sources, s.patternTests = q.tests.filterMap (Context.patternTest? ⟨schema, d, q.parameters, sources⟩) := by
  cases hp : q.projection with
  | entity =>
      obtain ⟨e, sources, joins, filter, having, hr, hh, rfl⟩ := rows_of_render hp h
      refine ⟨sources, ?_⟩
      rw [Statement.patternTests, Statement.select, Select.exprs, List.flatMap_append, List.flatMap_append,
        Context.patternTests_expr? hr.passed, Context.patternTests_expr? hh, patternTests_orderItems,
        List.append_nil, Query.tests, List.filterMap_append]
  | count =>
      obtain ⟨e, sources, joins, filter, hr, h⟩ := count_of_render hp h
      refine ⟨sources, ?_⟩
      have hf := Context.patternTests_expr? hr.passed
      rw [Query.tests, List.filterMap_append, ← hf]
      unfold countStatement at h
      split at h
      · cases h
      · rename_i hh
        obtain rfl := Except.ok.inj h
        simp [Statement.patternTests, Statement.select, Select.exprs, hh]
      · obtain ⟨having, hh, h⟩ := Except.bind_eq_ok.1 h
        obtain rfl := Except.pure_eq_ok.1 h
        simp [Statement.patternTests, Statement.select, Select.exprs, Context.patternTests_expr? hh]

end

end Sql

namespace Wildcard

/-- Nothing that is a pattern is a number or a truth value. -/
theorem coerce_of_occurs (declared : Option FieldType) {s : String} (h : occurs s = true) :
    Coercion.coerce declared (.text s) = .text s := by
  by_cases hp : '%' ∈ s.toList
  · exact Coercion.coerce_of_mem declared hp rfl rfl
  · by_cases hu : '_' ∈ s.toList
    · exact Coercion.coerce_of_mem declared hu rfl rfl
    · rw [occurs_of_unmarked ⟨hp, hu⟩] at h
      cases h

end Wildcard

def Criterion.patternTest? (wildcards : Bool) (c : Criterion) : Option Sql.Expr :=
  let field := Sql.Context.field { Path.qualify c.field with template := c.template }
  match c.value with
  | .text s => if wildcards && Wildcard.occurs s then some (.like field s) else none
  | .array items =>
    let texts := items.map Scope.patternText
    if wildcards && texts.any Wildcard.occurs then some (.matches field (.text (Wildcard.anyOf texts))) else none
  | _ => none

theorem Criterion.patternTest?_eq_none {wildcards : Bool} {c : Criterion}
    (h : (wildcards && c.value.isPattern) = false) : c.patternTest? wildcards = none := by
  unfold patternTest?
  cases hv : c.value with
  | null | bool | int | float | backed => rfl
  | text | array =>
      rw [hv, Value.isPattern] at h
      exact if_neg (ne_true_of_eq_false h)

namespace Scope

variable {s : Scope} {x : Sql.Context} {c : Criterion}

theorem patternTest?_testOf (shape : Shape) : x.patternTest? (s.testOf c shape false) = none := by
  cases shape with
  | null => rfl
  | list n => cases n <;> rfl
  | scalar =>
      rw [testOf]
      split <;> rfl

/-- A term whose value is a pattern binds the pattern itself, whatever its type. -/
theorem patternTest?_test
    (hb : c.value.binds = true →
      ∃ declared, x.parameters.get? c.parameterName = some ⟨s.carried c.value, declared⟩) :
    x.patternTest? (s.test c).condition = c.patternTest? s.wildcards := by
  rw [condition_test]
  cases hp : s.wildcards && c.value.isPattern with
  | false => rw [patternTest?_testOf, Criterion.patternTest?_eq_none hp]
  | true =>
      have hc (h : c.value.binds = true) : ∃ declared,
          x.carried c.parameterName = Coercion.coerce declared (s.carried c.value) := by
        obtain ⟨declared, hd⟩ := hb h
        exact ⟨declared, by rw [Sql.Context.carried, hd]⟩
      rw [Criterion.patternTest?]
      cases hv : c.value with
      | null | bool | int | float | backed => simp [hv, Value.isPattern] at hp
      | text t =>
          rw [hv, Value.isPattern] at hp
          rw [hv] at hc
          obtain ⟨declared, hd⟩ := hc rfl
          have ht : Wildcard.occurs t = true := (Bool.and_eq_true_iff.1 hp).2
          have hk : x.carried c.parameterName = .text t := hd.trans (Wildcard.coerce_of_occurs declared ht)
          dsimp only
          rw [if_pos hp]
          change some (Sql.Expr.like _ (x.carried c.parameterName).indexKey) = _
          rw [hk]
          rfl
      | array items =>
          cases items with
          | nil => simp [hv, Value.isPattern] at hp
          | cons v items =>
              rw [hv, Value.isPattern] at hp
              rw [hv] at hc
              obtain ⟨declared, hd⟩ := hc rfl
              rw [carried, if_pos hp, Coercion.coerce_anchored declared (Wildcard.head?_anyOf _)] at hd
              dsimp only
              rw [if_pos hp]
              change some (Sql.Expr.matches _ (.ofValue (x.carried c.parameterName))) = _
              rw [hd]
              rfl

end Scope

namespace Plan

variable {catalog : Catalog} {criteria : Criteria} {order : OrderBy} {p : Plan} {q : Query}
  {projection : Projection} {limit offset : Option Nat}

/-- The tests for patterns in what is written for a call are those of its terms, each once and in order, with the
text that was given or with the expression made of the list. No type that a parameter may have alters them. -/
theorem patternTests_of_render {schema : Schema} {d : Sql.Dialect} {s : Sql.Statement}
    (hs : ∀ e ∈ criteria, e.selectable? = none) (hp : prepare catalog criteria order = .ok p)
    (hq : p.assemble catalog projection limit offset = .ok q) (hr : Sql.render schema d q = .ok s) :
    s.patternTests =
        (p.terms.filter fun c => c.field ≠ "").filterMap (Criterion.patternTest? p.options.wildcards) ∧
      (∀ t ∈ s.patternTests, d.expr t <:+: d.statement s) ∧
      (∀ c ∈ p.terms, ∃ e, (criteria.filter Entry.isTerm)[c.index]? = some e ∧ c.value = e.value.raw) ∧
      ∀ declared,
        (∀ text, Wildcard.occurs text = true → Coercion.coerce declared (.text text) = .text text) ∧
        ∀ texts, Coercion.coerce declared (.text (Wildcard.anyOf texts)) = .text (Wildcard.anyOf texts) := by
  obtain ⟨w, v, hw, hv, rfl⟩ := assemble_eq_assembled hs hp hq
  refine ⟨?_, fun t => Sql.Dialect.infix_statement, fun c => exists_entry_of_mem_terms hp, ?_⟩
  · obtain ⟨sources, hx⟩ := Sql.patternTests_render hr
    rw [hx, tests_assembled hw hv, List.filterMap_map]
    apply List.filterMap_congr
    intro c hc
    obtain ⟨hc, hf⟩ := List.mem_filter.1 hc
    apply Scope.patternTest?_test
    intro hb
    have hd : c.binds = true := by
      rw [Criterion.binds, hf, hb]
      rfl
    exact ⟨_, get?_of_binds hs hp hq hc hd⟩
  · intro declared
    exact ⟨fun text => Wildcard.coerce_of_occurs declared,
      fun texts => Coercion.coerce_anchored declared (Wildcard.head?_anyOf texts)⟩

theorem patternTests_of_render_names :
    let criteria : Criteria := [.options .like, .term "(|id" (.text "1%"),
      .term "!name" (.array [.text "a%", .text "b"]), .term "name" (.text "c")]
    ∃ p q s, (∀ e ∈ criteria, e.selectable? = none) ∧ prepare .musicians criteria [] = .ok p ∧
      p.assemble .musicians .entity none none = .ok q ∧ Sql.render Catalog.musicians.schema .sqlite q = .ok s ∧
      q.parameters.values.map Parameter.declared = [some .integer, some .string, some .string] ∧
      s.patternTests = [.like (.column "main" "id") "1%", .matches (.column "main" "name") (.text "^(a.*|b)$")] ∧
      ∀ t ∈ s.patternTests, Sql.Dialect.sqlite.expr t <:+: Sql.Dialect.sqlite.statement s := by
  intro criteria
  have hs : ∀ e ∈ criteria, e.selectable? = none := by
    simp [criteria, Entry.selectable?]
  obtain ⟨ht, hw, -, -⟩ := @patternTests_of_render .musicians criteria [] _ _ .entity none none
    Catalog.musicians.schema .sqlite _ hs rfl rfl rfl
  exact ⟨_, _, _, hs, rfl, rfl, rfl, rfl, ht.trans (by decide +kernel), hw⟩

end Plan

end Sift
