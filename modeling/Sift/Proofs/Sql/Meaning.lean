import Sift.Proofs.Condition
import Sift.Proofs.Sql.Engine
import Sift.Proofs.Sql.Render

namespace Sift.Sql

namespace Context

variable {γ : Type} (m : Engine γ) (x : Context)

def carried (param : String) : Value :=
  match x.parameters.get? param with
  | some p => Coercion.coerce p.declared p.value
  | none => .null

def collection? (f : FieldRef) : Option (Entity × Association × Entity) := do
  let owner ← x.sources.get? f.source
  let a ← owner.associations.get? f.column
  let target ← x.schema.entity? a.target
  return (owner, a, target)

mutual

/-- The truth of a condition in three values. A single test is what the database answers to it. -/
def truth : Condition → Truth
  | .compare f op param => m.compare op (m.operand f) (m.bound (.ofValue (x.carried param)))
  | .isNull f => m.isNull (m.operand f)
  | .isIn f param =>
    let items := (x.carried param).elements
    if items.isEmpty then some false else m.among (m.operand f) (items.map fun v => m.bound (.ofValue v))
  | .like f param => m.like (m.operand f) (x.carried param).indexKey
  | .regexp f param => m.matched (m.operand f) (m.bound (.ofValue (x.carried param)))
  | .memberOf param f =>
    match x.collection? f with
    | some (owner, a, target) =>
      m.isMember (m.bound (.ofValue (x.carried param))) f.source owner a target
    | none => none
  | .never => some false
  | .not inner => Truth.not (truth inner)
  | .and components => Truth.group .all (truthEach components)
  | .or components => Truth.group .any (truthEach components)

def truthEach : List Condition → List Truth
  | [] => []
  | c :: rest => truth c :: truthEach rest

end

structure Resolves (f : FieldRef) (owner : Entity) (a : Association) (target : Entity) : Prop where
  found : x.collection? f = some (owner, a, target)
  owner : owner.identifier ≠ []
  target : ∀ name mappedBy, a = .toMany name mappedBy → target.identifier ≠ []

structure Closed (c : Condition) : Prop where
  bound : ∀ name ∈ c.parameterNames, ∃ p, x.parameters.get? name = some p
  resolved : ∀ param f, .memberOf param f ∈ c.tests → ∃ owner a target, x.Resolves f owner a target

variable {x}

theorem parameter_eq_ok {param : String} {v : Value} (h : x.parameter param = .ok v) :
    v = x.carried param ∧ ∃ p, x.parameters.get? param = some p := by
  unfold parameter at h
  rw [carried]
  split at h
  · rename_i p hp
    rw [hp]
    exact ⟨(Except.ok.inj h).symm, p, rfl⟩
  · cases h

theorem parameter_of_get? {param : String} {p : Parameter} (h : x.parameters.get? param = some p) :
    x.parameter param = .ok (x.carried param) := by
  rw [parameter, carried, h]

theorem scalar_eq_ok {param : String} {b : Bound} (h : x.scalar param = .ok b) :
    b = .ofValue (x.carried param) ∧ ∃ p, x.parameters.get? param = some p := by
  rw [scalar] at h
  cases hp : x.parameter param with
  | error e => rw [hp] at h; cases h
  | ok v =>
      rw [hp] at h
      obtain ⟨hv, hg⟩ := parameter_eq_ok hp
      exact ⟨(Except.ok.inj h).symm.trans (congrArg _ hv), hg⟩

theorem scalar_of_get? {param : String} {p : Parameter} (h : x.parameters.get? param = some p) :
    x.scalar param = .ok (.ofValue (x.carried param)) := by
  rw [scalar, parameter_of_get? h]
  rfl

end Context

namespace Context

variable {γ : Type} {m : Engine γ} {x : Context}

theorem collection?_eq_some {f : FieldRef} {owner target : Entity} {a : Association} :
    x.collection? f = some (owner, a, target) ↔ x.sources.get? f.source = some owner ∧
      owner.associations.get? f.column = some a ∧ x.schema.entity? a.target = some target := by
  simp only [collection?, Option.bind_eq_bind, Option.bind_eq_some_iff, Option.pure_def, Option.some.injEq,
    Prod.mk.injEq]
  constructor
  · rintro ⟨_, ho, _, ha, _, ht, rfl, rfl, rfl⟩
    exact ⟨ho, ha, ht⟩
  · rintro ⟨ho, ha, ht⟩
    exact ⟨owner, ho, a, ha, target, ht, rfl, rfl, rfl⟩

theorem memberTest_eq_ok {b : Bound} {f : FieldRef} {e : Expr} (h : x.memberTest b f = .ok e) :
    ∃ owner a target, x.Resolves f owner a target ∧
      ∀ {γ : Type} (m : Engine γ), m.test e = m.isMember (m.bound b) f.source owner a target := by
  simp only [memberTest, Except.bind_eq_ok, source_eq_ok, Entity.key_eq_ok] at h
  obtain ⟨owner, ho, ownerKey, ⟨hk, rfl⟩, ⟨a, target⟩, ha, h⟩ := h
  obtain ⟨ha, ht⟩ := Schema.association_eq_ok.1 ha
  have hf := collection?_eq_some.2 ⟨ho, ha, ht⟩
  cases a with
  | toOne name column =>
      obtain rfl := Except.pure_eq_ok.1 h
      exact ⟨owner, _, target, ⟨hf, hk, by simp⟩, fun m => m.truth_ofTruth _⟩
  | toMany name mappedBy =>
      simp only [Except.bind_eq_ok, Entity.key_eq_ok, Except.pure_eq_ok] at h
      obtain ⟨_, ⟨hi, rfl⟩, rfl⟩ := h
      exact ⟨owner, _, target, ⟨hf, hk, fun _ _ _ => hi⟩, fun m => m.truth_ofTruth _⟩
  | manyToMany name joinTable sourceColumn targetColumn =>
      obtain rfl := Except.pure_eq_ok.1 h
      exact ⟨owner, _, target, ⟨hf, hk, by simp⟩, fun m => m.truth_ofTruth _⟩

theorem memberTest_of_resolves {f : FieldRef} {owner target : Entity} {a : Association}
    (h : x.Resolves f owner a target) (b : Bound) : ∃ e, x.memberTest b f = .ok e := by
  obtain ⟨ho, ha, ht⟩ := collection?_eq_some.1 h.found
  have hk := Entity.key_eq_ok.2 ⟨h.owner, rfl⟩
  simp only [memberTest, source_eq_ok.2 ho, hk, Schema.association_eq_ok.2 ⟨ha, ht⟩, bind, Except.bind]
  cases a with
  | toOne | manyToMany => exact ⟨_, rfl⟩
  | toMany name mappedBy =>
      rw [Entity.key_eq_ok.2 ⟨h.target name mappedBy rfl, rfl⟩]
      exact ⟨_, rfl⟩

/-- What is known of a single condition is enough to write its test. -/
theorem leaf_of_closed {c : Condition} (hc : c.isTest = true) (h : x.Closed c) :
    ∃ e, x.leaf c = .ok e ∧ m.test e = x.truth m c := by
  have hb : ∀ param, param ∈ c.parameterNames → x.scalar param = .ok (.ofValue (x.carried param)) ∧
      x.parameter param = .ok (x.carried param) := by
    intro param hp
    obtain ⟨p, hg⟩ := h.bound param hp
    exact ⟨scalar_of_get? hg, parameter_of_get? hg⟩
  cases c with
  | compare f op param =>
      refine ⟨.compare op (field f) (.bound (.ofValue (x.carried param))), ?_, ?_⟩
      · simp only [leaf, (hb param (by simp [Condition.parameterNames])).1, bind, Except.bind]
        rfl
      · rw [truth, ← m.value_field]
        exact m.truth_ofTruth _
  | isNull f =>
      refine ⟨_, rfl, ?_⟩
      rw [truth, ← m.value_field]
      exact m.truth_ofTruth _
  | isIn f param =>
      obtain ⟨p, hg⟩ := h.bound param (by simp [Condition.parameterNames])
      refine ⟨_, by rw [leaf_isIn, parameter_of_get? hg]; rfl, ?_⟩
      simp only [truth]
      cases (x.carried param).elements.isEmpty with
      | true => exact m.test_always false
      | false =>
          rw [← m.value_field]
          exact (m.truth_ofTruth _).trans (by rw [List.map_map]; rfl)
  | like f param =>
      refine ⟨.like (field f) (x.carried param).indexKey, ?_, ?_⟩
      · simp only [leaf, (hb param (by simp [Condition.parameterNames])).2, bind, Except.bind]
        rfl
      · rw [truth, ← m.value_field]
        exact m.truth_ofTruth _
  | memberOf param f =>
      obtain ⟨owner, a, target, hr⟩ := h.resolved param f (by simp [Condition.tests])
      obtain ⟨e, he⟩ := memberTest_of_resolves hr (.ofValue (x.carried param))
      refine ⟨e, ?_, ?_⟩
      · simp only [leaf, (hb param (by simp [Condition.parameterNames])).1, bind, Except.bind, he]
      · obtain ⟨owner', a', target', hr', ht⟩ := memberTest_eq_ok he
        rw [ht, truth, hr'.found]
  | regexp f param =>
      let matched := Expr.matches (field f) (.ofValue (x.carried param))
      refine ⟨if x.dialect.patternIsBoolean then matched
        else .compare .eq matched (.bound (.constant 1)), ?_, ?_⟩
      · simp only [leaf, (hb param (by simp [Condition.parameterNames])).1, bind, Except.bind]
        rfl
      · rw [truth, ← m.value_field]
        -- where a match is not a truth value it is compared with one
        split
        · exact m.truth_ofTruth _
        · exact (m.truth_ofTruth _).trans (m.compare_one _)
  | never => exact ⟨_, rfl, m.test_always false⟩
  | not | and | or => cases hc

theorem closed_of_parameter {c : Condition} (hc : c.isTest = true) {param : String} {p : Parameter}
    (hn : c.parameterNames = [param]) (hg : x.parameters.get? param = some p)
    (hm : ∀ param f, c ≠ .memberOf param f) : x.Closed c := by
  refine ⟨?_, ?_⟩
  · rw [hn]
    simpa using ⟨p, hg⟩
  · intro param' f h
    cases c with
    | memberOf param f => exact absurd rfl (hm param f)
    | not | and | or => cases hc
    | compare | isNull | isIn | like | regexp | never => simp [Condition.tests] at h

theorem closed_of_leaf {c : Condition} (hc : c.isTest = true) {e : Expr} (h : x.leaf c = .ok e) :
    x.Closed c := by
  cases c with
  | compare f op param | regexp f param =>
      obtain ⟨b, hb, -⟩ := Except.bind_eq_ok.1 h
      obtain ⟨-, p, hg⟩ := scalar_eq_ok hb
      exact closed_of_parameter hc rfl hg (by simp)
  | isIn f param | like f param =>
      obtain ⟨v, hv, -⟩ := Except.bind_eq_ok.1 h
      obtain ⟨-, p, hg⟩ := parameter_eq_ok hv
      exact closed_of_parameter hc rfl hg (by simp)
  | memberOf param f =>
      obtain ⟨b, hb, hm⟩ := Except.bind_eq_ok.1 h
      obtain ⟨-, p, hg⟩ := scalar_eq_ok hb
      refine ⟨by simpa [Condition.parameterNames] using ⟨p, hg⟩, ?_⟩
      intro param' f' hf
      obtain ⟨rfl, rfl⟩ : param' = param ∧ f' = f := by simpa [Condition.tests] using hf
      obtain ⟨owner, a, target, hr, -⟩ := memberTest_eq_ok hm
      exact ⟨owner, a, target, hr⟩
  | isNull | never => exact ⟨by simp [Condition.parameterNames], by simp [Condition.tests]⟩
  | not | and | or => cases hc

theorem closed_not {c : Condition} : x.Closed (.not c) ↔ x.Closed c := by
  constructor
  · rintro ⟨hb, hr⟩
    exact ⟨by rwa [Condition.parameterNames] at hb, by rwa [Condition.tests_not] at hr⟩
  · rintro ⟨hb, hr⟩
    exact ⟨by rwa [Condition.parameterNames], by rwa [Condition.tests_not]⟩

theorem closed_group {k : Combinator} {cs : List Condition} :
    x.Closed (.group k cs) ↔ ∀ c ∈ cs, x.Closed c := by
  constructor
  · rintro ⟨hb, hr⟩ c hc
    rw [Condition.parameterNames_group] at hb
    rw [Condition.tests_group] at hr
    exact ⟨fun name h => hb name (List.mem_flatMap.2 ⟨c, hc, h⟩),
      fun param f h => hr param f (List.mem_flatMap.2 ⟨c, hc, h⟩)⟩
  · intro h
    refine ⟨?_, ?_⟩
    · rw [Condition.parameterNames_group]
      intro name hm
      obtain ⟨c, hc, hm⟩ := List.mem_flatMap.1 hm
      exact (h c hc).bound name hm
    · rw [Condition.tests_group]
      intro param f hm
      obtain ⟨c, hc, hm⟩ := List.mem_flatMap.1 hm
      exact (h c hc).resolved param f hm

theorem filter_group {k : Combinator} {cs : List Condition} (h : cs ≠ []) :
    x.filter (.group k cs) = (x.filters cs).map (.group false k) := by
  cases cs with
  | nil => exact absurd rfl h
  | cons c cs => cases k <;> rw [Condition.group, filter] <;> simp

theorem filter_group_nil (k : Combinator) : x.filter (.group k []) = .ok (.leaf (.always (k = .all))) := by
  cases k <;> rfl

theorem filter_test {c : Condition} (hc : c.isTest = true) : x.filter c = (x.leaf c).map .leaf := by
  cases c with
  | not | and | or => cases hc
  | compare | isNull | isIn | like | memberOf | regexp | never => rfl

theorem filter_group_of_filters {k : Combinator} {cs : List Condition} {fs : List Filter}
    (hf : x.filters cs = .ok fs) (ht : (Filter.toExprs fs).map m.test = x.truthEach m cs) :
    ∃ f, x.filter (.group k cs) = .ok f ∧ m.test f.toExpr = Truth.group k (x.truthEach m cs) := by
  by_cases hc : cs = []
  · subst hc
    exact ⟨_, filter_group_nil k, m.test_always _⟩
  · refine ⟨.group false k fs, ?_, ?_⟩
    · rw [filter_group hc, hf]
      rfl
    · rw [m.test_group, ht]

mutual

theorem filter_of_closed (m : Engine γ) (c : Condition) (h : x.Closed c) :
    ∃ f, x.filter c = .ok f ∧ m.test f.toExpr = x.truth m c := by
  match c with
  | .not inner =>
      obtain ⟨f, hf, ht⟩ := filter_of_closed m inner (closed_not.1 h)
      refine ⟨f.negate, ?_, ?_⟩
      · rw [filter, hf]
        rfl
      · rw [m.test_negate, ht, truth]
  | .and cs =>
      obtain ⟨fs, hf, ht⟩ := filters_of_closed m cs ((@closed_group x .all cs).1 h)
      rw [truth]
      exact filter_group_of_filters (k := .all) hf ht
  | .or cs =>
      obtain ⟨fs, hf, ht⟩ := filters_of_closed m cs ((@closed_group x .any cs).1 h)
      rw [truth]
      exact filter_group_of_filters (k := .any) hf ht
  | .compare .. | .isNull .. | .isIn .. | .like .. | .memberOf .. | .regexp .. | .never =>
      obtain ⟨e, he, ht⟩ := leaf_of_closed (m := m) rfl h
      refine ⟨.leaf e, ?_, ht⟩
      rw [filter_test rfl, he]
      rfl

theorem filters_of_closed (m : Engine γ) (cs : List Condition) (h : ∀ c ∈ cs, x.Closed c) :
    ∃ fs, x.filters cs = .ok fs ∧ (Filter.toExprs fs).map m.test = x.truthEach m cs := by
  match cs with
  | [] => exact ⟨[], rfl, rfl⟩
  | c :: cs =>
      obtain ⟨hc, hcs⟩ := List.forall_mem_cons.1 h
      obtain ⟨f, hf, ht⟩ := filter_of_closed m c hc
      obtain ⟨fs, hfs, hts⟩ := filters_of_closed m cs hcs
      refine ⟨f :: fs, ?_, ?_⟩
      · rw [filters, hf, hfs]
        rfl
      · rw [Filter.toExprs, List.map_cons, ht, hts, truthEach]

end

mutual

theorem closed_of_filter {c : Condition} {f : Filter} (h : x.filter c = .ok f) : x.Closed c := by
  match c with
  | .not inner =>
      rw [filter, Except.map_eq_ok] at h
      obtain ⟨g, hg, -⟩ := h
      exact closed_not.2 (closed_of_filter hg)
  | .and [] => exact (@closed_group x .all []).2 (by simp)
  | .or [] => exact (@closed_group x .any []).2 (by simp)
  | .and (c :: cs) =>
      simp only [filter, Except.map_eq_ok] at h
      obtain ⟨fs, hf, -⟩ := h
      exact (@closed_group x .all (c :: cs)).2 (closed_of_filters hf)
  | .or (c :: cs) =>
      simp only [filter, Except.map_eq_ok] at h
      obtain ⟨fs, hf, -⟩ := h
      exact (@closed_group x .any (c :: cs)).2 (closed_of_filters hf)
  | .compare .. | .isNull .. | .isIn .. | .like .. | .memberOf .. | .regexp .. | .never =>
      rw [filter_test rfl, Except.map_eq_ok] at h
      obtain ⟨e, he, -⟩ := h
      exact closed_of_leaf rfl he

theorem closed_of_filters {cs : List Condition} {fs : List Filter} (h : x.filters cs = .ok fs) :
    ∀ c ∈ cs, x.Closed c := by
  match cs with
  | [] => simp
  | c :: cs =>
      simp only [filters, Except.bind_eq_ok] at h
      obtain ⟨f, hf, fs, hfs, -⟩ := h
      exact List.forall_mem_cons.2 ⟨closed_of_filter hf, closed_of_filters hfs⟩

end

/-- A condition is written if and only if its parameters are bound and its collections are known. Whatever a
database answers to the single tests, it answers to what is written as the condition says, where groups,
negations, constants and lists without elements have their truth in three values. -/
theorem filter_eq_truth_iff (m : Engine γ) (x : Context) (c : Condition) :
    (∃ f, x.filter c = .ok f ∧ m.test f.toExpr = x.truth m c) ↔ x.Closed c :=
  ⟨fun ⟨_, hf, _⟩ => closed_of_filter hf, filter_of_closed m c⟩

/-- Where the name is null it is in no list without elements, and whether it is Ada is unknown. -/
example :
    let x : Context := ⟨.empty, .sqlite,
      Named.ofList [("none", ⟨.array [], none⟩), ("ada", ⟨.text "Ada", none⟩)], Named.empty⟩
    let m := Engine.cells (fun _ _ => .null) (fun _ _ _ => .null) (fun _ _ _ _ => [])
    let name := FieldRef.plain rootSource "name"
    let written (c : Condition) := (x.filter c).map fun f => m.test f.toExpr
    written (.not (.not (.isIn name "none"))) = .ok (some false) ∧
      written (.or [.isIn name "none", .not (.compare name .eq "ada")]) = .ok none := ⟨rfl, rfl⟩

end Context

end Sift.Sql
