import Sift.Proofs.Equality.Slot
import Sift.Proofs.Parameters

namespace Sift.EqualityFilter

variable {root : Entity}

theorem addTerm_eq (root : Entity) (index : Nat) (field : String) (v : Value) (q : Query) :
    addTerm root index field v q =
      (q.bindAll (Slot.parameter? root ((field, v), index)).toList, Slot.test ((field, v), index)) := by
  cases v <;> rfl

theorem bindAll_append (q : Query) (l l' : List (String × Parameter)) :
    q.bindAll (l ++ l') = (q.bindAll l).bindAll l' := by
  simp only [Query.bindAll, Named.putAll_append]

theorem addTerms_eq (root : Entity) (index : Nat) (q : Query) (filter : EqualityFilter) :
    addTerms root index q filter =
      (q.bindAll ((filter.zipIdx index).filterMap (Slot.parameter? root)),
        (filter.zipIdx index).map Slot.test) := by
  induction filter generalizing index q with
  | nil => rfl
  | cons t filter ih =>
      obtain ⟨field, v⟩ := t
      simp only [addTerms, addTerm_eq, ih, ← bindAll_append, List.zipIdx_cons, List.map_cons]
      cases h : Slot.parameter? root ((field, v), index) <;> simp [h]

def base (root : Entity) (order : OrderBy) (limit offset : Option Nat) (projection : Projection) : Query :=
  { Query.select root.name rootSource none with
    projection
    orderBy := (order.filter fun e => e.2 ≠ .index).map fun e => (Path.qualify e.1, e.2)
    maxResults := Plan.page limit
    firstResult := Plan.page offset }

def condition (filter : EqualityFilter) : Option Condition :=
  if filter = [] then none else some (.and (filter.zipIdx.map Slot.test))

def parameters (root : Entity) (filter : EqualityFilter) : Named Parameter :=
  Named.empty.putAll (filter.zipIdx.filterMap (Slot.parameter? root))

theorem toQuery_eq (root : Entity) (filter : EqualityFilter) (order : OrderBy) (limit offset : Option Nat)
    (projection : Projection) :
    filter.toQuery root order limit offset projection =
      { base root order limit offset projection with
        whereCondition := filter.condition, parameters := filter.parameters root } := by
  simp only [toQuery, addTerms_eq]
  cases filter <;> rfl

variable {catalog : Catalog} {criteria : Criteria} {order : OrderBy} {p : Plan} {filter : EqualityFilter}
  {projection : Projection} {limit offset : Option Nat}

structure Plain (catalog : Catalog) (wildcards : Bool) (c : Criterion) : Prop where
  negations : c.negations = 0
  junctors : c.junctors = []
  comparator : c.comparator = none
  template : c.template = none
  fieldType : c.fieldType = none
  field : c.field ≠ ""
  collection : catalog.root.isCollection c.field = false
  items : c.value ≠ .array []
  text : ∀ s, c.value = .text s → (wildcards && Wildcard.occurs s) = false

theorem plain_of_isPlain {wildcards : Bool} {c : Criterion} (h : isPlain catalog wildcards c = true) :
    Plain catalog wildcards c := by
  simp only [isPlain, Bool.and_eq_true, Bool.not_eq_true', Criterion.isNegated, bne_eq_false_iff_eq,
    List.isEmpty_iff, Option.isNone_iff_eq_none, decide_eq_true_eq] at h
  obtain ⟨⟨⟨⟨⟨⟨⟨hn, hj⟩, hc⟩, ht⟩, hf⟩, he⟩, hl⟩, hv⟩ := h
  refine ⟨hn, hj, hc, ht, hf, he, hl, ?_, ?_⟩
  · intro ha
    rw [ha] at hv
    cases hv
  · intro s hs
    rw [hs] at hv
    change (!(wildcards && Wildcard.occurs s)) = true at hv
    rwa [Bool.not_eq_true'] at hv

structure Accepts (catalog : Catalog) (p : Plan) (filter : EqualityFilter) : Prop where
  joins : p.joins = []
  indexBy : p.indexBy.entries = []
  selectables : p.selectables = []
  havingTerms : p.havingTerms = []
  plain : ∀ c ∈ p.whereTerms, Plain catalog p.options.wildcards c
  filter : filter = p.whereTerms.map fun c => (c.field, c.value)

theorem accepts_of_ofPlan? (h : ofPlan? catalog p = some filter) : Accepts catalog p filter := by
  unfold ofPlan? at h
  split at h
  · rename_i hc
    simp only [Bool.and_eq_true, List.isEmpty_iff, List.all_eq_true] at hc
    obtain ⟨⟨⟨⟨hj, hi⟩, hs⟩, hh⟩, hp⟩ := hc
    exact ⟨hj, hi, hs, hh, fun c hc => plain_of_isPlain (hp c hc), (Option.some.inj h).symm⟩
  · cases h

def slot (c : Criterion) : Slot := ((c.field, c.value), c.index)

/-- The terms of a plan without conditions on groups are numbered in their order. -/
theorem map_slot_whereTerms (hp : Plan.prepare catalog criteria order = .ok p)
    (ha : Accepts catalog p filter) : p.whereTerms.map slot = filter.zipIdx := by
  obtain ⟨classes, hs, hw, hh, -⟩ := Plan.holds_of_prepare hp
  have ht : classes.terms = p.whereTerms := by
    rw [Classes.terms, ← hw, ← hh, ha.havingTerms, List.append_nil]
  have hi : p.whereTerms.map Criterion.index = List.range p.whereTerms.length := by
    have hn := hs.numbered
    rw [ht] at hn
    have hl := hn.length_eq
    rw [List.length_map, List.length_range] at hl
    rw [hl]
    exact hn.eq_of_pairwise (fun a b _ _ h h' => absurd h (Nat.lt_asymm h')) (hw ▸ hs.whereIncreasing)
      List.pairwise_lt_range
  rw [ha.filter, List.zipIdx_eq_zip_range', List.length_map, ← List.range_eq_range', ← hi, List.zip_map']
  rfl

theorem qualify_of_accepts (hp : Plan.prepare catalog criteria order = .ok p)
    (ha : Accepts catalog p filter) :
    ∀ c ∈ p.whereTerms, Path.qualify c.field = .plain rootSource c.field := by
  intro c hc
  obtain ⟨classes, -, -, -, -, -, -, hj, -⟩ := Plan.prepare_eq_ok hp
  rw [ha.joins] at hj
  have he := List.map_eq_nil_iff.1 hj.symm
  have hm : c.field ∈ p.terms.map Criterion.field :=
    List.mem_map_of_mem (List.mem_append_left _ hc)
  exact Path.qualify_of_notMem (Path.notMem_of_steps_eq_nil (Resolution.steps_eq_nil_of_resolve he _ hm))

theorem leaf_eq_planned (hp : Plan.prepare catalog criteria order = .ok p) (ha : Accepts catalog p filter)
    {c : Criterion} (hc : c ∈ p.whereTerms) :
    p.leaf catalog c = (slot c).planned p.options.wildcards := by
  have hl := ha.plain c hc
  have hq := qualify_of_accepts hp ha c hc
  have hs : (p.scope catalog).isCollection (.plain rootSource c.field) = false := by
    rw [Scope.isCollection]
    exact (if_pos rfl).trans hl.collection
  have hr : ({ FieldRef.plain rootSource c.field with template := c.template } : FieldRef) =
      .plain rootSource c.field := by
    rw [hl.template]
    rfl
  have hn : (slot c).ref = .plain rootSource c.field := hq
  rw [Plan.leaf, Scope.compile, hl.negations, Scope.negate, Scope.test, hq, hr, hs, Slot.planned, Slot.test,
    Slot.name, hn, Criterion.resolvedComparator, hl.comparator]
  simp only [slot, Bool.false_and, Bool.false_eq_true, if_false]
  cases hv : c.value with
  | null | bool | int | float | backed => rfl
  | text s =>
      have hw := hl.text s hv
      simp only [Plan.scope, hw, Bool.false_eq_true, if_false]
      rfl
  | array items =>
      cases items with
      | nil => exact absurd hv hl.items
      | cons v items =>
          exact apply_ite Leaf.condition _ _ _

def plannedCondition (wildcards : Bool) (filter : EqualityFilter) : Option Condition :=
  if filter = [] then none
  else some (Group.Frame.top ⟨.all, false, filter.zipIdx.map (Slot.planned wildcards)⟩)

theorem assemble_of_accepts (hp : Plan.prepare catalog criteria order = .ok p)
    (ha : Accepts catalog p filter) (projection : Projection) (limit offset : Option Nat) :
    p.assemble catalog projection limit offset =
      .ok { base catalog.root order limit offset projection with
        whereCondition := filter.plannedCondition p.options.wildcards
        parameters := Named.empty.putAll (p.bindings catalog p.whereTerms) } := by
  obtain ⟨_, -, -, -, -, -, ho, -⟩ := Plan.prepare_eq_ok hp
  have hw : Group.build (p.leaf catalog) p.whereTerms =
      .ok (filter.plannedCondition p.options.wildcards) := by
    have hb := Group.build_of_junctors_eq_nil (p.leaf catalog)
      fun c hc => ⟨(ha.plain c hc).junctors, (ha.plain c hc).field⟩
    have hl : p.whereTerms.map (p.leaf catalog) = filter.zipIdx.map (Slot.planned p.options.wildcards) := by
      rw [← map_slot_whereTerms hp ha, List.map_map]
      exact List.map_congr_left fun c hc => leaf_eq_planned hp ha hc
    have hn : p.whereTerms = [] ↔ filter = [] := by rw [ha.filter, List.map_eq_nil_iff]
    rw [hb, hl, plannedCondition]
    simp only [hn]
  have ht : p.terms = p.whereTerms := by rw [Plan.terms, ha.havingTerms, List.append_nil]
  have hi : p.indexBy.get? rootSource = none := by simp [Named.get?, ha.indexBy]
  rw [Plan.assemble_eq, hw, ha.havingTerms, ha.selectables]
  simp only [Except.bind, Group.build, List.isEmpty_nil, if_true, List.foldl_nil, Plan.assembled, hi, ht,
    ha.joins, List.map_nil, Bool.not_true, Bool.false_and, ho, Resolution.orderBy_resolve]
  rfl

theorem map_fst_filterMap_parameter? (root : Entity) (ts : List Slot) :
    (ts.filterMap (Slot.parameter? root)).map Prod.fst =
      (ts.filter fun t => !t.1.2.isNull).map Slot.name := by
  induction ts with
  | nil => rfl
  | cons t ts ih => cases h : t.1.2.isNull <;> simp [Slot.parameter?, h] <;> exact ih

theorem entries_parameters (root : Entity) (filter : EqualityFilter) :
    (filter.parameters root).entries = filter.zipIdx.filterMap (Slot.parameter? root) := by
  have hi : (filter.zipIdx.map Prod.snd).Nodup := by
    rw [List.zipIdx_map_snd]
    exact List.nodup_range'
  apply Named.entries_putAll (t := Named.empty)
  rw [Named.names, Named.empty, List.map_nil, List.nil_append, map_fst_filterMap_parameter?]
  apply List.Nodup.map_on
  · intro t ht u hu hn
    exact List.inj_on_of_nodup_map hi (List.mem_of_mem_filter ht) (List.mem_of_mem_filter hu)
      (Path.parameterName_inj hn)
  · exact hi.of_map.filter _

theorem get?_parameters {t : Slot} (ht : t ∈ filter.zipIdx) (hn : t.1.2.isNull = false) (root : Entity) :
    (filter.parameters root).get? t.name = some ⟨t.1.2, t.type? root⟩ := by
  rw [Named.get?_eq_some_iff, entries_parameters, List.mem_filterMap]
  exact ⟨t, ht, by rw [Slot.parameter?, hn]; rfl⟩

/-- A plan binds what a filter binds, but for lists: these have no declared type, and one with wildcards is
bound as an expression. -/
theorem get?_bindings (hp : Plan.prepare catalog criteria order = .ok p) (ha : Accepts catalog p filter)
    {t : Slot} (ht : t ∈ filter.zipIdx) (hb : t.1.2.binds = true) :
    (Named.empty.putAll (p.bindings catalog p.whereTerms)).get? t.name =
      some ⟨(p.scope catalog).carried t.1.2,
        if ((p.scope catalog).carried t.1.2).isArray then none else t.type? catalog.root⟩ := by
  have hw : p.terms = p.whereTerms := by rw [Plan.terms, ha.havingTerms, List.append_nil]
  rw [← map_slot_whereTerms hp ha] at ht
  obtain ⟨c, hc, rfl⟩ := List.mem_map.1 ht
  have hl := ha.plain c hc
  have hq := qualify_of_accepts hp ha c hc
  have hv : c.binds = true := by
    rw [Criterion.binds, Bool.and_eq_true]
    exact ⟨decide_eq_true hl.field, hb⟩
  have he : p.entry catalog c ∈ p.bindings catalog p.whereTerms :=
    List.mem_map_of_mem (List.mem_filter.2 ⟨hc, hv⟩)
  have hn : (Named.empty.putAll (p.bindings catalog p.whereTerms)).entries =
      p.bindings catalog p.whereTerms :=
    Named.entries_putAll (t := Named.empty) (hw ▸ Plan.nodup_bindings hp)
  rw [← hn] at he
  have hd : ∀ v, Plan.declaredType catalog c (Path.qualify c.field) v =
      if v.isArray then none else (slot c).type? catalog.root := by
    intro v
    have hr : (slot c).ref = .plain rootSource c.field := hq
    simp [Plan.declaredType, hl.fieldType, hl.template, hq, Slot.type?, hr, FieldRef.plain]
  rw [← hd]
  exact Named.get?_eq_some_iff.2 he

end Sift.EqualityFilter
