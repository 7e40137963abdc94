import Sift.Proofs.Equality.Query

namespace Sift.EqualityFilter

variable {catalog : Catalog} {criteria : Criteria} {order : OrderBy} {p : Plan} {filter : EqualityFilter}

theorem mem_of_mem_zipIdx {t : Slot} (h : t ∈ filter.zipIdx) : t.1 ∈ filter := by
  have := List.mem_map_of_mem (f := Prod.fst) h
  rwa [List.zipIdx_map_fst] at this

theorem zipIdx_ne_nil (h : filter ≠ []) : filter.zipIdx ≠ [] := by
  simpa using h

theorem expr?_condition {x : Sql.Context} {root : Entity} (hx : x.parameters = filter.parameters root)
    (hi : ∀ t ∈ filter, t.2 ≠ .array []) :
    x.expr? filter.condition = .ok (Sql.Expr.conj? (filter.zipIdx.map (Slot.expr root))) := by
  by_cases hf : filter = []
  · subst hf
    rfl
  · rw [condition, if_neg hf]
    apply Sql.Context.expr?_and (zipIdx_ne_nil hf)
    intro t ht
    apply Slot.filter_test (hi _ (mem_of_mem_zipIdx ht))
    intro hn
    rw [hx]
    exact get?_parameters ht hn root

theorem expr?_plannedCondition {x : Sql.Context} (hp : Plan.prepare catalog criteria order = .ok p)
    (ha : Accepts catalog p filter)
    (hx : x.parameters = Named.empty.putAll (p.bindings catalog p.whereTerms))
    (hi : ∀ t ∈ filter, t.2 ≠ .array []) :
    x.expr? (filter.plannedCondition p.options.wildcards) =
      .ok (Sql.Expr.conj?
        (filter.zipIdx.map (Slot.plannedExpr x.dialect p.options.wildcards catalog.root))) := by
  have ht : ∀ t : Slot, t ∈ filter.zipIdx → x.filter (t.planned p.options.wildcards) =
      .ok (.leaf (t.plannedExpr x.dialect p.options.wildcards catalog.root)) := by
    intro t ht
    apply Slot.filter_planned (s := p.scope catalog) (hi _ (mem_of_mem_zipIdx ht))
    intro hb
    rw [hx]
    exact get?_bindings hp ha ht hb
  rw [plannedCondition]
  cases hz : filter.zipIdx with
  | nil =>
      have hf : filter = [] := by simpa using hz
      rw [if_pos hf]
      rfl
  | cons t ts =>
      have hf : filter ≠ [] := by
        rintro rfl
        cases hz
      rw [if_neg hf]
      rw [hz] at ht
      cases ts with
      | nil => exact Sql.Context.expr?_single (ht t List.mem_cons_self)
      | cons u ts => exact Sql.Context.expr?_and (by simp) ht

theorem ne_backed_of_accepts (hp : Plan.prepare catalog criteria order = .ok p)
    (ha : Accepts catalog p filter) {t : String × Value} (ht : t ∈ filter) {items : List Value}
    (hv : t.2 = .array items) : ∀ v ∈ items, ∀ w, v ≠ .backed w := by
  intro v hm w
  obtain ⟨classes, hs, hw, -⟩ := Plan.holds_of_prepare hp
  rw [ha.filter] at ht
  obtain ⟨c, hc, rfl⟩ := List.mem_map.1 ht
  obtain ⟨e, -, hg⟩ := hs.given c (List.mem_append_left _ (hw ▸ hc))
  obtain ⟨u, rfl⟩ := Value.mem_of_raw_eq_array (hg.value_eq.symm.trans hv) hm
  exact u.raw_ne_backed w

theorem ne_array_nil_of_accepts (ha : Accepts catalog p filter) : ∀ t ∈ filter, t.2 ≠ .array [] := by
  rw [ha.filter]
  simpa using fun c hc => (ha.plain c hc).items

theorem column_ref_of_accepts (hp : Plan.prepare catalog criteria order = .ok p)
    (ha : Accepts catalog p filter) {t : Slot} (ht : t ∈ filter.zipIdx) : t.ref.column = t.1.1 := by
  rw [← map_slot_whereTerms hp ha] at ht
  obtain ⟨c, hc, rfl⟩ := List.mem_map.1 ht
  exact congrArg FieldRef.column (qualify_of_accepts hp ha c hc)

/-- The values of a conjunction determine those of its members, and these whether the lists are kept. -/
theorem kept_of_values_conj?_eq (hp : Plan.prepare catalog criteria order = .ok p)
    (ha : Accepts catalog p filter) {d : Sql.Dialect}
    (h : (Sql.Expr.conj? (filter.zipIdx.map (Slot.expr catalog.root))).toList.flatMap d.values =
      (Sql.Expr.conj? (filter.zipIdx.map
        (Slot.plannedExpr d p.options.wildcards catalog.root))).toList.flatMap d.values) :
    ∀ t ∈ filter, Kept catalog.root p.options.wildcards t := by
  rw [d.values_conj?, d.values_conj?, List.flatMap_map, List.flatMap_map] at h
  have hi : ∀ t : Slot, t ∈ filter.zipIdx → t.1.2 ≠ .array [] := by
    intro t ht
    exact ne_array_nil_of_accepts ha _ (mem_of_mem_zipIdx ht)
  have hr : ∀ t : Slot, t ∈ filter.zipIdx → ∀ items, t.1.2 = .array items →
      ∀ v ∈ items, ∀ w, v ≠ .backed w := by
    intro t ht items hv
    exact ne_backed_of_accepts hp ha (mem_of_mem_zipIdx ht) hv
  have hl := Slot.eq_of_flatMap_eq (fun t ht => Slot.aligned_values (hi t ht) (hr t ht)) h
  intro t ht
  rw [← List.zipIdx_map_fst 0 filter] at ht
  obtain ⟨u, hu, rfl⟩ := List.mem_map.1 ht
  exact Slot.kept_of_values_eq (column_ref_of_accepts hp ha hu) (hi u hu) (hr u hu) (hl u hu)

/-- The query of a filter fails as the query of the plan does. It is written as the same statement with the
same values if and only if all lists of the filter are kept, or if both fail. -/
theorem toQuery_build_eq_iff (hp : Plan.prepare catalog criteria order = .ok p)
    (hf : ofPlan? catalog p = some filter) (projection : Projection) (limit offset : Option Nat) :
    ∃ q, p.assemble catalog projection limit offset = .ok q ∧ ∀ schema d,
      (∀ e, Sql.build schema d (filter.toQuery catalog.root order limit offset projection) = .error e ↔
        Sql.build schema d q = .error e) ∧
      (Sql.build schema d (filter.toQuery catalog.root order limit offset projection) =
          Sql.build schema d q ↔
        (∃ e, Sql.build schema d q = .error e) ∨
          ∀ t ∈ filter, Kept catalog.root p.options.wildcards t) := by
  have ha := accepts_of_ofPlan? hf
  refine ⟨_, assemble_of_accepts hp ha projection limit offset, ?_⟩
  intro schema d
  have hi := ne_array_nil_of_accepts ha
  have hc : ∀ sources, Sql.Context.expr? ⟨schema, d, filter.parameters catalog.root, sources⟩
      filter.condition = .ok (Sql.Expr.conj? (filter.zipIdx.map (Slot.expr catalog.root))) :=
    fun _ => expr?_condition rfl hi
  have hc' : ∀ sources, Sql.Context.expr?
      ⟨schema, d, Named.empty.putAll (p.bindings catalog p.whereTerms), sources⟩
      (filter.plannedCondition p.options.wildcards) =
        .ok (Sql.Expr.conj? (filter.zipIdx.map (Slot.plannedExpr d p.options.wildcards catalog.root))) :=
    fun _ => expr?_plannedCondition hp ha rfl hi
  obtain ⟨he, hs, hv⟩ :=
    Sql.build_flat_eq (q := base catalog.root order limit offset projection) rfl rfl hc hc'
  rw [toQuery_eq]
  refine ⟨he, ?_, ?_⟩
  · intro h
    exact (hv h).imp_right (kept_of_values_conj?_eq hp ha)
  · rintro (⟨e, h⟩ | hk)
    · rw [h]
      exact (he e).2 h
    · apply hs
      apply congrArg Sql.Expr.conj?
      apply List.map_congr_left
      intro t ht
      exact Slot.expr_eq_of_kept (column_ref_of_accepts hp ha ht) (hk _ (mem_of_mem_zipIdx ht))

theorem toQuery_build_eq_iff_names :
    let criteria : Criteria := [.options .like, .term "name" (.array [.text "a", .null]), .term "id" (.int 1)]
    ∃ p filter q, Plan.prepare .musicians criteria [("name", .desc)] = .ok p ∧
      ofPlan? .musicians p = some filter ∧ p.assemble .musicians .entity (some 1) none = .ok q ∧
      ∀ schema d, Sql.build schema d
          (filter.toQuery Catalog.musicians.root [("name", .desc)] (some 1) none .entity) =
        Sql.build schema d q := by
  intro criteria
  obtain ⟨q, hq, h⟩ := @toQuery_build_eq_iff .musicians criteria [("name", .desc)] _ _ rfl rfl .entity
    (some 1) none
  refine ⟨_, _, q, rfl, rfl, hq, fun schema d => (h schema d).2.2 (.inr ?_)⟩
  refine List.forall_mem_cons.2 ⟨?_, List.forall_mem_cons.2 ⟨?_, List.forall_mem_nil _⟩⟩
  · rintro items ⟨⟩
    exact ⟨fun _ => by decide, by decide⟩
  · rintro items ⟨⟩

theorem build_ne_of_values {a b : Except SqlError Sql.Prepared} (vs ws : List Sql.Bound)
    (ha : a.map Sql.Prepared.values = .ok vs) (hb : b.map Sql.Prepared.values = .ok ws) (h : vs ≠ ws) :
    a ≠ b := by
  rintro rfl
  exact h (Except.ok.inj (ha.symm.trans hb))

/-- A filter binds the text of a list as a number if the column is one, and looks for the text of a list
in a list where a plan takes it for a pattern. A plan does not. -/
theorem toQuery_build_ne :
    (∃ p filter q, Plan.prepare .musicians [.term "id" (.array [.text "1"])] [] = .ok p ∧
      ofPlan? .musicians p = some filter ∧ p.assemble .musicians .entity none none = .ok q ∧
      Sql.build Catalog.musicians.schema .sqlite
        (filter.toQuery Catalog.musicians.root [] none none .entity) ≠
      Sql.build Catalog.musicians.schema .sqlite q) ∧
    (∃ p filter q, Plan.prepare .musicians
        [.options .like, .term "name" (.array [.array [.text "a%"]])] [] = .ok p ∧
      ofPlan? .musicians p = some filter ∧ p.assemble .musicians .entity none none = .ok q ∧
      Sql.build Catalog.musicians.schema .sqlite
        (filter.toQuery Catalog.musicians.root [] none none .entity) ≠
      Sql.build Catalog.musicians.schema .sqlite q) := by
  constructor
  · exact ⟨_, _, _, rfl, rfl, rfl, build_ne_of_values [.int 1] [.text "1"] rfl rfl (by decide)⟩
  · exact ⟨_, _, _, rfl, rfl, rfl,
      build_ne_of_values [.text "[\"a%\"]"] [.text "^(['a.*'])$", .constant 1] rfl rfl (by decide)⟩

end Sift.EqualityFilter
