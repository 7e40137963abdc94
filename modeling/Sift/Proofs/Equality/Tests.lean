import Sift.Proofs.Equality.Agreement
import Sift.Proofs.Group.Append
import Sift.Proofs.Wildcard.Display

namespace Sift.EqualityFilter

/-- The test of a field for a value: null for null, one of the elements for a list, equality for all else. -/
inductive Equates (f : FieldRef) : Value → Condition → Prop where
  | null : Equates f .null (.isNull f)
  | list (items : List Value) (param : String) : Equates f (.array items) (.isIn f param)
  | scalar {v : Value} (hn : v.isNull = false) (ha : v.isArray = false) (param : String) :
      Equates f v (.compare f .eq param)

/-- No list within the value, if it is a list, has a text with wildcards in it, where these are enabled. -/
def Unhidden (wildcards : Bool) (v : Value) : Prop :=
  wildcards = true → ∀ items, v = .array items → ∀ w ∈ items, w.isArray = true →
    ∀ s ∈ w.texts, Wildcard.occurs s = false

variable {catalog : Catalog} {criteria : Criteria} {order : OrderBy} {p : Plan} {filter : EqualityFilter}

theorem isPlain_of_ofPlan? (h : ofPlan? catalog p = some filter) :
    ∀ c ∈ p.whereTerms, isPlain catalog p.options.wildcards c = true := by
  unfold ofPlan? at h
  split at h
  · rename_i hc
    simp only [Bool.and_eq_true, List.all_eq_true] at hc
    exact hc.2
  · cases h

theorem occurs_text_of_isPlain {wildcards : Bool} {c : Criterion} (h : isPlain catalog wildcards c = true)
    (hw : wildcards = true) {items : List Value} (hv : c.value = .array items) {s : String}
    (hs : .text s ∈ items) : Wildcard.occurs s = false := by
  rw [isPlain, Bool.and_eq_true, hv, hw] at h
  cases items with
  | nil => cases h.2
  | cons v items =>
      have ha := h.2
      simp only [Bool.true_and, Bool.not_eq_true'] at ha
      exact Bool.eq_false_iff.2 (List.any_eq_false.1 ha _ hs)

/-- Of a value without wrappers that is no list, the texts are the value itself or there are none. -/
theorem texts_of_isArray_eq_false {v : Value} (ha : v.isArray = false) (hb : ∀ w, v ≠ .backed w) :
    ∀ s ∈ v.texts, v = .text s := by
  cases v with
  | null | bool | int | float => simp [Value.texts]
  | text s => simp [Value.texts]
  | array items => cases ha
  | backed w => exact absurd rfl (hb w)

theorem any_occurs_iff_unhidden {wildcards : Bool} {c : Criterion} (h : isPlain catalog wildcards c = true)
    {items : List Value} (hv : c.value = .array items) (hb : ∀ v ∈ items, ∀ w, v ≠ .backed w) :
    (wildcards && (items.map Scope.patternText).any Wildcard.occurs) = false ↔ Unhidden wildcards c.value := by
  rw [Slot.any_occurs_eq_false_iff, hv]
  constructor
  · rintro hn hw _ ⟨⟩ w hm - s hs
    have ho := hn hw w hm
    rw [Wildcard.occurs_patternText, List.any_eq_false] at ho
    exact Bool.eq_false_iff.2 (ho s hs)
  · intro hu hw v hm
    rw [Wildcard.occurs_patternText, List.any_eq_false]
    intro s hs
    rw [Bool.not_eq_true]
    cases ha : v.isArray with
    | true => exact hu hw items rfl v hm ha s hs
    | false =>
        have ht := texts_of_isArray_eq_false ha (hb v hm) s hs
        exact occurs_text_of_isPlain h hw hv (ht ▸ hm)

theorem equates_test (t : Slot) : Equates t.ref t.1.2 t.test := by
  unfold Slot.test
  cases t.1.2 with
  | null => exact .null
  | array items => exact .list items _
  | bool | int | float | text | backed => exact .scalar rfl rfl _

/-- The plan of a filter tests the field of each term for its value, but for a list that hides wildcards:
there it looks for a pattern. -/
theorem equates_planned_iff (hp : Plan.prepare catalog criteria order = .ok p)
    (hf : ofPlan? catalog p = some filter) {c : Criterion} (hc : c ∈ p.whereTerms) :
    (Equates (slot c).ref c.value ((slot c).planned p.options.wildcards) ↔
        Unhidden p.options.wildcards c.value) ∧
      (¬ Unhidden p.options.wildcards c.value →
        (slot c).planned p.options.wildcards = .regexp (slot c).ref (slot c).name) := by
  have ha := accepts_of_ofPlan? hf
  have ht := equates_test (slot c)
  have hs : (slot c).1.2 = c.value := rfl
  cases hv : c.value with
  | null | bool | int | float | text | backed =>
      have hu : Unhidden p.options.wildcards c.value := by
        intro _ items hi
        rw [hv] at hi
        cases hi
      rw [hs, hv] at ht
      rw [hv] at hu
      rw [Slot.planned, hs, hv]
      exact ⟨iff_of_true ht hu, fun hn => absurd hu hn⟩
  | array items =>
      have hb : ∀ v ∈ items, ∀ w, v ≠ .backed w := by
        apply ne_backed_of_accepts hp ha (t := (c.field, c.value)) _ hv
        rw [ha.filter]
        exact List.mem_map_of_mem hc
      have hu := any_occurs_iff_unhidden (isPlain_of_ofPlan? hf c hc) hv hb
      rw [hv] at hu
      rw [hs, hv] at ht
      rw [← hu, Slot.planned, hs, hv]
      dsimp only
      cases p.options.wildcards && (items.map Scope.patternText).any Wildcard.occurs with
      | false => exact ⟨iff_of_true ht rfl, fun hn => absurd rfl hn⟩
      | true =>
          refine ⟨iff_of_false ?_ (by simp), fun _ => rfl⟩
          intro he
          cases he

/-- Where a filter is accepted, the plan is a conjunction of tests of root columns without negations, one
for each term. It tests the column of a term for its value if and only if the value hides no wildcards,
and otherwise for a pattern. -/
theorem equates_iff_unhidden (hp : Plan.prepare catalog criteria order = .ok p)
    (hf : ofPlan? catalog p = some filter) :
    Group.build (p.leaf catalog) p.whereTerms =
        .ok (Group.atTop p.whereTerms (p.whereTerms.map (p.leaf catalog))) ∧
      Group.build (p.leaf catalog) p.havingTerms = .ok none ∧
      ∀ c ∈ p.whereTerms,
        (Equates (.plain rootSource c.field) c.value (p.leaf catalog c) ↔
          Unhidden p.options.wildcards c.value) ∧
        (¬ Unhidden p.options.wildcards c.value →
          ∃ param, p.leaf catalog c = .regexp (.plain rootSource c.field) param) := by
  have ha := accepts_of_ofPlan? hf
  refine ⟨?_, ?_, ?_⟩
  · exact Group.build_of_junctors_eq_nil _ fun c hc => ⟨(ha.plain c hc).junctors, (ha.plain c hc).field⟩
  · rw [ha.havingTerms]
    rfl
  · intro c hc
    have hr : (slot c).ref = .plain rootSource c.field := qualify_of_accepts hp ha c hc
    obtain ⟨hi, hn⟩ := equates_planned_iff hp hf hc
    rw [← leaf_eq_planned hp ha hc, hr] at hi hn
    exact ⟨hi, fun hu => ⟨_, hn hu⟩⟩

theorem equates_iff_unhidden_names :
    let criteria : Criteria := [.options .like, .term "name" (.array [.text "a", .array [.text "b\\%"]])]
    ∃ p filter, Plan.prepare .musicians criteria [] = .ok p ∧ ofPlan? .musicians p = some filter ∧
      ∀ c ∈ p.whereTerms, Equates (.plain rootSource c.field) c.value (p.leaf .musicians c) := by
  intro criteria
  obtain ⟨-, -, h⟩ := @equates_iff_unhidden .musicians criteria [] _ _ rfl rfl
  refine ⟨_, _, rfl, rfl, fun c hc => (h c hc).1.2 ?_⟩
  obtain rfl := List.mem_singleton.1 hc
  rintro - items ⟨⟩ w hw ha s hs
  rcases List.mem_cons.1 hw with rfl | hw
  · cases ha
  · obtain rfl := List.mem_singleton.1 hw
    obtain rfl := List.mem_singleton.1 hs
    decide

/-- The texts in a list within a list are not looked at when a filter is accepted, but they are when it is
planned. -/
theorem not_equates_nested :
    ∃ p filter c, Plan.prepare .musicians [.options .like, .term "name" (.array [.array [.text "a%"]])] [] =
        .ok p ∧ ofPlan? .musicians p = some filter ∧ c ∈ p.whereTerms ∧
      Group.build (p.leaf .musicians) p.whereTerms =
        .ok (some (.regexp (.plain rootSource "name") "main_name_0")) ∧
      ¬ Equates (.plain rootSource c.field) c.value (p.leaf .musicians c) := by
  refine ⟨_, _, _, rfl, rfl, List.mem_cons_self, rfl, ?_⟩
  intro h
  cases h

end Sift.EqualityFilter
