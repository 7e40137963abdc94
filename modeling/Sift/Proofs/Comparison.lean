import Sift.Proofs.Classes

namespace Sift

namespace Value

mutual

def isUnwrapped : Value → Bool
  | .backed _ => false
  | .array items => areUnwrapped items
  | _ => true

def areUnwrapped : List Value → Bool
  | [] => true
  | v :: rest => v.isUnwrapped && areUnwrapped rest

end

mutual

theorem isUnwrapped_raw (v : Value) : v.raw.isUnwrapped = true := by
  match v with
  | .backed v =>
      rw [raw]
      exact isUnwrapped_raw v
  | .array items =>
      rw [raw, isUnwrapped]
      exact areUnwrapped_rawItems items
  | .null | .bool _ | .int _ | .float _ | .text _ => rfl

theorem areUnwrapped_rawItems (items : List Value) : areUnwrapped (rawItems items) = true := by
  match items with
  | [] => rfl
  | v :: items =>
      rw [rawItems, areUnwrapped, isUnwrapped_raw v, areUnwrapped_rawItems items]
      rfl

end

mutual

theorem raw_of_isUnwrapped {v : Value} (h : v.isUnwrapped = true) : v.raw = v := by
  match v with
  | .backed _ => cases h
  | .array items =>
      rw [isUnwrapped] at h
      rw [raw, rawItems_of_areUnwrapped h]
  | .null | .bool _ | .int _ | .float _ | .text _ => rfl

theorem rawItems_of_areUnwrapped {items : List Value} (h : areUnwrapped items = true) :
    rawItems items = items := by
  match items with
  | [] => rfl
  | v :: items =>
      rw [areUnwrapped, Bool.and_eq_true] at h
      rw [rawItems, raw_of_isUnwrapped h.1, rawItems_of_areUnwrapped h.2]

end

theorem raw_raw (v : Value) : v.raw.raw = v.raw := raw_of_isUnwrapped v.isUnwrapped_raw

end Value

structure Comparator.Fits (op : Comparator) (v : Value) : Prop where
  notNull : op = .eq → v ≠ .null
  notArray : ∀ items, v ≠ .array items

theorem Comparator.check_eq_ok {op : Comparator} {key : String} {v : Value} :
    op.check key v = .ok () ↔ op.Fits v := by
  constructor
  · intro h
    unfold check at h
    split at h
    · cases h
    · rename_i hn
      split at h
      · cases h
      · rename_i ha
        refine ⟨?_, ?_⟩
        · rintro rfl rfl
          exact hn rfl
        · rintro items rfl
          exact ha rfl
  · intro h
    cases v with
    | null =>
        have ho : op ≠ .eq := fun ho => h.notNull ho rfl
        simp [check, ho, Value.isArray]
    | array items => exact absurd rfl (h.notArray items)
    | bool | int | float | text | backed => simp [check, Value.isNull, Value.isArray]

namespace Key

variable {field : String} {v : Value} {ops ops' : Operators} {cs rest : List Char}

theorem comparator_takeJunctors (table : List (List Char × Junctor)) (ops : Operators) (cs : List Char) :
    (takeJunctors table ops cs).1.comparator = ops.comparator := by
  induction table generalizing ops cs with
  | nil => rfl
  | cons row table ih =>
      rw [takeJunctors]
      split
      · exact ih _ _
      · exact ih _ _

theorem comparator_takeNegation (ops : Operators) (cs : List Char) :
    (takeNegation ops cs).1.comparator = ops.comparator := by
  unfold takeNegation
  split <;> rfl

theorem takeComparators_fits {table : List (List Char × Comparator)}
    (h : takeComparators field v table ops cs = .ok (ops', rest)) (ho : ∀ op ∈ ops.comparator, op.Fits v) :
    ∀ op ∈ ops'.comparator, op.Fits v := by
  induction table generalizing ops cs with
  | nil =>
      obtain ⟨rfl, -⟩ := Prod.mk.inj (Except.ok.inj h)
      exact ho
  | cons row table ih =>
      rw [takeComparators] at h
      split at h
      · exact ih h ho
      · split at h
        · cases h
        · obtain ⟨⟨⟩, hc, h⟩ := Except.bind_eq_ok.1 h
          apply ih h
          rintro op ⟨⟩
          exact Comparator.check_eq_ok.1 hc

theorem pass_fits (h : pass field v ops cs = .ok (ops', rest)) (ho : ∀ op ∈ ops.comparator, op.Fits v) :
    ∀ op ∈ ops'.comparator, op.Fits v := by
  obtain ⟨marked, cs', hm⟩ : ∃ marked cs', takeJunctors junctorTexts ops (collapse cs) = (marked, cs') :=
    ⟨_, _, rfl⟩
  obtain ⟨negated, cs'', hn⟩ : ∃ negated cs'', takeNegation marked cs' = (negated, cs'') := ⟨_, _, rfl⟩
  have hc : negated.comparator = ops.comparator := by
    rw [← comparator_takeJunctors junctorTexts ops (collapse cs), hm, ← comparator_takeNegation marked cs', hn]
  simp only [pass, hm, hn] at h
  exact takeComparators_fits h (hc ▸ ho)

/-- A comparator is taken only if it fits the value, in whichever pass it is found. -/
theorem reduce_fits {passes : Nat} (h : reduce field v passes ops cs = .ok ops')
    (ho : ∀ op ∈ ops.comparator, op.Fits v) : ∀ op ∈ ops'.comparator, op.Fits v := by
  induction passes generalizing ops cs with
  | zero =>
      cases cs with
      | nil => exact Except.ok.inj h ▸ ho
      | cons c cs => cases h
  | succ passes ih =>
      cases cs with
      | nil => exact Except.ok.inj h ▸ ho
      | cons c cs =>
          obtain ⟨⟨next, cs'⟩, hp, h⟩ := Except.bind_eq_ok.1 h
          exact ih h (pass_fits hp ho)

end Key

namespace Criterion

def Obeys (c : Criterion) : Prop := ∀ op ∈ c.comparator, op.Fits c.value

theorem obeys_of_read {key : String} {v : Value} {index : Nat} {c : Criterion}
    (h : Key.read key v index = .ok c) : c.Obeys := by
  simp only [Key.read, Except.bind_eq_ok, Except.pure_eq_ok] at h
  obtain ⟨ops, hr, rfl⟩ := h
  exact Key.reduce_fits hr (by simp [Key.Operators.none])

end Criterion

namespace Entry

/-- A term that was built beforehand has a comparator that fits its value as it is once it is unwrapped. -/
def Obeys : Entry → Prop
  | .criterion c => ∀ op ∈ c.comparator, op.Fits c.value.raw
  | _ => True

theorem Gives.obeys_iff {index : Nat} {e : Entry} {c : Criterion} (h : e.Gives index c) :
    c.Obeys ↔ e.Obeys := by
  cases h with
  | term h => exact iff_of_true (Criterion.obeys_of_read h) trivial
  | criterion => rfl

end Entry

namespace Classes

variable {cs : Criteria} {p : Classes}

/-- No term among the entries is lost. -/
theorem Holds.exists_gives (h : Holds cs p) {e : Entry} (he : e ∈ cs) (ht : e.isTerm = true) :
    ∃ c ∈ p.terms, e.Gives c.index c := by
  obtain ⟨i, hi, rfl⟩ := List.getElem_of_mem (List.mem_filter.2 ⟨he, ht⟩)
  obtain ⟨c, hc, rfl⟩ := List.mem_map.1 (h.numbered.mem_iff.2 (List.mem_range.2 hi))
  obtain ⟨e', he', hg⟩ := h.given c hc
  rw [List.getElem?_eq_getElem hi, Option.some.injEq] at he'
  exact ⟨c, hc, he' ▸ hg⟩

/-- The values of accepted criteria are unwrapped, at any depth. Their explicit comparators fit these values
if and only if those of the terms that were built beforehand do, which are checked with the values still
wrapped. What is read from a key always obeys the rules. -/
theorem terms_obey_iff (h : ofCriteria cs = .ok p) :
    (∀ c ∈ p.terms, c.value.isUnwrapped = true) ∧
      ((∀ c ∈ p.terms, c.Obeys) ↔ ∀ c, .criterion c ∈ cs → ∀ op ∈ c.comparator, op.Fits c.value.raw) := by
  have hs := holds_ofCriteria h
  refine ⟨?_, ?_, ?_⟩
  · intro c hc
    obtain ⟨e, -, hg⟩ := hs.given c hc
    rw [hg.value_eq]
    exact e.value.isUnwrapped_raw
  · intro ho c hc
    obtain ⟨d, hd, hg⟩ := hs.exists_gives hc rfl
    exact hg.obeys_iff.1 (ho d hd)
  · intro ho c hc
    obtain ⟨e, he, hg⟩ := hs.given c hc
    apply hg.obeys_iff.2
    have hm : e ∈ cs := List.mem_of_mem_filter (List.mem_of_getElem? he)
    cases e with
    | criterion d => exact ho d hm
    | options | term | selectable => exact trivial

theorem terms_obey_iff_wrapped :
    let cs : Criteria := [.term "!>=name" (.backed (.text "a")), .term "id" (.array [.backed (.int 1), .null]),
      .criterion { Criterion.plain "id" (.backed (.backed (.int 3))) with comparator := some .lt }]
    ∃ p, ofCriteria cs = .ok p ∧ p.terms.map Criterion.comparator = [some .gte, none, some .lt] ∧
      (∀ c ∈ p.terms, c.value.isUnwrapped = true) ∧ ∀ c ∈ p.terms, c.Obeys := by
  intro cs
  have h := @terms_obey_iff cs _ rfl
  refine ⟨_, rfl, rfl, h.1, h.2.2 ?_⟩
  intro c hc op ho
  obtain rfl : c = { Criterion.plain "id" (.backed (.backed (.int 3))) with comparator := some .lt } := by
    simpa [cs] using hc
  obtain rfl : op = .lt := (Option.some.inj ho).symm
  exact ⟨by simp, by simp [Criterion.plain, Value.raw]⟩

/-- A null and an array that are wrapped pass the check of a term that was built beforehand, and are then
compared. With a key they are refused. -/
theorem not_terms_obey_wrapped :
    (∃ p, ofCriteria [.criterion { Criterion.plain "a" (.backed .null) with comparator := some .eq }] = .ok p ∧
      ∃ c ∈ p.terms, c.comparator = some .eq ∧ c.value = .null) ∧
    (∃ p, ofCriteria
        [.criterion { Criterion.plain "a" (.backed (.array [.int 1])) with comparator := some .lt }] = .ok p ∧
      ∃ c ∈ p.terms, c.comparator = some .lt ∧ c.value = .array [.int 1]) ∧
    ofCriteria [.term "=a" (.backed .null)] = .error (.nullComparison "a") ∧
    ofCriteria [.term "<a" (.backed (.array [.int 1]))] = .error (.arrayComparison "a") := by
  refine ⟨⟨_, rfl, _, List.mem_singleton.2 rfl, rfl, rfl⟩, ⟨_, rfl, _, List.mem_singleton.2 rfl, rfl, rfl⟩,
    rfl, rfl⟩

end Classes

end Sift
