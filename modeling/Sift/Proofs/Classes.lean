import Mathlib.Data.List.Nodup
import Sift.Classes
import Sift.Proofs.Except

namespace Sift

theorem Key.read_value {key : String} {v : Value} {index : Nat} {c : Criterion}
    (h : Key.read key v index = .ok c) : c.value = v.raw ∧ c.index = index := by
  simp only [Key.read, Except.bind_eq_ok, Except.pure_eq_ok] at h
  obtain ⟨ops, -, rfl⟩ := h
  exact ⟨rfl, rfl⟩

namespace Entry

def isTerm : Entry → Bool
  | .term _ _ | .criterion _ => true
  | .options _ | .selectable _ => false

def selectable? : Entry → Option Selectable
  | .selectable s => some s
  | _ => none

def value : Entry → Value
  | .term _ v => v
  | .criterion c => c.value
  | .options _ | .selectable _ => .null

inductive Gives (index : Nat) : Entry → Criterion → Prop where
  | term {key : String} {v : Value} {c : Criterion} (h : Key.read key v index = .ok c) :
      Gives index (.term key v) c
  | criterion (c : Criterion) (h : ∀ op ∈ c.comparator, op.check c.field c.value = .ok ()) :
      Gives index (.criterion c) { c with index, value := c.value.raw, literal := false }

theorem Gives.isTerm {index : Nat} {e : Entry} {c : Criterion} (h : e.Gives index c) : e.isTerm = true := by
  cases h <;> rfl

theorem Gives.index_eq {index : Nat} {e : Entry} {c : Criterion} (h : e.Gives index c) :
    c.index = index := by
  cases h with
  | term h => exact (Key.read_value h).2
  | criterion => rfl

theorem Gives.value_eq {index : Nat} {e : Entry} {c : Criterion} (h : e.Gives index c) :
    c.value = e.value.raw := by
  cases h with
  | term h => exact (Key.read_value h).1
  | criterion => rfl

end Entry

theorem Criteria.any_isOptions {R : Entry → Entry → Prop} (hr : ∀ e e', R e e' → isOptions e = isOptions e')
    {cs ds : Criteria} (h : List.Forall₂ R cs ds) : cs.any isOptions = ds.any isOptions := by
  induction h with
  | nil => rfl
  | cons he hl ih => rw [List.any_cons, List.any_cons, hr _ _ he, ih]

namespace Classes

theorem nextIndex_eq (p : Classes) : p.nextIndex = p.terms.length := by simp [nextIndex, terms]

/-- All that reading one entry can do. -/
theorem add_cases {p p' : Classes} {e : Entry} (h : p.add e = .ok p') :
    (∃ o, e = .options o ∧ p' = p) ∨
      (∃ s, e = .selectable s ∧ p' = { p with selectables := p.selectables ++ [s] }) ∨
      ∃ c, e.Gives p.nextIndex c ∧ p' = p.push c := by
  cases e with
  | options o => exact .inl ⟨o, rfl, by simpa [add] using h.symm⟩
  | selectable s => exact .inr (.inl ⟨s, rfl, by simpa [add] using h.symm⟩)
  | term key v =>
      simp only [add, Except.bind_eq_ok, Except.pure_eq_ok] at h
      obtain ⟨c, hc, rfl⟩ := h
      exact .inr (.inr ⟨c, .term hc, rfl⟩)
  | criterion c =>
      refine .inr (.inr ⟨_, .criterion c ?_, ?_⟩)
      · intro op ho
        rw [Option.mem_def] at ho
        simp only [add, ho, Except.bind_eq_ok] at h
        obtain ⟨_, hu, -⟩ := h
        exact hu
      · cases ho : c.comparator with
        | none => simpa [add, ho, pure, Except.pure] using h.symm
        | some op =>
            simp only [add, ho, Except.bind_eq_ok, Except.pure_eq_ok] at h
            obtain ⟨-, -, rfl⟩ := h
            rfl

/-- What an entry becomes is put in its class. -/
theorem add_of_gives {p : Classes} {e : Entry} {c : Criterion} (h : e.Gives p.nextIndex c) :
    p.add e = .ok (p.push c) := by
  cases h with
  | term h => rw [add, h]; rfl
  | criterion c h =>
      cases ho : c.comparator with
      | none => simp only [add, ho]; rfl
      | some op =>
          simp only [add, ho, h op ho]
          rfl

theorem goesToHaving_of_field {c : Criterion} (h : c.field ≠ "") (p : Classes) :
    p.goesToHaving c = c.isAggregate := by
  simp [goesToHaving, h]

theorem goesToHaving_of_isAggregate {c : Criterion} (h : c.isAggregate = true) (p : Classes) :
    p.goesToHaving c = true := by
  simp [goesToHaving, h]

/-- A term comes last in one class and leaves the other as it is. -/
theorem push_cases (p : Classes) (c : Criterion) :
    ((p.push c).whereTerms = p.whereTerms ++ [c] ∧ (p.push c).havingTerms = p.havingTerms) ∨
      ((p.push c).whereTerms = p.whereTerms ∧ (p.push c).havingTerms = p.havingTerms ++ [c]) := by
  unfold push
  split
  · exact .inr ⟨rfl, rfl⟩
  · exact .inl ⟨rfl, rfl⟩

theorem push_selectables (p : Classes) (c : Criterion) : (p.push c).selectables = p.selectables := by
  unfold push
  split <;> rfl

theorem perm_terms_push (p : Classes) (c : Criterion) : (p.push c).terms.Perm (p.terms ++ [c]) := by
  rcases push_cases p c with ⟨hw, hh⟩ | ⟨hw, hh⟩
  · rw [terms, terms, hw, hh, List.append_assoc, List.append_assoc]
    exact List.Perm.append_left _ List.perm_append_comm
  · rw [terms, terms, hw, hh, List.append_assoc]

structure Holds (es : Criteria) (p : Classes) : Prop where
  whereIncreasing : (p.whereTerms.map Criterion.index).Pairwise (· < ·)
  havingIncreasing : (p.havingTerms.map Criterion.index).Pairwise (· < ·)
  numbered : (p.terms.map Criterion.index).Perm (List.range (es.filter Entry.isTerm).length)
  given : ∀ c ∈ p.terms, ∃ e, (es.filter Entry.isTerm)[c.index]? = some e ∧ e.Gives c.index c
  selectables : p.selectables = es.filterMap Entry.selectable?

theorem holds_start (o : Options) : Holds [] (start o) := by
  constructor <;> simp [start, terms]

theorem Holds.nextIndex {es : Criteria} {p : Classes} (h : Holds es p) :
    p.nextIndex = (es.filter Entry.isTerm).length := by
  simpa [nextIndex_eq] using h.numbered.length_eq

theorem Holds.index_lt {es : Criteria} {p : Classes} (h : Holds es p) {c : Criterion} (hc : c ∈ p.terms) :
    c.index < p.nextIndex := by
  have hm := h.numbered.mem_iff.1 (List.mem_map_of_mem hc)
  rwa [List.mem_range, ← h.nextIndex] at hm

theorem pairwise_index_append {cs : List Criterion} {c : Criterion}
    (h : (cs.map Criterion.index).Pairwise (· < ·)) (hc : ∀ b ∈ cs, b.index < c.index) :
    ((cs ++ [c]).map Criterion.index).Pairwise (· < ·) := by
  rw [List.map_append, List.pairwise_append]
  refine ⟨h, List.pairwise_singleton _ _, ?_⟩
  simpa using hc

theorem Holds.push {es : Criteria} {p : Classes} (h : Holds es p) {e : Entry} {c : Criterion}
    (hc : e.Gives p.nextIndex c) : Holds (es ++ [e]) (p.push c) := by
  have hi : c.index = p.nextIndex := hc.index_eq
  have hf : (es ++ [e]).filter Entry.isTerm = es.filter Entry.isTerm ++ [e] := by
    simp [List.filter_append, hc.isTerm]
  have hw : ∀ b ∈ p.whereTerms, b.index < c.index := fun b hb =>
    hi ▸ h.index_lt (List.mem_append_left _ hb)
  have hh : ∀ b ∈ p.havingTerms, b.index < c.index := fun b hb =>
    hi ▸ h.index_lt (List.mem_append_right _ hb)
  refine ⟨?_, ?_, ?_, ?_, ?_⟩
  · rcases push_cases p c with ⟨he, -⟩ | ⟨he, -⟩
    · exact he ▸ pairwise_index_append h.whereIncreasing hw
    · exact he ▸ h.whereIncreasing
  · rcases push_cases p c with ⟨-, he⟩ | ⟨-, he⟩
    · exact he ▸ h.havingIncreasing
    · exact he ▸ pairwise_index_append h.havingIncreasing hh
  · apply ((perm_terms_push p c).map Criterion.index).trans
    rw [hf, List.map_append, List.length_append, List.length_singleton, List.range_succ, ← h.nextIndex,
      ← hi]
    exact List.Perm.append_right _ (hi ▸ h.nextIndex ▸ h.numbered)
  · intro b hb
    rw [hf]
    rcases List.mem_append.1 ((perm_terms_push p c).mem_iff.1 hb) with hb | hb
    · obtain ⟨d, hd, hg⟩ := h.given b hb
      exact ⟨d, by rw [List.getElem?_append_left (h.nextIndex ▸ h.index_lt hb), hd], hg⟩
    · obtain rfl := List.mem_singleton.1 hb
      exact ⟨e, by rw [hi, h.nextIndex, List.getElem?_concat_length], hi ▸ hc⟩
  · rw [push_selectables, h.selectables, List.filterMap_append]
    cases hc <;> simp [Entry.selectable?]

theorem Holds.add {es : Criteria} {p p' : Classes} (h : Holds es p) {e : Entry} (ha : p.add e = .ok p') :
    Holds (es ++ [e]) p' := by
  rcases add_cases ha with ⟨o, rfl, rfl⟩ | ⟨s, rfl, rfl⟩ | ⟨c, hc, rfl⟩
  · have hf : (es ++ [Entry.options o]).filter Entry.isTerm = es.filter Entry.isTerm := by
      simp [List.filter_append, Entry.isTerm]
    refine ⟨h.whereIncreasing, h.havingIncreasing, hf ▸ h.numbered, hf ▸ h.given, ?_⟩
    rw [h.selectables, List.filterMap_append, List.filterMap_cons_none rfl, List.filterMap_nil,
      List.append_nil]
  · have hf : (es ++ [Entry.selectable s]).filter Entry.isTerm = es.filter Entry.isTerm := by
      simp [List.filter_append, Entry.isTerm]
    refine ⟨h.whereIncreasing, h.havingIncreasing, hf ▸ h.numbered, hf ▸ h.given, ?_⟩
    rw [List.filterMap_append, ← h.selectables]
    rfl
  · exact h.push hc

theorem holds_ofCriteria {cs : Criteria} {p : Classes} (h : ofCriteria cs = .ok p) : Holds cs p := by
  rw [ofCriteria, Except.bind_eq_ok] at h
  obtain ⟨o, -, hf⟩ := h
  exact Except.foldlM_invariant Holds (holds_start o) (fun _ _ _ _ hs ha => hs.add ha) hf

/-- Without aggregates there are no conditions on groups, as no group of them is ever opened. -/
theorem havingTerms_eq_nil {cs : Criteria} {p : Classes} (h : ofCriteria cs = .ok p)
    (ha : ∀ c ∈ p.terms, c.isAggregate = false) : p.havingTerms = [] := by
  obtain ⟨o, -, hf⟩ := Except.bind_eq_ok.1 h
  refine (Except.foldlM_invariant (fun _ p => (∀ c ∈ p.terms, c.isAggregate = false) →
    p.havingTerms = [] ∧ p.havingDepth = 0) (fun _ => ⟨rfl, rfl⟩) ?_ hf ha).1
  intro _ e p p' ih hadd hp
  rcases add_cases hadd with ⟨o, -, rfl⟩ | ⟨s, -, rfl⟩ | ⟨c, -, rfl⟩
  · exact ih hp
  · exact ih hp
  · have hm (b : Criterion) (hb : b ∈ p.terms ++ [c]) : b.isAggregate = false :=
      hp b ((perm_terms_push p c).mem_iff.2 hb)
    obtain ⟨hh, hd⟩ := ih fun b hb => hm b (List.mem_append_left _ hb)
    have hg : p.goesToHaving c = false := by
      rw [goesToHaving, hm c (by simp), hd]
      simp
    rw [push, hg]
    exact ⟨hh, hd⟩

end Classes

end Sift
