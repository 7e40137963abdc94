import Sift.Proofs.Equality.Agreement
import Sift.Repository

namespace Sift

namespace Group

def Stack.AsDeep (s t : Stack) : Prop := s.outer.length = t.outer.length

/-- A mark is followed or refused by how many groups are open, not by what is in them. -/
theorem junction_agree {s t : Stack} (h : s.AsDeep t) (key : String) (j : Junctor) :
    Except.Agree Stack.AsDeep (s.junction key j) (t.junction key j) := by
  obtain ⟨f, outer⟩ := s
  obtain ⟨g, outer'⟩ := t
  match j, outer, outer' with
  | .opens k n, _, _ => exact .ok (congrArg (· + 1) h)
  | .close, [], [] => exact .error _
  | .close, _ :: _, _ :: _ => exact .ok (Nat.succ.inj h)
  | .close, [], _ :: _ => cases h
  | .close, _ :: _, [] => cases h

theorem term_agree (leaf leaf' : Criterion → Condition) {s t : Stack} (h : s.AsDeep t) (c : Criterion) :
    Except.Agree Stack.AsDeep (Stack.term leaf s c) (Stack.term leaf' t c) := by
  have hj : Except.Agree Stack.AsDeep (c.junctors.foldlM (Stack.junction c.field) s)
      (c.junctors.foldlM (Stack.junction c.field) t) := by
    apply Except.agree_foldlM _ (List.forall₂_same.2 fun j _ => rfl) h
    rintro s t j _ hs rfl
    exact junction_agree hs c.field j
  apply hj.bind
  intro s t hs
  by_cases hf : c.field = ""
  · rw [if_pos hf, if_pos hf]
    exact .ok hs
  · rw [if_neg hf, if_neg hf]
    exact .ok hs

/-- Whether groups are balanced, and which key is to blame if they are not, does not depend on the terms. -/
theorem build_agree (leaf leaf' : Criterion → Condition) (cs : List Criterion) :
    Except.Agree (fun _ _ => True) (build leaf cs) (build leaf' cs) := by
  rw [build, build]
  by_cases hc : cs.isEmpty
  · rw [if_pos hc, if_pos hc]
    exact .ok trivial
  · rw [if_neg hc, if_neg hc]
    have hd : Stack.start.AsDeep .start := rfl
    have hs : Except.Agree Stack.AsDeep (cs.foldlM (Stack.term leaf) .start)
        (cs.foldlM (Stack.term leaf') .start) := by
      apply Except.agree_foldlM _ (List.forall₂_same.2 fun c _ => rfl) hd
      rintro s t c _ hs rfl
      exact term_agree leaf leaf' hs c
    exact hs.bind fun s t _ => .ok trivial

end Group

/-- What is wrong with criteria, whatever they are asked of: they cannot be read, or a group is closed that
was never opened. -/
def Criteria.verdict (criteria : Criteria) : Except CriteriaError Unit := do
  let classes ← Classes.ofCriteria criteria
  let _ ← Group.build (fun _ => .and []) classes.whereTerms
  let _ ← Group.build (fun _ => .and []) classes.havingTerms
  return ()

namespace Plan

variable {catalog : Catalog} {criteria : Criteria} {order : OrderBy} {p : Plan}

theorem verdict_of_prepare_eq_error {e : CriteriaError} (h : prepare catalog criteria order = .error e) :
    criteria.verdict = .error e := by
  obtain hc | ⟨classes, -, h⟩ := Except.bind_eq_error.1 h
  · rw [Criteria.verdict, hc]
    rfl
  · cases h

/-- After reading only the groups can be refused, and they are refused for every projection and paging. -/
theorem verdict_agree_assemble (h : prepare catalog criteria order = .ok p) (projection : Projection)
    (limit offset : Option Nat) :
    Except.Agree (fun _ _ => True) criteria.verdict (p.assemble catalog projection limit offset) := by
  obtain ⟨classes, hc, -, hw, hh, -⟩ := prepare_eq_ok h
  rw [Criteria.verdict, hc, assemble_eq, hw, hh]
  apply (Group.build_agree _ _ _).bind
  intro _ _ _
  apply (Group.build_agree _ _ _).bind
  intro _ _ _
  exact .ok trivial

/-- A filter is only made of criteria that have a query too, so taking it hides no error. -/
theorem verdict_agree_way {α : Type} (fast : Bool) (h : prepare catalog criteria order = .ok p)
    (projection : Projection) (limit offset : Option Nat) (quick : EqualityFilter → α) (slow : Query → α) :
    Except.Agree (fun _ _ => True) criteria.verdict
      (match if fast then EqualityFilter.ofPlan? catalog p else none with
      | some filter => .ok (quick filter)
      | none => p.assemble catalog projection limit offset >>= fun q => .ok (slow q)) := by
  have hv := verdict_agree_assemble h projection limit offset
  split
  · rename_i filter hf
    have ha : EqualityFilter.ofPlan? catalog p = some filter := by
      cases fast with
      | true => exact hf
      | false => cases hf
    rw [EqualityFilter.assemble_of_accepts h (EqualityFilter.accepts_of_ofPlan? ha)] at hv
    generalize criteria.verdict = verdict at hv
    cases hv
    exact .ok trivial
  · rw [← bind_pure criteria.verdict]
    exact hv.bind fun _ _ _ => .ok trivial

end Plan

namespace Repository

variable {criteria : Criteria}

theorem verdict_agree_findRequest (r : Repository) (order : OrderBy) (limit offset : Option Nat) :
    Except.Agree (fun _ _ => True) criteria.verdict (r.findRequest criteria order limit offset) := by
  cases hp : Plan.prepare r.catalog criteria order with
  | error e =>
      rw [Plan.verdict_of_prepare_eq_error hp, findRequest, hp]
      exact .error e
  | ok p =>
      rw [findRequest, hp]
      exact Plan.verdict_agree_way r.fastPath hp .entity limit offset
        (Request.findByEquality · order limit offset) Request.fetch

theorem verdict_agree_countRequest (r : Repository) :
    Except.Agree (fun _ _ => True) criteria.verdict (r.countRequest criteria) := by
  cases hp : Plan.prepare r.catalog criteria [] with
  | error e =>
      rw [Plan.verdict_of_prepare_eq_error hp, countRequest, hp]
      exact .error e
  | ok p =>
      rw [countRequest, hp]
      exact Plan.verdict_agree_way r.fastPath hp .count none none
        CountRequest.countByEquality CountRequest.fetchCount

def Refuses (r : Repository) (criteria : Criteria) (e : CriteriaError) : Prop :=
  ∀ {m : Type → Type} [Monad m] [LawfulMonad m] {ε ρ : Type} (b : Backend m ε ρ) (order : OrderBy)
    (limit offset : Option Nat),
    r.findBy b criteria order limit offset = pure (.error (.criteria e)) ∧
      r.findOneBy b criteria order = pure (.error (.criteria e)) ∧
      r.count b criteria = pure (.error (.criteria e))

/-- Each call makes one request of the backend, the same of every backend, and hands on what it answers. -/
def Asks (r : Repository) (criteria : Criteria) (order : OrderBy) (limit offset : Option Nat) : Prop :=
  ∃ request first counted, ∀ {m : Type → Type} [Monad m] [LawfulMonad m] {ε ρ : Type} (b : Backend m ε ρ),
    r.findBy b criteria order limit offset = Except.mapError .backend <$> b.find request ∧
      r.findOneBy b criteria order =
        (fun found => (found.mapError .backend).map List.head?) <$> b.find first ∧
      r.count b criteria = Except.mapError .backend <$> b.count counted

section Calls

variable {r : Repository} {order : OrderBy} {limit offset : Option Nat} {m : Type → Type} [Monad m]
  [LawfulMonad m] {ε ρ : Type} (b : Backend m ε ρ)

theorem findBy_eq_map {request : Request} (h : r.findRequest criteria order limit offset = .ok request) :
    r.findBy b criteria order limit offset = Except.mapError .backend <$> b.find request := by
  rw [findBy, h, map_eq_pure_bind]

theorem count_eq_map {request : CountRequest} (h : r.countRequest criteria = .ok request) :
    r.count b criteria = Except.mapError .backend <$> b.count request := by
  rw [count, h, map_eq_pure_bind]

theorem findOneBy_eq_map {request : Request}
    (h : r.findRequest criteria order (some 1) (some 0) = .ok request) :
    r.findOneBy b criteria order =
      (fun found => (found.mapError .backend).map List.head?) <$> b.find request := by
  rw [findOneBy, findBy_eq_map b h, bind_map_left, map_eq_pure_bind]

theorem findOneBy_eq_pure {e : CriteriaError}
    (h : r.findRequest criteria order (some 1) (some 0) = .error e) :
    r.findOneBy b criteria order = pure (.error (.criteria e)) := by
  rw [findOneBy, findBy, h, pure_bind]
  rfl

end Calls

/-- Criteria are refused before the database is asked. Of any catalog, by either path, with any ordering
and paging, the calls all give one and the same error and ask nothing, or they ask once each. -/
theorem refuses_or_asks (criteria : Criteria) :
    (∃ e, ∀ r : Repository, r.Refuses criteria e) ∨
      ∀ (r : Repository) order limit offset, r.Asks criteria order limit offset := by
  cases hv : criteria.verdict with
  | error e =>
      refine .inl ⟨e, fun r => ?_⟩
      have hf (order : OrderBy) (limit offset : Option Nat) :
          r.findRequest criteria order limit offset = .error e :=
        (hv ▸ r.verdict_agree_findRequest order limit offset).of_error
      have hc : r.countRequest criteria = .error e := (hv ▸ r.verdict_agree_countRequest).of_error
      intro m _ _ ε ρ b order limit offset
      refine ⟨?_, findOneBy_eq_pure b (hf ..), ?_⟩
      · rw [findBy, hf]
      · rw [count, hc]
  | ok u =>
      refine .inr fun r order limit offset => ?_
      obtain ⟨request, hr, -⟩ := (hv ▸ r.verdict_agree_findRequest order limit offset).of_ok
      obtain ⟨first, hf, -⟩ := (hv ▸ r.verdict_agree_findRequest order (some 1) (some 0)).of_ok
      obtain ⟨counted, hc, -⟩ := (hv ▸ r.verdict_agree_countRequest).of_ok
      refine ⟨request, first, counted, fun b => ?_⟩
      exact ⟨findBy_eq_map b hr, findOneBy_eq_map b hf, count_eq_map b hc⟩

theorem refuses_or_asks_names :
    (∃ e, ∀ r : Repository, r.Refuses [.term ")name" (.text "Ada")] e) ∧
      ∀ (r : Repository) order limit offset, r.Asks [.term "(|name" (.text "Ada")] order limit offset := by
  let b : Backend Id Unit Unit := ⟨fun _ => .ok [], fun _ => .ok 0⟩
  let r : Repository := ⟨.musicians, true⟩
  constructor
  · rcases refuses_or_asks [.term ")name" (.text "Ada")] with h | h
    · exact h
    · obtain ⟨request, first, counted, h⟩ := h r [] none none
      have hc : r.count b [.term ")name" (.text "Ada")] = .error (.criteria (.unbalancedGroup "name")) := rfl
      cases hc.symm.trans (h b).2.2
  · rcases refuses_or_asks [.term "(|name" (.text "Ada")] with ⟨e, h⟩ | h
    · have hc : r.count b [.term "(|name" (.text "Ada")] = .ok 0 := rfl
      cases hc.symm.trans (h r b [] none none).2.2
    · exact h

end Repository

end Sift
