import Sift.Proofs.Named
import Sift.Query

namespace Sift

namespace Selectable

def bindings (s : Selectable) : List (String × Parameter) := s.parameters.entries.map fun e => (e.1, ⟨e.2, none⟩)

end Selectable

namespace Query

theorem foldl_setParameter (q : Query) (l : List (String × Value)) :
    l.foldl (fun q e => q.setParameter e.1 e.2 none) q =
      { q with parameters := q.parameters.putAll (l.map fun e => (e.1, ⟨e.2, none⟩)) } := by
  induction l generalizing q with
  | nil => rfl
  | cons e l ih =>
      rw [List.foldl_cons, ih]
      rfl

theorem foldl_addOrder (q : Query) (l : List (FieldRef × Direction)) :
    l.foldl (fun q e => q.addOrder e.1 e.2) q = { q with orderBy := q.orderBy ++ l } := by
  induction l generalizing q with
  | nil => simp
  | cons e l ih =>
      rw [List.foldl_cons, ih]
      simp [addOrder]

theorem addSelectable_eq (q : Query) (s : Selectable) :
    q.addSelectable s = { q with
      whereCondition := match s.filter with
        | some c => some (Condition.conjoin q.whereCondition c)
        | none => q.whereCondition
      parameters := q.parameters.putAll s.bindings
      orderBy := q.orderBy ++ s.orderings
      firstResult := s.firstResult <|> q.firstResult
      maxResults := s.maxResults <|> q.maxResults } := by
  rw [addSelectable, foldl_setParameter, foldl_addOrder]
  cases s.filter <;> rfl

/-- What is left as it is by each of some compiled criteria is left as it is by them all. -/
theorem foldl_addSelectable {α : Type} (f : Query → α) (h : ∀ q s, f (addSelectable q s) = f q)
    (q : Query) (ss : List Selectable) : f (ss.foldl addSelectable q) = f q := by
  induction ss generalizing q with
  | nil => rfl
  | cons s ss ih => rw [List.foldl_cons, ih, h]

end Query

end Sift
