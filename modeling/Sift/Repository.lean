import Sift.Equality

namespace Sift

inductive Request where
  | findByEquality (filter : EqualityFilter) (order : OrderBy) (limit offset : Option Nat)
  | fetch (q : Query)

inductive CountRequest where
  | countByEquality (filter : EqualityFilter)
  | fetchCount (q : Query)

structure Backend (m : Type → Type) (ε ρ : Type) where
  find : Request → m (Except ε (List ρ))
  count : CountRequest → m (Except ε Nat)

/-- Criteria are refused before the database is asked; its own errors are passed on as they are. -/
inductive FindError (ε : Type) where
  | criteria (e : CriteriaError)
  | backend (e : ε)

structure Repository where
  catalog : Catalog
  fastPath : Bool

namespace Repository

def findRequest (r : Repository) (criteria : Criteria) (order : OrderBy) (limit offset : Option Nat) :
    Except CriteriaError Request := do
  let p ← Plan.prepare r.catalog criteria order
  match if r.fastPath then EqualityFilter.ofPlan? r.catalog p else none with
  | some filter => return .findByEquality filter order limit offset
  | none => return .fetch (← p.assemble r.catalog .entity limit offset)

def countRequest (r : Repository) (criteria : Criteria) : Except CriteriaError CountRequest := do
  let p ← Plan.prepare r.catalog criteria []
  match if r.fastPath then EqualityFilter.ofPlan? r.catalog p else none with
  | some filter => return .countByEquality filter
  | none => return .fetchCount (← p.assemble r.catalog .count none none)

variable {m : Type → Type} [Monad m] {ε ρ : Type}

def findBy (r : Repository) (b : Backend m ε ρ) (criteria : Criteria) (order : OrderBy)
    (limit offset : Option Nat) : m (Except (FindError ε) (List ρ)) :=
  match r.findRequest criteria order limit offset with
  | .error e => pure (.error (.criteria e))
  | .ok request => do
    let answer ← b.find request
    return answer.mapError .backend

def findOneBy (r : Repository) (b : Backend m ε ρ) (criteria : Criteria) (order : OrderBy) :
    m (Except (FindError ε) (Option ρ)) := do
  let found ← r.findBy b criteria order (some 1) (some 0)
  return found.map List.head?

def count (r : Repository) (b : Backend m ε ρ) (criteria : Criteria) : m (Except (FindError ε) Nat) :=
  match r.countRequest criteria with
  | .error e => pure (.error (.criteria e))
  | .ok request => do
    let answer ← b.count request
    return answer.mapError .backend

def findLike (r : Repository) (b : Backend m ε ρ) (criteria : Criteria) (order : OrderBy)
    (limit offset : Option Nat) : m (Except (FindError ε) (List ρ)) :=
  r.findBy b (criteria.withOptions .like) order limit offset

def findOneLike (r : Repository) (b : Backend m ε ρ) (criteria : Criteria) :
    m (Except (FindError ε) (Option ρ)) := do
  let found ← r.findLike b criteria [] (some 1) none
  return found.map fun rows => match rows with
    | [row] => some row
    | _ => none

end Repository

end Sift
