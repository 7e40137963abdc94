import Sift.Json.Document
import Sift.Repository
import Sift.Text.Blank

namespace Sift

structure Search where
  criteria : Criteria
  order : OrderBy
  limit : Option Nat
  offset : Option Nat

namespace Search

def document (encoded : String) : Except CriteriaError Json :=
  let bytes := (String.ofList (Text.trim encoded.toList)).toUTF8.toList
  match Text.Base64.decode bytes with
  | .error fault => .error (.decode (.base64 fault))
  | .ok decoded =>
    match (String.fromUTF8? ⟨decoded.toArray⟩).bind fun s => Json.ofText? s.toList with
    | some j => .ok j
    | none => .error .json

/-- Reads a request whose criteria and ordering are encoded documents. An empty ordering orders
nothing. -/
def decode (findBy : String) (sortBy : Option String) (limit offset : Option Nat) :
    Except CriteriaError Search := do
  let criteria ← Criteria.ofJson (← document findBy)
  let order ← match sortBy with
    | none | some "" => .ok []
    | some encoded => OrderBy.ofJson (← document encoded)
  return { criteria, order, limit, offset }

end Search

def Repository.search {m : Type → Type} [Monad m] {ε ρ : Type} (r : Repository) (b : Backend m ε ρ)
    (s : Search) : m (Except (FindError ε) (List ρ)) :=
  r.findBy b s.criteria s.order s.limit s.offset

end Sift
