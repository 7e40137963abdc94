import Sift.Record
import Sift.Repository
import Sift.Sql.Render

namespace Sift

def Request.query (root : Entity) : Request → Query
  | .findByEquality filter order limit offset => filter.toQuery root order limit offset .entity
  | .fetch q => q

def CountRequest.query (root : Entity) : CountRequest → Query
  | .countByEquality filter => filter.toQuery root [] none none .count
  | .fetchCount q => q

namespace Sql

variable (run : Statement → Except SqlError Table) (c : Catalog)

/-- The records that a query selects, one for each key if it is indexed. -/
def fetch (q : Query) : Except SqlError (List Record) := do
  let s ← render c.schema .sqlite q
  let t ← run s
  let records := Record.ofTable c.root t
  return match q.indexBy with
    | some index => Record.collapse index records
    | none => records

def fetchCount (q : Query) : Except SqlError Nat := do
  let s ← render c.schema .sqlite q
  let t ← run s
  Record.count (Record.ofTable c.root t)

/-- Requests are answered by whatever database executes their statements. -/
def backend : Backend Id SqlError Record where
  find request := fetch run c (request.query c.root)
  count request := fetchCount run c (request.query c.root)

end Sql

end Sift
