import Sift.Comparator
import Sift.Json.Printer
import Sift.Text.Base64

namespace Sift

inductive DecodeFault where
  | base64 (fault : Text.Base64.Fault)
  | criteriaShape (found : Json)
  | pairShape (found : Json)
  | orderingShape (found : Json)

def DecodeFault.message : DecodeFault → String
  | .base64 fault => fault.message
  | .criteriaShape found => s!"criteria must be an object or an array, got {found.print}"
  | .pairShape found => s!"expected a one-entry object, got {found.print}"
  | .orderingShape found => s!"ordering must be an object, got {found.print}"

inductive CriteriaError where
  | duplicateComparator (key : String) (existing : Comparator)
  | nullComparison (key : String)
  | arrayComparison (key : String)
  | unterminatedOperators (key operators : String)
  | unbalancedGroup (key : String)
  | unsupportedValue (key reason : String)
  | invalidDirection (key direction : String)
  | misplacedOptions
  | decode (fault : DecodeFault)
  | json

namespace CriteriaError

/-- None where the text or shape of a document is at fault and there is nothing more to say. -/
def message? : CriteriaError → Option String
  | .duplicateComparator key existing =>
    some s!"Comparison for key \"{key}\" already set to \"{existing.name}\""
  | .nullComparison key =>
    some s!"Comparison of \"{key}\" with null is undefined, only equality is allowed"
  | .arrayComparison key => some s!"Array-valued comparisons are not allowed (key \"{key}\")"
  | .unterminatedOperators key operators =>
    some s!"Unterminated operators \"{operators}\" in key \"{key}\""
  | .unbalancedGroup key => some s!"Group closed by \"{key}\" was never opened"
  | .unsupportedValue key reason => some s!"Unsupported value for key \"{key}\": {reason}"
  | .invalidDirection key direction => some s!"Invalid ordering direction \"{direction}\" for \"{key}\""
  | .misplacedOptions => some "Query options must be the first criteria entry"
  | .decode fault => some s!"Decode error: {fault.message}"
  | .json => none

def withKey (key : String) : CriteriaError → CriteriaError
  | .unsupportedValue "" reason => .unsupportedValue key reason
  | e => e

end CriteriaError

end Sift
