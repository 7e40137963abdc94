import Sift.Sql.Dialect

namespace Sift

inductive SqlError where
  | unknownEntity (name : String)
  | unknownAssociation (entity association : String)
  | unknownAlias (name : String)
  | missingParameter (name : String)
  | missingIdentifier (entity : String)
  | unsupportedDialect (d : Sql.Dialect)
  | invalidCount (found : String)
  | database
  | settings

namespace SqlError

def message? : SqlError → Option String
  | .unknownEntity name => some s!"Unknown entity: {name}"
  | .unknownAssociation entity association =>
    some s!"Unknown association '{association}' on entity '{entity}'"
  | .unknownAlias name => some s!"Unknown join alias: {name}"
  | .missingParameter name => some s!"Missing query parameter: {name}"
  | .missingIdentifier entity => some s!"Entity '{entity}' has no identifier"
  | .unsupportedDialect d => some s!"Dialect {d.name} cannot be executed by this backend"
  | .invalidCount found => some s!"Count query returned no integer count: {found}"
  | .database | .settings => none

end SqlError

end Sift
