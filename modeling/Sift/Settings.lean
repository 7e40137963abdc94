import Sift.Codec.Schema
import Sift.Sql.Dialect
import Sift.Toml.Document

namespace Sift

inductive File where
  | missing
  | unreadable
  | text (s : String)

inductive SettingsError where
  | toml
  | io
  | invalid (reason : String)

namespace SettingsError

def message? : SettingsError → Option String
  | .invalid reason => some s!"Invalid setting: {reason}"
  | .toml | .io => none

end SettingsError

namespace Settings

variable {α : Type}

def ofText (decode : Json → Except SettingsError α) (s : String) : Except SettingsError α :=
  match Toml.ofText? s.toList with
  | some j => decode j
  | none => .error .toml

/-- Reads a file. One that is missing gives the default. -/
def ofFile (decode : Json → Except SettingsError α) (default : α) : File → Except SettingsError α
  | .missing => .ok default
  | .unreadable => .error .io
  | .text s => ofText decode s

def ofShape : Option α → Except SettingsError α
  | some a => .ok a
  | none => .error .toml

end Settings

structure RepositorySettings where
  fastPath : Bool

namespace RepositorySettings

def default : RepositorySettings := ⟨true⟩

def withoutFastPath : RepositorySettings := ⟨false⟩

def decode (j : Json) : Except SettingsError RepositorySettings :=
  Settings.ofShape <| do
    let r ← j.record? ["fast_path"]
    let fastPath ← r.withDefault 0 default.fastPath Json.asBool?
    return ⟨fastPath⟩

end RepositorySettings

structure DatabaseSettings where
  url : String
  dialect : Sql.Dialect
  maxConnections : Nat
  schema : Option String
  maxConnections_pos : 0 < maxConnections

namespace DatabaseSettings

def default : DatabaseSettings := ⟨"sqlite::memory:", .sqlite, 1, none, by decide⟩

def dialect? : Json → Option Sql.Dialect
  | .text name | .object [(name, .object [])] | .object [(name, .array [])] => Sql.Dialect.ofName? name
  | _ => none

def word32? (j : Json) : Option Nat := j.asNat?.filter (· < 1 <<< 32)

/-- A shape that is wrong is found before a value that is not allowed. -/
def decode (j : Json) : Except SettingsError DatabaseSettings := do
  let r ← Settings.ofShape (j.record? ["database_url", "dialect", "max_connections", "schema"])
  let url ← Settings.ofShape (r.withDefault 0 default.url Json.asText?)
  let dialect ← Settings.ofShape (r.withDefault 1 default.dialect dialect?)
  let n ← Settings.ofShape (r.withDefault 2 default.maxConnections word32?)
  let schema ← Settings.ofShape (r.withDefault 3 none fun j => j.asText?.map some)
  if h : 0 < n then return ⟨url, dialect, n, schema, h⟩
  else throw (.invalid "max_connections must be at least 1")

end DatabaseSettings

namespace Schema

def decode (j : Json) : Except SettingsError Schema := Settings.ofShape ((ofJson? j).map named)

end Schema

end Sift
