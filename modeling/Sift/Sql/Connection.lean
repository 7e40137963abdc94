import Sift.Settings
import Sift.Sql.Render

namespace Sift.Sql

def dropScheme (scheme cs : List Char) : List Char :=
  if _h : scheme ≠ [] ∧ scheme.isPrefixOf cs then dropScheme scheme (cs.drop scheme.length) else cs
termination_by cs.length
decreasing_by
  obtain ⟨hs, hp⟩ := _h
  have := List.length_pos_iff.2 hs
  have := (List.isPrefixOf_iff_prefix.1 hp).length_le
  simp only [List.length_drop]
  omega

def percentDecode : List Char → List Char
  | '%' :: a :: b :: rest =>
    match Text.hexValue? a, Text.hexValue? b with
    | some h, some l => Char.ofNat (16 * h + l) :: percentDecode rest
    | _, _ => '%' :: percentDecode (a :: b :: rest)
  | c :: rest => c :: percentDecode rest
  | [] => []

structure Address where
  path : String
  options : List (String × String)

namespace Address

def word (cs : List Char) : String :=
  String.ofList (percentDecode (cs.map fun c => if c = '+' then ' ' else c))

def option (cs : List Char) : String × String :=
  (word (cs.takeWhile (· ≠ '=')), word ((cs.dropWhile (· ≠ '=')).drop 1))

def ofUrl (url : String) : Address :=
  let cs := dropScheme "sqlite:".toList (dropScheme "sqlite://".toList url.toList)
  let options := (cs.dropWhile (· ≠ '?')).drop 1
  { path := String.ofList (percentDecode (cs.takeWhile (· ≠ '?')))
    options := ((options.splitOn '&').filter (!·.isEmpty)).map option }

def allowed : List (String × List String) :=
  [("mode", ["ro", "rw", "rwc", "memory"]), ("cache", ["private", "shared"]),
    ("immutable", ["true", "1", "false", "0"])]

/-- Whether a new database can be opened there: in memory, without a name, or where one may be made. -/
def canOpen (a : Address) : Bool :=
  (a.options.all fun o => ((allowed.lookup o.1).getD []).contains o.2) &&
    (a.path = ":memory:" || a.path = "" || a.options.contains ("mode", "memory") ||
      a.options.contains ("mode", "rwc"))

end Address

/-- Opens a database from its settings. The dialect is looked at first, then the schema, the address and
the root. -/
def connect (file : String → File) (s : DatabaseSettings) (root : String) : Except SqlError Catalog := do
  if s.dialect ≠ .sqlite then throw (.unsupportedDialect s.dialect)
  let schema ← match s.schema with
    | none => pure .empty
    | some path => (Settings.ofFile Schema.decode .empty (file path)).mapError fun _ => SqlError.settings
  if !(Address.ofUrl s.url).canOpen then throw .database
  let e ← schema.require root
  return ⟨schema, e⟩

end Sift.Sql
