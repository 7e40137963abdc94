import Sift.Json.Document

namespace Sift.Json

structure Record where
  byPosition : Bool
  fields : List (Option Json)

/-- Reads a record, an object or an array of at most as many items as there are fields. Members of
other names are passed over, a field must not be named twice. -/
def record? (names : List String) : Json → Option Record
  | .object members =>
    if names.all fun name => (members.filter fun m => m.1 == name).length ≤ 1 then
      some ⟨false, names.map fun name => members.lookup name⟩
    else none
  | .array items =>
    if items.length ≤ names.length then
      some ⟨true, items.map some ++ List.replicate (names.length - items.length) none⟩
    else none
  | _ => none

def Shape.ofFields (names : List String) : Shape := .record (names.map fun name => (name, .whole))

namespace Record

variable {α : Type}

def get? (r : Record) (i : Nat) : Option Json := (r.fields[i]?).join

def required (r : Record) (i : Nat) (read : Json → Option α) : Option α := (r.get? i).bind read

def withDefault (r : Record) (i : Nat) (default : α) (read : Json → Option α) : Option α :=
  match r.get? i with
  | none => some default
  | some j => read j

def orNull (read : Json → Option α) : Json → Option (Option α)
  | .null => some none
  | j => (read j).map some

/-- A field that may be null, and that may be left out where the others are named. -/
def nullable (r : Record) (i : Nat) (read : Json → Option α) : Option (Option α) :=
  match r.get? i with
  | none => if r.byPosition then none else some none
  | some j => orNull read j

end Record

/-- Whether a document is read from its text, or from a copy that was taken because the kind of record
is not known before its tag is found. A copy may give a tag as a number, and an empty object for
nothing. -/
inductive Origin where
  | direct
  | copied
  deriving DecidableEq

def tagName? (origin : Origin) (tags : List String) : Json → Option String
  | .text s => if s ∈ tags then some s else none
  | .int i => if origin = .copied && 0 ≤ i then tags[i.toNat]? else none
  | _ => none

def tagged? (origin : Origin) (tagField : String) (tags : List String) :
    Json → Option (String × Json)
  | .object members =>
    match members.filter fun m => m.1 == tagField with
    | [(_, tag)] =>
      (tagName? origin tags tag).map fun t => (t, .object (members.filter fun m => m.1 != tagField))
    | _ => none
  | .array (tag :: items) => (tagName? origin tags tag).map fun t => (t, .array items)
  | _ => none

def variant? : Json → Option (String × Option Json)
  | .text s => some (s, none)
  | .object [(name, j)] => some (name, some j)
  | _ => none

def isUnit (origin : Origin) : Option Json → Bool
  | none | some .null => true
  | some (.object []) => origin = .copied
  | _ => false

def unit? {α : Type} (origin : Origin) (cases : List (String × α)) (j : Json) : Option α :=
  match variant? j with
  | some (name, payload) => if isUnit origin payload then cases.lookup name else none
  | none => none

def asText? : Json → Option String
  | .text s => some s
  | _ => none

def asBool? : Json → Option Bool
  | .bool b => some b
  | _ => none

def asNat? : Json → Option Nat
  | .int i => if 0 ≤ i then some i.toNat else none
  | _ => none

def asList? {α : Type} (read : Json → Option α) : Json → Option (List α)
  | .array items => items.mapM read
  | _ => none

def asNamed? {α : Type} (read : Json → Option α) : Json → Option (List (String × α))
  | .object members => members.mapM fun m => (read m.2).map fun a => (m.1, a)
  | _ => none

end Sift.Json
