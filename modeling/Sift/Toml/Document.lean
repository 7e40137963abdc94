import Sift.Toml.Scalar
import Sift.Toml.Token

namespace Sift.Toml

/-- How a table came to be: on the way to another one, by a header of its own, or by a dotted key. -/
inductive Origin where
  | implied
  | header
  | dotted
  deriving DecidableEq

/-- A part of a document that may still grow. Tables in an array are in reverse, only the last one
grows. -/
inductive Node where
  | closed (j : Json)
  | table (origin : Origin) (entries : List (String × Node))
  | tables (done : List (List (String × Node)))

abbrev Entries := List (String × Node)

namespace Entries

def update (name : String) (n : Node) : Entries → Entries
  | [] => [(name, n)]
  | (k, m) :: rest => if k = name then (k, n) :: rest else (k, m) :: update name n rest

def atPath (f : Entries → Option Entries) : List String → Entries → Option Entries
  | [], es => f es
  | name :: path, es =>
    match es.lookup name with
    | none => (atPath f path []).map fun inner => es.update name (.table .implied inner)
    | some (.table origin inner) =>
      (atPath f path inner).map fun inner => es.update name (.table origin inner)
    | some (.tables (last :: done)) =>
      (atPath f path last).map fun last => es.update name (.tables (last :: done))
    | some _ => none

def openTable (name : String) (es : Entries) : Option Entries :=
  match es.lookup name with
  | none => some (es.update name (.table .header []))
  | some (.table .implied inner) => some (es.update name (.table .header inner))
  | some _ => none

def openElement (name : String) (es : Entries) : Option Entries :=
  match es.lookup name with
  | none => some (es.update name (.tables [[]]))
  | some (.tables done) => some (es.update name (.tables ([] :: done)))
  | some _ => none

/-- Sets a dotted key that is not there yet. It does not reach into tables that have a header. -/
def assign (v : Json) : List String → Entries → Option Entries
  | [], _ => none
  | [name], es =>
    match es.lookup name with
    | none => some (es.update name (.closed v))
    | some _ => none
  | name :: path, es =>
    match es.lookup name with
    | none => (assign v path []).map fun inner => es.update name (.table .dotted inner)
    | some (.table origin inner) =>
      if origin = .header then none
      else (assign v path inner).map fun inner => es.update name (.table origin inner)
    | some _ => none

end Entries

def sorted (members : List (String × Json)) : List (String × Json) :=
  members.mergeSort fun a b => decide (a.1 < b.1) || a.1 == b.1

mutual

def Node.toJson : Node → Json
  | .closed j => j
  | .table _ entries => .object (sorted (membersOf entries))
  | .tables done => .array (elementsOf done).reverse

def membersOf : List (String × Node) → List (String × Json)
  | [] => []
  | (name, n) :: rest => (name, n.toJson) :: membersOf rest

def elementsOf : List (List (String × Node)) → List Json
  | [] => []
  | entries :: rest => .object (sorted (membersOf entries)) :: elementsOf rest

end

inductive Frame where
  | array (done : List Json)
  | inline (entries : Entries)
  | assign (key : List String)

inductive Mode where
  | line
  | lineEnd
  | headerStart
  | headerPart (double : Bool) (parts : List String)
  | headerNext (double : Bool) (parts : List String)
  | headerClose (parts : List String)
  | keyPart (parts : List String)
  | keyNext (parts : List String)
  | inlineStart
  | value
  | scalar (cs : List Char)
  | dateGap (cs : List Char)
  | after

structure State where
  root : Entries
  current : List String
  stack : List Frame
  mode : Mode

namespace State

def start : State := ⟨[], [], [], .line⟩

def keyPart? : Token → Option String
  | .bare cs => if cs.all fun c => c ≠ '+' && c ≠ ':' then some (String.ofList cs) else none
  | .text s false => some s
  | _ => none

def complete (s : State) (v : Json) : Option State :=
  match s.stack with
  | .array done :: stack => some { s with stack := .array (v :: done) :: stack, mode := .after }
  | .assign key :: .inline entries :: stack =>
    (entries.assign v key).map fun entries =>
      { s with stack := .inline entries :: stack, mode := .after }
  | [.assign key] =>
    (s.root.atPath (Entries.assign v key) s.current).map fun root =>
      { s with root, stack := [], mode := .lineEnd }
  | _ => none

def openHeader (s : State) (double : Bool) (parts : List String) : Option State :=
  match parts with
  | [] => none
  | name :: path =>
    let f := if double then Entries.openElement name else Entries.openTable name
    (s.root.atPath f path.reverse).map fun root =>
      { s with root, current := parts.reverse, mode := .lineEnd }

def line (s : State) : Token → Option State
  | .blank | .newline => some s
  | .mark '[' => some { s with mode := .headerStart }
  | t => (keyPart? t).map fun part => { s with mode := .keyNext [part] }

def lineEnd (s : State) : Token → Option State
  | .blank => some s
  | .newline => some { s with mode := .line }
  | _ => none

def inArray (s : State) : Bool :=
  match s.stack with
  | .array _ :: _ => true
  | _ => false

def close (s : State) (c : Char) : Option State :=
  match s.stack with
  | .array done :: stack => if c = ']' then { s with stack }.complete (.array done.reverse) else none
  | .inline entries :: stack =>
    if c = '\x7d' then { s with stack }.complete (.object (sorted (membersOf entries))) else none
  | _ => none

def after (s : State) : Token → Option State
  | .blank | .newline => some s
  | .mark ',' => some { s with mode := if s.inArray then .value else .inlineStart }
  | .mark c => s.close c
  | _ => none

def afterValue (s : State) (t : Token) : Option State :=
  match s.mode with
  | .lineEnd => s.lineEnd t
  | _ => s.after t

def endScalar (s : State) (cs : List Char) (t : Token) : Option State := do
  let v ← scalar? cs
  let s ← s.complete v
  s.afterValue t

def Frame.isOpen : Frame → Bool
  | .array _ | .inline _ => true
  | .assign _ => false

def maxDepth : Nat := 80

def enter (s : State) (f : Frame) (mode : Mode) : Option State :=
  if s.stack.countP Frame.isOpen < maxDepth then some { s with stack := f :: s.stack, mode } else none

def value (s : State) : Token → Option State
  | .blank => some s
  | .newline => if s.inArray then some s else none
  | .text t _ => s.complete (.text t)
  | .bare cs => some { s with mode := .scalar cs }
  | .mark c =>
    if c = '[' then s.enter (.array []) .value
    else if c = '\x7b' then s.enter (.inline []) .inlineStart
    else if c = ']' && s.inArray then s.close c
    else none

def header (s : State) (double : Bool) (parts : List String) : Token → Option State
  | .blank => some { s with mode := .headerPart double parts }
  | t => (keyPart? t).map fun part => { s with mode := .headerNext double (part :: parts) }

def key (s : State) (parts : List String) : Token → Option State
  | .blank => some { s with mode := .keyPart parts }
  | t => (keyPart? t).map fun part => { s with mode := .keyNext (part :: parts) }

def looksLikeDate (cs : List Char) : Bool := cs.length = 10 && (date? cs).isSome

def looksLikeTime (cs : List Char) : Bool :=
  (cs.take 2).all Char.isDigit && (cs.drop 2).head? = some ':'

def feed (s : State) (t : Token) : Option State :=
  match s.mode, t with
  | .line, t => s.line t
  | .lineEnd, t => s.lineEnd t
  | .headerStart, .mark '[' => some { s with mode := .headerPart true [] }
  | .headerStart, t => s.header false [] t
  | .headerPart double parts, t => s.header double parts t
  | .headerNext double parts, .blank => some { s with mode := .headerNext double parts }
  | .headerNext double parts, .mark '.' => some { s with mode := .headerPart double parts }
  | .headerNext double parts, .mark ']' =>
    if double then some { s with mode := .headerClose parts } else s.openHeader false parts
  | .headerClose parts, .mark ']' => s.openHeader true parts
  | .keyPart parts, t => s.key parts t
  | .keyNext parts, .blank => some { s with mode := .keyNext parts }
  | .keyNext parts, .mark '.' => some { s with mode := .keyPart parts }
  | .keyNext parts, .mark '=' =>
    some { s with stack := .assign parts.reverse :: s.stack, mode := .value }
  | .inlineStart, .mark '\x7d' => s.close '\x7d'
  | .inlineStart, .blank | .inlineStart, .newline => some s
  | .inlineStart, t => s.key [] t
  | .value, t => s.value t
  | .scalar cs, .bare ds => some { s with mode := .scalar (cs ++ ds) }
  | .scalar cs, .mark '.' => some { s with mode := .scalar (cs ++ ['.']) }
  | .scalar cs, .blank =>
    if looksLikeDate cs then some { s with mode := .dateGap cs } else s.endScalar cs .blank
  | .scalar cs, t => s.endScalar cs t
  | .dateGap cs, .bare ds =>
    if looksLikeTime ds then some { s with mode := .scalar (cs ++ ' ' :: ds) } else none
  | .dateGap cs, t => s.endScalar cs t
  | .after, t => s.after t
  | _, _ => none

end State

def skipByteOrder : List Char → List Char
  | '\ufeff' :: cs => cs
  | cs => cs

def ofText? (cs : List Char) : Option Json :=
  match (scan .between [] (skipByteOrder cs)).bind fun tokens => tokens.foldlM State.feed State.start with
  | some ⟨root, _, [], .line⟩ => some (Node.table .header root).toJson
  | _ => none

end Sift.Toml
