import Sift.Pattern.Escape

namespace Sift.Pattern

inductive SetOp where
  | inter
  | diff
  | symmDiff

def SetOp.join : SetOp → CharSet → CharSet → CharSet
  | .inter => .inter
  | .diff => .diff
  | .symmDiff => .symmDiff

/-- A set in brackets that is not closed. `pending` is what its items are joined to. -/
structure Bracket where
  negated : Bool
  pending : Option (SetOp × CharSet)
  items : CharSet

namespace Bracket

def add (b : Bracket) (s : CharSet) : Bracket := { b with items := .union b.items s }

def joined (f : Flags) (b : Bracket) : CharSet :=
  match b.pending with
  | none => b.items
  | some (op, left) => op.join (f.caseless left) (f.caseless b.items)

def operator (f : Flags) (op : SetOp) (b : Bracket) : Bracket :=
  { b with pending := some (op, b.joined f), items := .none }

def close (f : Flags) (b : Bracket) : CharSet :=
  let s := f.caseless (b.joined f)
  if b.negated then .complement s else s

def hyphens (b : Bracket) : List Char → Bracket × List Char
  | '-' :: rest => hyphens (b.add (.single '-')) rest
  | cs => (b, cs)

def start (f : Flags) (cs : List Char) : Bracket × List Char :=
  let (negated, cs) := match f.skipBlanks cs with
    | '^' :: rest => (true, f.skipBlanks rest)
    | cs => (false, cs)
  let b : Bracket := ⟨negated, none, .none⟩
  match cs with
  | ']' :: rest => (b.add (.single ']'), f.skipBlanks rest)
  | cs => hyphens b cs

def named? : List Char → Option (CharSet × List Char)
  | '[' :: ':' :: rest =>
    let (negated, rest) := match rest with
      | '^' :: rest => (true, rest)
      | rest => (false, rest)
    match rest.dropWhile (· ≠ ':') with
    | ':' :: ']' :: after =>
      (CharSet.ascii? (String.ofList (rest.takeWhile (· ≠ ':')))).map fun s =>
        (if negated then .complement s else s, after)
    | _ => none
  | _ => none

def item? (f : Flags) : List Char → Option (Escape × List Char)
  | '\\' :: rest => Escape.read? f rest
  | c :: rest => if !f.unicode && 0x7f < c.toNat then none else some (.literal c, rest)
  | [] => none

def range? (f : Flags) (cs : List Char) : Option (CharSet × List Char) := do
  let (first, rest) ← item? f cs
  let rest := f.skipBlanks rest
  let alone : Option (CharSet × List Char) := match first with
    | .literal c => some (.single c, rest)
    | .set s => some (s, rest)
    | .edge _ => none
  match rest with
  | '-' :: after =>
    match f.skipBlanks after with
    | ']' :: _ | '-' :: _ => alone
    | after => do
      let (last, rest) ← item? f after
      match first, last with
      | .literal lo, .literal hi => if lo ≤ hi then some (.range lo hi, rest) else none
      | _, _ => none
  | _ => alone

/-- One step of reading a set: what is open, from the innermost on, or the whole set when the last
bracket is closed. -/
def step? (f : Flags) (b : Bracket) (outer : List Bracket) (cs : List Char) :
    Option ((CharSet ⊕ Bracket × List Bracket) × List Char) :=
  match f.skipBlanks cs with
  | [] => none
  | '[' :: rest =>
    match named? ('[' :: rest) with
    | some (s, after) => some (.inr (b.add s, outer), after)
    | none =>
      let (inner, after) := start f rest
      some (.inr (inner, b :: outer), after)
  | ']' :: rest =>
    match outer with
    | [] => if b.negated && !f.unicode then none else some (.inl (b.close f), rest)
    | o :: os => some (.inr (o.add (b.close f), os), rest)
  | '&' :: '&' :: rest => some (.inr (b.operator f .inter, outer), rest)
  | '-' :: '-' :: rest => some (.inr (b.operator f .diff, outer), rest)
  | '~' :: '~' :: rest => some (.inr (b.operator f .symmDiff, outer), rest)
  | cs => (range? f cs).map fun (s, rest) => (.inr (b.add s, outer), rest)

def steps? (f : Flags) : Nat → Bracket → List Bracket → List Char → Option (CharSet × List Char)
  | 0, _, _, _ => none
  | n + 1, b, outer, cs =>
    match step? f b outer cs with
    | none => none
    | some (.inl s, rest) => some (s, rest)
    | some (.inr (b, outer), rest) => steps? f n b outer rest

def read? (f : Flags) (cs : List Char) : Option (CharSet × List Char) :=
  let (b, rest) := start f cs
  steps? f (cs.length + 1) b [] rest

end Bracket

end Sift.Pattern
