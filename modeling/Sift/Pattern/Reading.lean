import Sift.Pattern.Bracket
import Sift.Text.Cut

namespace Sift.Pattern

structure Part where
  pattern : Option Pattern
  depth : Nat

/-- A group that is not closed. Parts and branches are in reverse. -/
structure Group where
  outer : Flags
  branches : List Part
  parts : List Part

namespace Group

def depthOf (ps : List Part) : Nat :=
  let deepest := ps.foldl (fun n p => max n p.depth) 0
  if ps.length ≤ 1 then deepest else deepest + 1

def branch (g : Group) : Part :=
  let p := (g.parts.filterMap Part.pattern).foldl (fun rest p => match rest with
    | none => some p
    | some rest => some (.seq p rest)) none
  ⟨some (p.getD .empty), depthOf g.parts⟩

def divide (g : Group) : Group := { g with branches := g.branch :: g.branches, parts := [] }

def whole (g : Group) : Part :=
  let last := g.branch
  let p := g.branches.foldl (fun rest p => Pattern.alt (p.pattern.getD .empty) rest) (last.pattern.getD .empty)
  ⟨some p, depthOf (last :: g.branches)⟩

def add (g : Group) (p : Pattern) (depth : Nat) : Group := { g with parts := ⟨some p, depth⟩ :: g.parts }

def repeat? (g : Group) (least : Nat) (most : Option Nat) : Option Group :=
  match g.parts with
  | ⟨some p, depth⟩ :: rest => some { g with parts := ⟨some (.times p least most), depth + 1⟩ :: rest }
  | _ => none

end Group

structure Reader where
  flags : Flags
  group : Group
  outer : List Group
  names : List String

namespace Reader

def initial : Reader := ⟨.initial, ⟨.initial, [], []⟩, [], []⟩

def enter (r : Reader) (flags : Flags) : Reader :=
  { r with flags, group := ⟨r.flags, [], []⟩, outer := r.group :: r.outer }

def leave? (r : Reader) : Option Reader :=
  match r.outer with
  | [] => none
  | g :: outer =>
    let p := r.group.whole
    some { r with flags := r.group.outer, group := g.add (p.pattern.getD .empty) (p.depth + 1), outer }

def flags? (f : Flags) (on : Bool) (seen : List Char) : List Char → Option (Flags × List Char)
  | [] => none
  | c :: rest =>
    if c = ':' || c = ')' then
      if seen.head? = some '-' then none else some (f, c :: rest)
    else if c ∈ seen then none
    else if c = '-' then flags? f false (c :: seen) rest
    else (f.set? on c).bind fun f => flags? f on (c :: seen) rest

def isNameStart (c : Char) : Bool := c = '_' || (Text.isWord c && !Text.isDecimal c)

def isNameChar (c : Char) : Bool := Text.isWord c || c = '.' || c = '[' || c = ']'

def named? (r : Reader) (cs : List Char) : Option (Reader × List Char) :=
  let name := cs.takeWhile (· ≠ '>')
  match name, cs.dropWhile (· ≠ '>') with
  | c :: tail, _ :: rest =>
    let s := String.ofList name
    if isNameStart c && tail.all isNameChar && s ∉ r.names then
      some ({ r.enter r.flags with names := s :: r.names }, rest)
    else none
  | _, _ => none

/-- Opens a group or sets flags. A pattern cannot look ahead or behind. -/
def open? (r : Reader) (cs : List Char) : Option (Reader × List Char) :=
  match r.flags.skipBlanks cs with
  | '?' :: 'P' :: '<' :: rest => r.named? rest
  | '?' :: '<' :: '=' :: _ | '?' :: '<' :: '!' :: _ | '?' :: '=' :: _ | '?' :: '!' :: _ => none
  | '?' :: '<' :: rest => r.named? rest
  | '?' :: rest =>
    match flags? r.flags true [] rest with
    | some (f, ':' :: after) => some (r.enter f, after)
    | some (f, _ :: after) =>
      if rest.head? = some ')' then none
      else some ({ r with flags := f, group := { r.group with parts := ⟨none, 0⟩ :: r.group.parts } }, after)
    | _ => none
  | cs => some (r.enter r.flags, cs)

def number? (f : Flags) (cs : List Char) : Option Nat × List Char :=
  let cs := cs.dropWhile Text.isBlank
  let isPart (c : Char) : Bool := c.isDigit || (f.ignoreBlanks && Text.isBlank c)
  let ds := (cs.takeWhile isPart).filter Char.isDigit
  let n := ds.foldl (fun n c => 10 * n + (c.toNat - 48)) 0
  (if ds.isEmpty || 1 <<< 32 ≤ n then none else some n, (cs.dropWhile isPart).dropWhile Text.isBlank)

def count? (f : Flags) (cs : List Char) : Option ((Nat × Option Nat) × List Char) := do
  let (least, rest) := number? f (f.skipBlanks cs)
  let n ← least
  match rest with
  | '\x7d' :: rest => return ((n, some n), rest)
  | ',' :: rest =>
    match f.skipBlanks rest with
    | '\x7d' :: rest => return ((n, none), rest)
    | rest =>
      let (most, rest) := number? f rest
      let m ← most
      let '\x7d' :: rest := rest | none
      if n ≤ m then return ((n, some m), rest) else none
  | _ => none

/-- A mark after a repetition says which match is preferred, and nothing about whether there is one. -/
def skipGreed : List Char → List Char
  | '?' :: rest => rest
  | cs => cs

def repeated? (r : Reader) (least : Nat) (most : Option Nat) (rest : List Char) :
    Option (Reader × List Char) :=
  (r.group.repeat? least most).map fun group => ({ r with group }, skipGreed rest)

def addPart (r : Reader) (p : Pattern) (depth : Nat) (rest : List Char) : Option (Reader × List Char) :=
  some ({ r with group := r.group.add p depth }, rest)

def literal? (r : Reader) (c : Char) (rest : List Char) : Option (Reader × List Char) :=
  if !r.flags.unicode && 0x7f < c.toNat then none
  else r.addPart (.one (r.flags.caseless (.single c))) 0 rest

def dot? (r : Reader) (rest : List Char) : Option (Reader × List Char) :=
  let f := r.flags
  let breaks : CharSet :=
    if f.dotAll then .none
    else if f.crlf then .union (.single '\r') (.single '\n')
    else .single '\n'
  if f.unicode then r.addPart (.one (.complement breaks)) 0 rest else none

def step? (r : Reader) (c : Char) (rest : List Char) : Option (Reader × List Char) :=
  let f := r.flags
  match c with
  | '(' => r.open? rest
  | ')' => r.leave?.map fun r => (r, rest)
  | '|' => some ({ r with group := r.group.divide }, rest)
  | '[' => do
    let (s, after) ← Bracket.read? f rest
    r.addPart (.one s) 1 after
  | '?' => r.repeated? 0 (some 1) rest
  | '*' => r.repeated? 0 none rest
  | '+' => r.repeated? 1 none rest
  | '\x7b' => do
    let ((least, most), after) ← count? f rest
    r.repeated? least most (f.skipBlanks after)
  | '\\' => do
    match ← Escape.read? f rest with
    | (.literal c, after) => r.addPart (.one (f.caseless (.single c))) 0 after
    | (.set s, after) => r.addPart (.one s) 0 after
    | (.edge e, after) => r.addPart (.edge e) 0 after
  | '.' => r.dot? rest
  | '^' => r.addPart (.edge (if f.multiLine then .lineStart f.crlf else .textStart)) 0 rest
  | '$' => r.addPart (.edge (if f.multiLine then .lineEnd f.crlf else .textEnd)) 0 rest
  | c => r.literal? c rest

def steps? : Nat → Reader → List Char → Option Reader
  | 0, _, _ => none
  | n + 1, r, cs =>
    match r.flags.skipBlanks cs with
    | [] => some r
    | c :: rest =>
      match r.step? c rest with
      | some (r, rest) => steps? n r rest
      | none => none

def maxDepth : Nat := 250

end Reader

def ofText? (s : String) : Option Pattern := do
  let r ← Reader.steps? (s.toList.length + 1) .initial s.toList
  let p := r.group.whole
  if r.outer.isEmpty && p.depth ≤ Reader.maxDepth then p.pattern else none

end Sift.Pattern
