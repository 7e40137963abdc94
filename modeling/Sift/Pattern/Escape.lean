import Sift.Pattern.Basic
import Sift.Text.Hex

namespace Sift.Pattern

structure Flags where
  ignoreCase : Bool
  multiLine : Bool
  dotAll : Bool
  swapGreed : Bool
  unicode : Bool
  crlf : Bool
  ignoreBlanks : Bool

namespace Flags

def initial : Flags := ⟨false, false, false, false, true, false, false⟩

def set? (on : Bool) (c : Char) (f : Flags) : Option Flags :=
  match c with
  | 'i' => some { f with ignoreCase := on }
  | 'm' => some { f with multiLine := on }
  | 's' => some { f with dotAll := on }
  | 'U' => some { f with swapGreed := on }
  | 'u' => some { f with unicode := on }
  | 'R' => some { f with crlf := on }
  | 'x' => some { f with ignoreBlanks := on }
  | _ => none

def skipComment : List Char → List Char
  | [] => []
  | c :: rest => if c = '\n' then rest else skipComment rest

def skipBlanksFrom : Bool → List Char → List Char
  | _, [] => []
  | true, c :: rest => skipBlanksFrom (c != '\n') rest
  | false, c :: rest =>
    if c = '#' then skipBlanksFrom true rest
    else if Text.isBlank c then skipBlanksFrom false rest
    else c :: rest

def skipBlanks (f : Flags) (cs : List Char) : List Char :=
  if f.ignoreBlanks then skipBlanksFrom false cs else cs

def caseless (f : Flags) (s : CharSet) : CharSet := if f.ignoreCase then .folded s else s

/-- The set that a letter after a backslash names. Without Unicode it is kept to ASCII. -/
def setOf (f : Flags) (c : Char) : CharSet :=
  if c = 'd' then if f.unicode then .decimal else (CharSet.ascii? "digit").getD .none
  else if c = 's' then if f.unicode then .blank else (CharSet.ascii? "space").getD .none
  else if f.unicode then .word
  else (CharSet.ascii? "word").getD .none

end Flags

inductive Escape where
  | literal (c : Char)
  | set (s : CharSet)
  | edge (e : Edge)

namespace Escape

def charOfHex? (f : Flags) (cs : List Char) : Option Char := do
  let ds ← cs.mapM Text.hexValue?
  let c ← Text.charOfCode? (ds.foldl (fun n d => 16 * n + d) 0)
  if ds.isEmpty || (!f.unicode && 0x7f < c.toNat) then none else some c

def hex? (f : Flags) (digits : Nat) (cs : List Char) : Option (Escape × List Char) :=
  match f.skipBlanks cs with
  | '\x7b' :: rest =>
    match rest.dropWhile (· ≠ '\x7d') with
    | _ :: after => do
      let c ← charOfHex? f ((rest.takeWhile (· ≠ '\x7d')).filter fun c => !(f.ignoreBlanks && Text.isBlank c))
      return (.literal c, after)
    | [] => none
  | cs => do
    let c ← charOfHex? f (cs.take digits)
    if (cs.take digits).length = digits then some (.literal c, cs.drop digits) else none

def isWordEdgeChar (c : Char) : Bool := c.isAlpha || c = '-'

def wordEdge? (f : Flags) (set : CharSet) (cs : List Char) : Option (Escape × List Char) :=
  let plain : Option (Escape × List Char) := some (.edge (.word .either set), cs)
  match cs with
  | '\x7b' :: rest =>
    let rest := f.skipBlanks rest
    if !(rest.head?.any isWordEdgeChar) then (if rest.isEmpty then none else plain)
    else do
      let name := String.ofList (rest.takeWhile isWordEdgeChar)
      let '\x7d' :: after := f.skipBlanks (rest.dropWhile isWordEdgeChar) | none
      let kind ← [("start", WordEdge.start), ("end", .stop), ("start-half", .startHalf),
        ("end-half", .stopHalf)].lookup name
      return (.edge (.word kind set), after)
  | _ => plain

/-- Reads what follows a backslash. All other ASCII characters but letters and digits stand for
themselves. -/
def read? (f : Flags) : List Char → Option (Escape × List Char)
  | [] => none
  | c :: rest =>
    let words := f.setOf 'w'
    if c = 'x' then hex? f 2 rest
    else if c = 'u' then hex? f 4 rest
    else if c = 'U' then hex? f 8 rest
    else if c = 'd' || c = 's' || c = 'w' then some (.set (f.setOf c), rest)
    else if c = 'D' || c = 'S' || c = 'W' then
      if f.unicode then some (.set (.complement (f.setOf c.toLower)), rest) else none
    else if c = 'a' then some (.literal '\x07', rest)
    else if c = 'f' then some (.literal '\x0c', rest)
    else if c = 't' then some (.literal '\t', rest)
    else if c = 'n' then some (.literal '\n', rest)
    else if c = 'r' then some (.literal '\r', rest)
    else if c = 'v' then some (.literal '\x0b', rest)
    else if c = 'A' then some (.edge .textStart, rest)
    else if c = 'z' then some (.edge .textEnd, rest)
    else if c = 'b' then wordEdge? f words rest
    else if c = 'B' then some (.edge (.word .neither words), rest)
    else if c = '<' then some (.edge (.word .start words), rest)
    else if c = '>' then some (.edge (.word .stop words), rest)
    else if c.isAlphanum || 0x7f < c.toNat then none
    else some (.literal c, rest)

end Escape

end Sift.Pattern
