import Sift.Pattern.CharSet

namespace Sift

namespace Pattern

inductive WordEdge where
  | either
  | neither
  | start
  | stop
  | startHalf
  | stopHalf

def WordEdge.holds (kind : WordEdge) (before after : Bool) : Bool :=
  match kind with
  | .either => before != after
  | .neither => before == after
  | .start => !before && after
  | .stop => before && !after
  | .startHalf => !before
  | .stopHalf => !after

inductive Edge where
  | textStart
  | textEnd
  | lineStart (crlf : Bool)
  | lineEnd (crlf : Bool)
  | word (kind : WordEdge) (set : CharSet)

def Edge.holds (e : Edge) (before after : Option Char) : Bool :=
  match e with
  | .textStart => before.isNone
  | .textEnd => after.isNone
  | .lineStart false => before.all (· = '\n')
  | .lineEnd false => after.all (· = '\n')
  | .lineStart true => before.all fun c => c = '\n' || (c = '\r' && after ≠ some '\n')
  | .lineEnd true => after.all fun c => c = '\r' || (c = '\n' && before ≠ some '\r')
  | .word kind set => kind.holds (before.any set.contains) (after.any set.contains)

end Pattern

inductive Pattern where
  | empty
  | one (set : Pattern.CharSet)
  | edge (e : Pattern.Edge)
  | seq (first second : Pattern)
  | alt (first second : Pattern)
  | times (p : Pattern) (least : Nat) (most : Option Nat)

namespace Pattern

def before? (t : Array Char) (i : Nat) : Option Char := if i = 0 then none else t[i - 1]?

def exactly (step : Nat → List Nat) : Nat → List Nat → List Nat
  | 0, found => found
  | n + 1, found =>
    let next := (found.flatMap step).eraseDups
    if next.isEmpty || next == found then next else exactly step n next

def atMost (step : Nat → List Nat) : Nat → List Nat → List Nat → List Nat
  | 0, found, _ => found
  | n + 1, found, latest =>
    let new := ((latest.flatMap step).filter (· ∉ found)).eraseDups
    if new.isEmpty then found else atMost step n (found ++ new) new

/-- The places where a match that starts at `i` may end. As a text has finitely many places, so many
steps reach all that can be reached. -/
def ends (t : Array Char) : Pattern → Nat → List Nat
  | .empty, i => [i]
  | .one set, i => if (t[i]?).any set.contains then [i + 1] else []
  | .edge e, i => if e.holds (before? t i) t[i]? then [i] else []
  | .seq a b, i => ((ends t a i).flatMap (ends t b)).eraseDups
  | .alt a b, i => (ends t a i ++ ends t b i).eraseDups
  | .times p least most, i =>
    let found := exactly (ends t p) least [i]
    atMost (ends t p) ((most.map (· - least)).getD (t.size + 1)) found found

def occursIn (p : Pattern) (s : String) : Bool :=
  let t := s.toList.toArray
  (List.range (t.size + 1)).any fun i => !(ends t p i).isEmpty

end Pattern

end Sift
