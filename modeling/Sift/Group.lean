import Sift.Criterion

namespace Sift.Group

structure Frame where
  combinator : Combinator
  negated : Bool
  members : List Condition

def Frame.condition (f : Frame) : Condition :=
  let c := Condition.group f.combinator f.members
  if f.negated then .not c else c

def Frame.add (f : Frame) (c : Condition) : Frame := { f with members := f.members ++ [c] }

/-- The innermost open group, and those around it from the inside out. The last of them all is the list
itself, which is never closed. -/
structure Stack where
  inner : Frame
  outer : List Frame

def Stack.start : Stack := ⟨⟨.all, false, []⟩, []⟩

def Stack.add (s : Stack) (c : Condition) : Stack := { s with inner := s.inner.add c }

/-- Closing a group makes it a member of the one around it. `key` is to blame if there is none. -/
def Stack.junction (key : String) (s : Stack) : Junctor → Except CriteriaError Stack
  | .opens combinator negated => .ok ⟨⟨combinator, negated, []⟩, s.inner :: s.outer⟩
  | .close =>
    match s.outer with
    | [] => .error (.unbalancedGroup key)
    | f :: outer => .ok ⟨f.add s.inner.condition, outer⟩

def Stack.finish (s : Stack) : Frame := s.outer.foldl (fun inner f => f.add inner.condition) s.inner

def Stack.term (leaf : Criterion → Condition) (s : Stack) (c : Criterion) : Except CriteriaError Stack := do
  let s ← c.junctors.foldlM (Stack.junction c.field) s
  return if c.field = "" then s else s.add (leaf c)

/-- A single member at the top stands for itself. -/
def Frame.top (f : Frame) : Condition :=
  match f.members with
  | [c] => c
  | _ => f.condition

def build (leaf : Criterion → Condition) (cs : List Criterion) : Except CriteriaError (Option Condition) :=
  if cs.isEmpty then .ok none
  else do
    let s ← cs.foldlM (Stack.term leaf) .start
    return some s.finish.top

end Sift.Group
