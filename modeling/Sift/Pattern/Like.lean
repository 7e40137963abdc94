namespace Sift

namespace Like

inductive Part where
  | any
  | one
  | char (c : Char)
  /-- an escape with nothing behind it, which matches nothing -/
  | broken

def characters (s : String) : List Char :=
  (s.toList.takeWhile (· ≠ '\x00')).map fun c => if c = '\ufffe' || c = '\uffff' then '\ufffd' else c

/-- The parts of a pattern. A backslash takes away the meaning of the character after it. -/
def parts : List Char → List Part
  | [] => []
  | ['\\'] => [.broken]
  | '\\' :: c :: rest => .char c :: parts rest
  | '%' :: rest => .any :: parts rest
  | '_' :: rest => .one :: parts rest
  | c :: rest => .char c :: parts rest

def fit : List Part → List Char → Bool
  | [], cs => cs.isEmpty
  | .any :: ps, [] => fit ps []
  | .any :: ps, c :: cs => fit ps (c :: cs) || fit (.any :: ps) cs
  | .one :: ps, _ :: cs => fit ps cs
  | .char c :: ps, d :: cs => c.toLower = d.toLower && fit ps cs
  | _, _ => false
termination_by ps cs => ps.length + cs.length

def maxSize : Nat := 50000

end Like

/-- Whether a text fits a pattern as a whole. Only the case of ASCII letters is ignored. -/
def like (pattern text : String) : Bool :=
  Like.fit (Like.parts (Like.characters pattern)) (Like.characters text)

end Sift
