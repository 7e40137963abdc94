import Sift.Sql.Quoted
import Sift.Table.Amount

namespace Sift.Table

inductive Phrase where
  | column (source : Option String) (name : String)
  | literal (c : Cell)
  | call (function : String) (distinct : Bool) (arg : Option Phrase)

namespace Phrase

inductive Token where
  | quoted (s : String)
  | word (s : String)
  | literal (c : Cell)
  | mark (c : Char)

def isWordChar (c : Char) : Bool := c.isAlphanum || c = '_' || c = '$' || 0x7f < c.toNat

def isNumberChar (c : Char) : Bool := c.isDigit || c = '.'

def number (cs : List Char) : Cell :=
  match Amount.ofText (String.ofList cs) with
  | .int i => .int i
  | .real x => .ofBinary64 x

/-- Each step reads a character at least. -/
def tokens? : Nat → List Char → Option (List Token)
  | _, [] => some []
  | 0, _ => none
  | n + 1, c :: rest =>
    if Amount.isSpace c then tokens? n rest
    else if c = '"' then do
      let (s, after) ← Sql.unquote? '"' (c :: rest)
      return .quoted (String.ofList s) :: (← tokens? n after)
    else if c = '\'' then do
      let (s, after) ← Sql.unquote? '\'' (c :: rest)
      return .literal (.text (String.ofList s)) :: (← tokens? n after)
    else if c.isDigit then do
      let digits := (c :: rest).takeWhile isNumberChar
      let after := (c :: rest).dropWhile isNumberChar
      if after.head?.any isWordChar then none else return .literal (number digits) :: (← tokens? n after)
    else if isWordChar c then do
      return .word (String.ofList ((c :: rest).takeWhile isWordChar)) ::
        (← tokens? n ((c :: rest).dropWhile isWordChar))
    else if c = '(' || c = ')' || c = '.' || c = '*' || c = ',' then do
      return .mark c :: (← tokens? n rest)
    else none

def name? : Token → Option String
  | .quoted s | .word s => some s
  | _ => none

def constant? (word : String) : Option Cell :=
  [("null", Cell.null), ("true", .ofBool true), ("false", .ofBool false)].lookup word.toLower

mutual

def read? : Nat → List Token → Option (Phrase × List Token)
  | 0, _ => none
  | n + 1, .mark '(' :: rest => do
    let (p, .mark ')' :: after) ← read? n rest | none
    return (p, after)
  | n + 1, .word f :: .mark '(' :: rest => arguments? n f rest
  | _ + 1, .literal c :: rest => some (.literal c, rest)
  | _ + 1, t :: .mark '.' :: u :: rest => do
    let source ← name? t
    let column ← name? u
    return (.column (some source) column, rest)
  | _ + 1, .word w :: rest =>
    match constant? w with
    | some c => some (.literal c, rest)
    | none => some (.column none w, rest)
  | _ + 1, .quoted s :: rest => some (.column none s, rest)
  | _, _ => none

def arguments? : Nat → String → List Token → Option (Phrase × List Token)
  | _, f, .mark ')' :: rest | _, f, .mark '*' :: .mark ')' :: rest => some (.call f false none, rest)
  | n, f, .word w :: rest => do
    let distinct := w.toLower = "distinct"
    let (p, .mark ')' :: after) ← read? n (if distinct || w.toLower = "all" then rest else .word w :: rest) | none
    return (.call f distinct (some p), after)
  | n, f, rest => do
    let (p, .mark ')' :: after) ← read? n rest | none
    return (.call f false (some p), after)

end

def ofText? (s : String) : Option Phrase := do
  let tokens ← tokens? s.length s.toList
  let (p, []) ← read? (tokens.length + 1) tokens | none
  return p

end Phrase

end Sift.Table
