import Sift.Sql.Dialect
import Sift.Sql.Statement

namespace Sift.Sql

inductive Piece where
  | text (s : String)
  | value (b : Bound)
  deriving DecidableEq

def octal (n : Nat) : List Char :=
  ['\\', Char.ofNat (48 + n / 64), Char.ofNat (48 + n / 8 % 8), Char.ofNat (48 + n % 8)]

def Dialect.escape (d : Dialect) (c : Char) : List Char :=
  match d with
  | .sqlite => if c = '\'' then ['\'', '\''] else [c]
  | .mysql =>
    if c = '\\' || c = '"' || c = '\'' then ['\\', c]
    else if c = '\x00' then ['\\', '0']
    else if c = '\x08' then ['\\', 'b']
    else if c = '\t' then ['\\', 't']
    else if c = '\x1a' then ['\\', 'z']
    else if c = '\n' then ['\\', 'n']
    else if c = '\r' then ['\\', 'r']
    else [c]
  | .postgres =>
    if c = '\\' || c = '\'' then ['\\', c]
    else if c = '\x08' then ['\\', 'b']
    else if c = '\x0c' then ['\\', 'f']
    else if c = '\n' then ['\\', 'n']
    else if c = '\r' then ['\\', 'r']
    else if c = '\t' then ['\\', 't']
    else if c = '\x00' then ['\\', '0']
    else if c.toNat < 0x20 || c.toNat = 0x7f then octal c.toNat
    else [c]

def Dialect.literal (d : Dialect) (s : String) : String :=
  let body := s.toList.flatMap d.escape
  let mark := if d = .postgres && body ≠ s.toList then "E" else ""
  mark ++ String.ofList ('\'' :: body ++ ['\''])

def Bound.inline (d : Dialect) : Bound → String
  | .null => "NULL"
  | .bool b => if b then "TRUE" else "FALSE"
  | .constant n | .rows n => toString n
  | .int i => toString i.toInt
  | .double x => x.plainText
  | .text s => d.literal s

namespace Expr

def isAtom : Expr → Bool
  | .column .. | .bound _ => true
  | _ => false

def isTest : Expr → Bool
  | .compare .. | .isIn .. | .inMembers .. | .isNull _ | .like .. => true
  | _ => false

def isAnd : Expr → Bool
  | .and .. => true
  | _ => false

def isOr : Expr → Bool
  | .or .. => true
  | _ => false

end Expr

namespace Dialect

variable (d : Dialect)

def brackets (needed : Bool) (ps : List Piece) : List Piece :=
  if needed then .text "(" :: ps ++ [.text ")"] else ps

def commas : List (List Piece) → List Piece
  | [] => []
  | [ps] => ps
  | ps :: rest => ps ++ .text ", " :: commas rest

def column (source column : String) : List Piece := [.text (d.qualify source column)]

def named (table name : String) : List Piece := [.text (d.quote table ++ " AS " ++ d.quote name)]

def equal (source column other otherColumn : String) : List Piece :=
  [.text (d.qualify source column ++ " = " ++ d.qualify other otherColumn)]

def members (m : Members) : List Piece :=
  .text "(SELECT " :: d.column m.name m.key ++ .text " FROM " :: d.named m.table m.name ++
    .text " WHERE " :: d.equal m.name m.column m.owner m.ownerKey ++ [.text ")"]

/-- Writes an expression. Templates are always set in brackets inside another expression. -/
def expr : Expr → List Piece
  | .column source column => d.column source column
  | .template text source column => [.text ((FieldRef.mk source column (some text)).apply (d.qualify source column))]
  | .bound b => [.value b]
  | .compare op left right =>
    brackets (!left.isAtom) (expr left) ++ .text (" " ++ op.symbol ++ " ") ::
      brackets (!right.isAtom) (expr right)
  | .isIn left items =>
    brackets (!left.isAtom) (expr left) ++ .text " IN (" ::
      commas (items.map fun b => [.value b]) ++ [.text ")"]
  | .inMembers b m => .value b :: .text " IN " :: d.members m
  | .isNull e => brackets (!e.isAtom) (expr e) ++ [.text " IS NULL"]
  | .like e pattern =>
    brackets (!e.isAtom) (expr e) ++
      [.text " LIKE ", .value (.text pattern), .text (" ESCAPE " ++ d.literal "\\")]
  | .matches e pattern =>
    brackets (!e.isAtom) (expr e) ++ [.text (" " ++ d.patternOperator ++ " "), .value pattern]
  | .not e => .text "NOT " :: brackets (!(e.isAtom || e.isTest)) (expr e)
  | .and left right =>
    brackets (!(left.isAtom || left.isTest || left.isAnd)) (expr left) ++ .text " AND " ::
      brackets (!(right.isAtom || right.isTest)) (expr right)
  | .or left right =>
    brackets (!(left.isAtom || left.isTest || left.isOr)) (expr left) ++ .text " OR " ::
      brackets (!(right.isAtom || right.isTest)) (expr right)

def item : Item → List Piece
  | .column source column => d.column source column
  | .allOf source => [.text (d.quote source ++ ".*")]
  | .countDistinct source column =>
    [.text ("COUNT(DISTINCT " ++ d.qualify source column ++ ") AS " ++ d.quote countColumn)]

def join (j : TableJoin) : List Piece :=
  .text " LEFT JOIN " :: d.named j.table j.name ++ .text " ON " ::
    d.equal j.name j.column j.other j.otherColumn

def clause (word : String) : List (List Piece) → List Piece
  | [] => []
  | parts => .text (" " ++ word ++ " ") :: commas parts

def order (e : Expr × Bool) : List Piece := d.expr e.1 ++ [.text (if e.2 then " DESC" else " ASC")]

def select (s : Select) : List Piece :=
  .text "SELECT " :: commas (s.items.map d.item) ++ .text " FROM " :: d.named s.table s.name ++
    s.joins.flatMap d.join ++ clause "WHERE" (s.filter.map d.expr).toList ++
    clause "GROUP BY" (s.groupBy.map fun c => d.column c.1 c.2) ++
    clause "HAVING" (s.having.map d.expr).toList ++ clause "ORDER BY" (s.orderBy.map d.order) ++
    clause "LIMIT" (s.limit.map fun n => [.value (.rows n)]).toList ++
    clause "OFFSET" (s.offset.map fun n => [.value (.rows n)]).toList

def statement : Statement → List Piece
  | .rows s => d.select s
  | .countOf s =>
    .text ("SELECT COUNT(*) AS " ++ d.quote countColumn ++ " FROM (") :: d.select s ++
      [.text (") AS " ++ d.quote "counted")]

/-- What stands for the value of that number, from one on. -/
def placeholder (n : Nat) : String :=
  match d with
  | .postgres => "$" ++ toString n
  | .sqlite | .mysql => "?"

def prepareFrom (n : Nat) : List Piece → String
  | [] => ""
  | .text s :: rest => s ++ prepareFrom n rest
  | .value _ :: rest => d.placeholder n ++ prepareFrom (n + 1) rest

def prepare (ps : List Piece) : String := d.prepareFrom 1 ps

def inline (ps : List Piece) : String :=
  String.join (ps.map fun p => match p with
    | .text s => s
    | .value b => b.inline d)

end Dialect

/-- The values of a statement, in the order of their placeholders. -/
def Piece.values (ps : List Piece) : List Bound :=
  ps.filterMap fun p => match p with
    | .text _ => none
    | .value b => some b

end Sift.Sql
