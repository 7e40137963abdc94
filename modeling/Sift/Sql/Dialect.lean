namespace Sift.Sql

inductive Dialect where
  | sqlite
  | postgres
  | mysql
  deriving DecidableEq

def quoteWith (q : Char) (cs : List Char) : List Char :=
  q :: cs.flatMap (fun c => if c = q then [q, q] else [c]) ++ [q]

namespace Dialect

def all : List Dialect := [.sqlite, .postgres, .mysql]

def name : Dialect → String
  | .sqlite => "sqlite"
  | .postgres => "postgres"
  | .mysql => "mysql"

def ofName? (name : String) : Option Dialect := all.find? fun d => d.name = name

def quoteMark : Dialect → Char
  | .mysql => '\x60'
  | .sqlite | .postgres => '"'

def quote (d : Dialect) (identifier : String) : String :=
  String.ofList (quoteWith d.quoteMark identifier.toList)

def qualify (d : Dialect) (source column : String) : String := d.quote source ++ "." ++ d.quote column

def patternOperator : Dialect → String
  | .postgres => "~"
  | .sqlite | .mysql => "REGEXP"

/-- Whether a match of a pattern is a truth value, and not 0 or 1. -/
def patternIsBoolean (d : Dialect) : Bool := d = .postgres

def needsLimitForOffset (d : Dialect) : Bool := d ≠ .postgres

end Dialect

end Sift.Sql
