import Sift.Criterion

namespace Sift.Key

structure Operators where
  junctors : List Junctor
  negations : Nat
  comparator : Option Comparator
  deriving DecidableEq

def Operators.none : Operators := ⟨[], 0, Option.none⟩

def isOperator (c : Char) : Bool := "!=<>&|()".toList.contains c

def collapse : List Char → List Char
  | '!' :: '!' :: rest => collapse rest
  | c :: rest => c :: collapse rest
  | [] => []

def junctorTexts : List (List Char × Junctor) :=
  [(['(', '|'], .opens .any false), (['(', '&'], .opens .all false),
    (['!', '(', '|'], .opens .any true), (['!', '(', '&'], .opens .all true), ([')'], .close)]

def comparatorTexts : List (List Char × Comparator) :=
  [(['<', '='], .lte), (['>', '='], .gte), (['='], .eq), (['<'], .lt), (['>'], .gt)]

/-- Takes each group mark of the table at most once, in the order of the table. -/
def takeJunctors : List (List Char × Junctor) → Operators → List Char → Operators × List Char
  | [], ops, cs => (ops, cs)
  | (start, j) :: table, ops, cs =>
    match Text.after? start cs with
    | some rest => takeJunctors table { ops with junctors := ops.junctors ++ [j] } rest
    | Option.none => takeJunctors table ops cs

def takeNegation (ops : Operators) : List Char → Operators × List Char
  | '!' :: rest => ({ ops with negations := ops.negations + 1 }, rest)
  | cs => (ops, cs)

/-- Takes each comparator of the table at most once, in the order of the table. A key has one
comparator, and the value has to be fit for it. -/
def takeComparators (field : String) (v : Value) :
    List (List Char × Comparator) → Operators → List Char → Except CriteriaError (Operators × List Char)
  | [], ops, cs => .ok (ops, cs)
  | (start, op) :: table, ops, cs =>
    match Text.after? start cs with
    | Option.none => takeComparators field v table ops cs
    | some rest =>
      match ops.comparator with
      | some existing => .error (.duplicateComparator field existing)
      | Option.none => do
        op.check field v
        takeComparators field v table { ops with comparator := some op } rest

def pass (field : String) (v : Value) (ops : Operators) (cs : List Char) :
    Except CriteriaError (Operators × List Char) :=
  let (ops, cs) := takeJunctors junctorTexts ops (collapse cs)
  let (ops, cs) := takeNegation ops cs
  takeComparators field v comparatorTexts ops cs

def reduce (field : String) (v : Value) : Nat → Operators → List Char → Except CriteriaError Operators
  | _, ops, [] => .ok ops
  | 0, _, cs => .error (.unterminatedOperators field (String.ofList cs))
  | passes + 1, ops, cs => do
    let (ops, cs) ← pass field v ops cs
    reduce field v passes ops cs

def maxPasses : Nat := 100

end Sift.Key
