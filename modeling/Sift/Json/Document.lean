import Sift.Json.Numeral
import Sift.Text.Hex

namespace Sift.Json

inductive Unit16 where
  | char (c : Char)
  | half (code : Nat)
  deriving DecidableEq

/-- Two halves in a row make a character; a half alone has no meaning. -/
def joinUnits : List Unit16 → Option (List Char)
  | [] => some []
  | .char c :: rest => (joinUnits rest).map (c :: ·)
  | .half high :: .half low :: rest =>
    if high < 0xdc00 && 0xdc00 ≤ low then
      (joinUnits rest).map (Char.ofNat (0x10000 + (high - 0xd800) * 0x400 + (low - 0xdc00)) :: ·)
    else none
  | .half _ :: _ => none

def unitOfCode (code : Nat) : Unit16 :=
  if 0xd800 ≤ code && code < 0xe000 then .half code else .char (Char.ofNat code)

inductive Token where
  | beginArray
  | endArray
  | beginObject
  | endObject
  | comma
  | colon
  | bare (cs : List Char)
  | text (units : List Unit16)

/-- Where a scan stands. What was read of an unfinished token is kept in reverse. -/
inductive Scan where
  | between
  | bare (done : List Char)
  | text (done : List Unit16)
  | escape (done : List Unit16)
  | code (done : List Unit16) (left value : Nat)

def isSpace (c : Char) : Bool := c = ' ' || c = '\t' || c = '\n' || c = '\r'

def isBare (c : Char) : Bool := c.isAlphanum || c = '+' || c = '-' || c = '.'

def punctuation? (c : Char) : Option Token :=
  if c = '[' then some .beginArray
  else if c = ']' then some .endArray
  else if c = '\x7b' then some .beginObject
  else if c = '\x7d' then some .endObject
  else if c = ',' then some .comma
  else if c = ':' then some .colon
  else none

def escaped? (c : Char) : Option Char :=
  if c = '"' || c = '\\' || c = '/' then some c
  else if c = 'b' then some '\x08'
  else if c = 'f' then some '\x0c'
  else if c = 'n' then some '\n'
  else if c = 'r' then some '\r'
  else if c = 't' then some '\t'
  else none

def Scan.start (c : Char) (tokens : List Token) : Option (Scan × List Token) :=
  if isSpace c then some (.between, tokens)
  else if isBare c then some (.bare [c], tokens)
  else if c = '"' then some (.text [], tokens)
  else (punctuation? c).map fun t => (.between, t :: tokens)

def Scan.step (s : Scan) (c : Char) (tokens : List Token) : Option (Scan × List Token) :=
  match s with
  | .between => Scan.start c tokens
  | .bare done =>
    if isBare c then some (.bare (c :: done), tokens)
    else Scan.start c (.bare done.reverse :: tokens)
  | .text done =>
    if c = '"' then some (.between, .text done.reverse :: tokens)
    else if c = '\\' then some (.escape done, tokens)
    else if c.toNat < 0x20 then none
    else some (.text (.char c :: done), tokens)
  | .escape done =>
    if c = 'u' then some (.code done 4 0, tokens)
    else (escaped? c).map fun e => (.text (.char e :: done), tokens)
  | .code done left value =>
    (Text.hexValue? c).map fun h =>
      let value := 16 * value + h
      if left ≤ 1 then (.text (unitOfCode value :: done), tokens)
      else (.code done (left - 1) value, tokens)

def scan (s : Scan) (tokens : List Token) : List Char → Option (List Token)
  | [] =>
    match s with
    | .between => some tokens.reverse
    | .bare done => some (.bare done.reverse :: tokens).reverse
    | _ => none
  | c :: rest =>
    match s.step c tokens with
    | none => none
    | some (s, tokens) => scan s tokens rest

/-- The tree of a text. Numerals and texts are as they were written, so that a part nobody asks for may
hold what has no value. -/
inductive Document where
  | null
  | bool (b : Bool)
  | number (n : Numeral)
  | text (units : List Unit16)
  | array (items : List Document)
  | object (members : List (List Unit16 × Document))

namespace Document

def ofBare? (cs : List Char) : Option Document :=
  if cs = "null".toList then some .null
  else if cs = "true".toList then some (.bool true)
  else if cs = "false".toList then some (.bool false)
  else (Numeral.read? cs).map .number

inductive Frame where
  | array (done : List Document)
  | object (done : List (List Unit16 × Document))
  | member (done : List (List Unit16 × Document)) (name : List Unit16)

inductive Mode where
  | value
  | valueOrEnd
  | name
  | nameOrEnd
  | colon
  | after
  | done (d : Document)

structure State where
  stack : List Frame
  mode : Mode

def State.start : State := ⟨[], .value⟩

def State.put (stack : List Frame) (d : Document) : Option State :=
  match stack with
  | [] => some ⟨[], .done d⟩
  | .array ds :: stack => some ⟨.array (d :: ds) :: stack, .after⟩
  | .member ms name :: stack => some ⟨.object ((name, d) :: ms) :: stack, .after⟩
  | .object _ :: _ => none

def State.close (s : State) : Option State :=
  match s.stack with
  | .array ds :: stack => State.put stack (.array ds.reverse)
  | .object ms :: stack => State.put stack (.object ms.reverse)
  | _ => none

def State.value (s : State) : Token → Option State
  | .beginArray => some ⟨.array [] :: s.stack, .valueOrEnd⟩
  | .beginObject => some ⟨.object [] :: s.stack, .nameOrEnd⟩
  | .bare cs => (ofBare? cs).bind (State.put s.stack)
  | .text us => State.put s.stack (.text us)
  | _ => none

def State.name (s : State) : Token → Option State
  | .text us =>
    match s.stack with
    | .object ms :: stack => some ⟨.member ms us :: stack, .colon⟩
    | _ => none
  | _ => none

def State.feed (s : State) (t : Token) : Option State :=
  match s.mode, t with
  | .value, t => s.value t
  | .valueOrEnd, .endArray => s.close
  | .valueOrEnd, t => s.value t
  | .name, t => s.name t
  | .nameOrEnd, .endObject => s.close
  | .nameOrEnd, t => s.name t
  | .colon, .colon => some ⟨s.stack, .value⟩
  | .after, .comma =>
    match s.stack with
    | .array _ :: _ => some ⟨s.stack, .value⟩
    | .object _ :: _ => some ⟨s.stack, .name⟩
    | _ => none
  | .after, .endArray =>
    match s.stack with
    | .array _ :: _ => s.close
    | _ => none
  | .after, .endObject =>
    match s.stack with
    | .object _ :: _ => s.close
    | _ => none
  | _, _ => none

def ofTokens? (tokens : List Token) : Option Document :=
  match tokens.foldlM State.feed State.start with
  | some ⟨_, .done d⟩ => some d
  | _ => none

def ofText? (cs : List Char) : Option Document := (scan .between [] cs).bind ofTokens?

def depthLimit : Nat := 127

mutual

/-- The document a tree stands for. There is none if it is nested deeper than allowed, holds half a
surrogate pair or a number past the largest double. -/
def value? (levels : Nat) : Document → Option Json
  | .null => some .null
  | .bool b => some (.bool b)
  | .number n => n.value?
  | .text us => (joinUnits us).map fun cs => .text (String.ofList cs)
  | .array items =>
    match levels with
    | 0 => none
    | levels + 1 => (values? levels items).map .array
  | .object members =>
    match levels with
    | 0 => none
    | levels + 1 => (members? levels members).map .object

def values? (levels : Nat) : List Document → Option (List Json)
  | [] => some []
  | d :: rest => do
    let j ← value? levels d
    let js ← values? levels rest
    return j :: js

def members? (levels : Nat) : List (List Unit16 × Document) → Option (List (String × Json))
  | [] => some []
  | (name, d) :: rest => do
    let name ← joinUnits name
    let j ← value? levels d
    let js ← members? levels rest
    return (String.ofList name, j) :: js

end

end Document

inductive Shape where
  | whole
  | record (fields : List (String × Shape))
  | members (each : Shape)
  | items (each : Shape)

namespace Shape

/-- The shape of an item. The fields of a record may be given by position. -/
def item (s : Shape) (i : Nat) : Shape :=
  match s with
  | .record fields => ((fields[i]?).map Prod.snd).getD .whole
  | .items each => each
  | _ => .whole

def member? (s : Shape) (name : List Unit16) : Option Shape :=
  match s with
  | .record fields =>
    match joinUnits name with
    | some cs => fields.lookup (String.ofList cs)
    | none => some .whole
  | .members each => some each
  | _ => some .whole

end Shape

namespace Document

mutual

def trim (s : Shape) : Document → Document
  | .array items => .array (trimItems s 0 items)
  | .object members => .object (trimMembers s members)
  | d => d

def trimItems (s : Shape) (i : Nat) : List Document → List Document
  | [] => []
  | d :: rest => trim (s.item i) d :: trimItems s (i + 1) rest

def trimMembers (s : Shape) : List (List Unit16 × Document) → List (List Unit16 × Document)
  | [] => []
  | (name, d) :: rest =>
    match s.member? name with
    | some inner => (name, trim inner d) :: trimMembers s rest
    | none => trimMembers s rest

end

end Document

def readAs? (s : Shape) (cs : List Char) : Option Json :=
  (Document.ofText? cs).bind fun d => (d.trim s).value? Document.depthLimit

def read? (cs : List Char) : Option Json := readAs? .whole cs

def ofText? (cs : List Char) : Option Json := (read? cs).map unique

end Sift.Json
