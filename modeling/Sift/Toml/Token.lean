import Sift.Text.Hex

namespace Sift.Toml

inductive Token where
  | blank
  | newline
  | mark (c : Char)
  | bare (cs : List Char)
  | text (s : String) (multiline : Bool)

/-- The four ways to write a text. Only with escapes a backslash is special. -/
structure Quote where
  escapes : Bool
  multiline : Bool
  deriving DecidableEq

def Quote.mark (q : Quote) : Char := if q.escapes then '"' else '\''

/-- Where a scan stands. What was read of an unfinished token is kept in reverse. -/
inductive Scan where
  | between
  | blank
  | bare (done : List Char)
  | comment
  | lineBreak
  | opening (escapes : Bool) (two : Bool)
  | begun (q : Quote)
  | begunReturn (q : Quote)
  | text (q : Quote) (done : List Char)
  | quotes (q : Quote) (done : List Char) (count : Nat)
  | textReturn (q : Quote) (done : List Char)
  | escape (q : Quote) (done : List Char)
  | code (q : Quote) (done : List Char) (left value : Nat)
  | lineEnd (q : Quote) (done : List Char)
  /-- blanks and line breaks after a backslash at the end of a line -/
  | trimming (q : Quote) (done : List Char)

def isBare (c : Char) : Bool := c.isAlphanum || c = '_' || c = '-' || c = '+' || c = ':'

def isMark (c : Char) : Bool :=
  c = '[' || c = ']' || c = '\x7b' || c = '\x7d' || c = '=' || c = ',' || c = '.'

def isControl (c : Char) : Bool := (c.toNat < 0x20 && c ≠ '\t') || c.toNat = 0x7f

def Scan.start (tokens : List Token) (c : Char) : Option (Scan × List Token) :=
  if c = ' ' || c = '\t' then some (.blank, tokens)
  else if c = '\n' then some (.between, .newline :: tokens)
  else if c = '\r' then some (.lineBreak, tokens)
  else if c = '#' then some (.comment, tokens)
  else if c = '"' then some (.opening true false, tokens)
  else if c = '\'' then some (.opening false false, tokens)
  else if isMark c then some (.between, .mark c :: tokens)
  else if isBare c then some (.bare [c], tokens)
  else none

def Scan.inText (q : Quote) (done : List Char) (tokens : List Token) (c : Char) :
    Option (Scan × List Token) :=
  if c = q.mark then
    if q.multiline then some (.quotes q done 1, tokens)
    else some (.between, .text (String.ofList done.reverse) false :: tokens)
  else if c = '\\' && q.escapes then some (.escape q done, tokens)
  else if c = '\n' then if q.multiline then some (.text q ('\n' :: done), tokens) else none
  else if c = '\r' then if q.multiline then some (.textReturn q done, tokens) else none
  else if isControl c then none
  else some (.text q (c :: done), tokens)

def escaped? (c : Char) : Option Char :=
  if c = '"' || c = '\\' then some c
  else if c = 'b' then some '\x08'
  else if c = 'e' then some '\x1b'
  else if c = 't' then some '\t'
  else if c = 'n' then some '\n'
  else if c = 'f' then some '\x0c'
  else if c = 'r' then some '\r'
  else none

def Scan.step (s : Scan) (tokens : List Token) (c : Char) : Option (Scan × List Token) :=
  match s with
  | .between => Scan.start tokens c
  | .blank => if c = ' ' || c = '\t' then some (.blank, tokens) else Scan.start (.blank :: tokens) c
  | .bare done =>
    if isBare c then some (.bare (c :: done), tokens) else Scan.start (.bare done.reverse :: tokens) c
  | .comment =>
    if c = '\n' then some (.between, .newline :: tokens)
    else if c = '\r' then some (.lineBreak, tokens)
    else if isControl c then none
    else some (.comment, tokens)
  | .lineBreak => if c = '\n' then some (.between, .newline :: tokens) else none
  | .opening escapes two =>
    let q : Quote := ⟨escapes, false⟩
    if c = q.mark then
      if two then some (.begun ⟨escapes, true⟩, tokens) else some (.opening escapes true, tokens)
    else if two then Scan.start (.text "" false :: tokens) c
    else Scan.inText q [] tokens c
  | .begun q =>
    if c = '\n' then some (.text q [], tokens)
    else if c = '\r' then some (.begunReturn q, tokens)
    else Scan.inText q [] tokens c
  | .begunReturn q => if c = '\n' then some (.text q [], tokens) else none
  | .text q done => Scan.inText q done tokens c
  | .quotes q done count =>
    if c = q.mark then if count < 5 then some (.quotes q done (count + 1), tokens) else none
    else if count < 3 then Scan.inText q (List.replicate count q.mark ++ done) tokens c
    else
      let whole := List.replicate (count - 3) q.mark ++ done
      Scan.start (.text (String.ofList whole.reverse) true :: tokens) c
  | .textReturn q done => if c = '\n' then some (.text q ('\n' :: done), tokens) else none
  | .escape q done =>
    if c = 'x' then some (.code q done 2 0, tokens)
    else if c = 'u' then some (.code q done 4 0, tokens)
    else if c = 'U' then some (.code q done 8 0, tokens)
    else if q.multiline && (c = ' ' || c = '\t' || c = '\r') then some (.lineEnd q done, tokens)
    else if q.multiline && c = '\n' then some (.trimming q done, tokens)
    else (escaped? c).map fun e => (.text q (e :: done), tokens)
  | .code q done left value => do
    let h ← Text.hexValue? c
    let value := 16 * value + h
    if left ≤ 1 then
      let e ← Text.charOfCode? value
      some (.text q (e :: done), tokens)
    else some (.code q done (left - 1) value, tokens)
  | .lineEnd q done =>
    if c = ' ' || c = '\t' || c = '\r' then some (.lineEnd q done, tokens)
    else if c = '\n' then some (.trimming q done, tokens)
    else none
  | .trimming q done =>
    if c = ' ' || c = '\t' || c = '\r' || c = '\n' then some (.trimming q done, tokens)
    else Scan.inText q done tokens c

/-- The tokens of a text, after those already read, which are in reverse. A line break ends the last
line. -/
def scan (s : Scan) (tokens : List Token) : List Char → Option (List Token)
  | [] =>
    match s.step tokens '\n' with
    | some (.between, tokens) => some tokens.reverse
    | _ => none
  | c :: rest =>
    match s.step tokens c with
    | none => none
    | some (s, tokens) => scan s tokens rest

end Sift.Toml
