import Sift.Text.Blank
import Sift.Text.Fold
import Sift.Text.Word

namespace Sift.Pattern

inductive CharSet where
  | none
  | range (lo hi : Char)
  | decimal
  | word
  | blank
  | union (a b : CharSet)
  | inter (a b : CharSet)
  | diff (a b : CharSet)
  | symmDiff (a b : CharSet)
  | complement (a : CharSet)
  /-- all characters that differ from one in the set by case only -/
  | folded (a : CharSet)

namespace CharSet

def single (c : Char) : CharSet := .range c c

def all : CharSet := .complement .none

def ofRanges : List (Char × Char) → CharSet
  | [] => .none
  | [r] => .range r.1 r.2
  | r :: rest => .union (.range r.1 r.2) (ofRanges rest)

def contains : CharSet → Char → Bool
  | .none, _ => false
  | .range lo hi, c => lo ≤ c && c ≤ hi
  | .decimal, c => Text.isDecimal c
  | .word, c => Text.isWord c
  | .blank, c => Text.isBlank c
  | .union a b, c => a.contains c || b.contains c
  | .inter a b, c => a.contains c && b.contains c
  | .diff a b, c => a.contains c && !b.contains c
  | .symmDiff a b, c => a.contains c != b.contains c
  | .complement a, c => !a.contains c
  | .folded a, c => (Text.variants c).any a.contains

def ascii : List (String × List (Char × Char)) :=
  [("alnum", [('0', '9'), ('A', 'Z'), ('a', 'z')]),
    ("alpha", [('A', 'Z'), ('a', 'z')]),
    ("ascii", [('\x00', '\x7f')]),
    ("blank", [('\t', '\t'), (' ', ' ')]),
    ("cntrl", [('\x00', '\x1f'), ('\x7f', '\x7f')]),
    ("digit", [('0', '9')]),
    ("graph", [('!', '~')]),
    ("lower", [('a', 'z')]),
    ("print", [(' ', '~')]),
    ("punct", [('!', '/'), (':', '@'), ('[', '\x60'), ('\x7b', '~')]),
    ("space", [('\t', '\r'), (' ', ' ')]),
    ("upper", [('A', 'Z')]),
    ("word", [('0', '9'), ('A', 'Z'), ('_', '_'), ('a', 'z')]),
    ("xdigit", [('0', '9'), ('A', 'F'), ('a', 'f')])]

def ascii? (name : String) : Option CharSet := (ascii.lookup name).map ofRanges

end CharSet

end Sift.Pattern
