namespace Sift.Text.Base64

inductive Fault where
  | symbol (byte : UInt8) (offset : Nat)
  | lastSymbol (byte : UInt8) (offset : Nat)
  | length (size : Nat)
  | padding
  deriving DecidableEq

def Fault.message : Fault → String
  | .symbol byte offset => s!"Invalid symbol {byte.toNat}, offset {offset}."
  | .lastSymbol byte offset => s!"Invalid last symbol {byte.toNat}, offset {offset}."
  | .length size => s!"Invalid input length: {size}"
  | .padding => "Invalid padding"

def pad : UInt8 := 61

def sextet? (b : UInt8) : Option Nat :=
  let n := b.toNat
  if 65 ≤ n && n ≤ 90 then some (n - 65)
  else if 97 ≤ n && n ≤ 122 then some (n - 97 + 26)
  else if 48 ≤ n && n ≤ 57 then some (n - 48 + 52)
  else if n = 43 then some 62
  else if n = 47 then some 63
  else none

def sextets (offset : Nat) : List UInt8 → Except Fault (List Nat)
  | [] => .ok []
  | b :: rest =>
    match sextet? b with
    | none => .error (.symbol b offset)
    | some v => (sextets (offset + 1) rest).map (v :: ·)

/-- Two sextets hold one byte, three hold two and four hold three. The bits that are left over come
after the bytes. -/
def bytesOf : List Nat → List UInt8 × Nat
  | [a, b] => ([UInt8.ofNat (a * 4 + b / 16)], b % 16)
  | [a, b, c] => ([UInt8.ofNat (a * 4 + b / 16), UInt8.ofNat (b % 16 * 16 + c / 4)], c % 4)
  | [a, b, c, d] =>
    ([UInt8.ofNat (a * 4 + b / 16), UInt8.ofNat (b % 16 * 16 + c / 4), UInt8.ofNat (c % 4 * 64 + d)], 0)
  | _ => ([], 0)

/-- The last group of up to four bytes. Padding fills it up after two or three symbols, and bits that
are left over are zero. -/
def lastGroup (offset : Nat) (group : List UInt8) : Except Fault (List UInt8) := do
  let symbols := group.takeWhile (· ≠ pad)
  let pads := group.drop symbols.length
  let values ← sextets offset symbols
  if !pads.isEmpty && (symbols.length < 2 || pads.any (· ≠ pad)) then
    .error (.symbol pad (offset + symbols.length))
  else if !group.isEmpty && symbols.length < 2 then .error (.length (offset + symbols.length))
  else if (symbols.length + pads.length) % 4 ≠ 0 then .error .padding
  else
    let (bytes, left) := bytesOf values
    if left ≠ 0 then .error (.lastSymbol (symbols.getLastD 0) (offset + symbols.length - 1))
    else .ok bytes

def groups (offset : Nat) : List UInt8 → Except Fault (List UInt8)
  | a :: b :: c :: d :: e :: rest => do
    let values ← sextets offset [a, b, c, d]
    let tail ← groups (offset + 4) (e :: rest)
    .ok ((bytesOf values).1 ++ tail)
  | group => lastGroup offset group

/-- A single byte after the last whole group is reported before anything else if it is no symbol. -/
def decode (bytes : List UInt8) : Except Fault (List UInt8) :=
  match bytes.getLast? with
  | some b =>
    if bytes.length % 4 = 1 && b ≠ pad && (sextet? b).isNone then
      .error (.symbol b (bytes.length - 1))
    else groups 0 bytes
  | none => .ok []

end Sift.Text.Base64
