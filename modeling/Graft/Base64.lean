-- Bytes in base 64. Four digits stand for three bytes; the last group may
-- stand for fewer, and is then filled up with padding. Bits that stand for
-- nothing must be zero.
namespace Graft.Base64

/-- What is wrong with a text in base 64. -/
inductive Fault
  | symbol (byte : UInt8) (offset : Nat)
  | length (n : Nat)
  | lastSymbol (byte : UInt8) (offset : Nat)
  | padding
  deriving DecidableEq, Repr

def Fault.message : Fault → String
  | .symbol byte offset =>
    "Invalid symbol " ++ toString byte.toNat ++ ", offset " ++ toString offset ++ "."
  | .length n => "Invalid input length: " ++ toString n
  | .lastSymbol byte offset =>
    "Invalid last symbol " ++ toString byte.toNat ++ ", offset " ++ toString offset ++ "."
  | .padding => "Invalid padding"

def pad : UInt8 := 61

def digit? (b : UInt8) : Option Nat :=
  let n := b.toNat
  if 65 ≤ n && n ≤ 90 then some (n - 65)
  else if 97 ≤ n && n ≤ 122 then some (n - 97 + 26)
  else if 48 ≤ n && n ≤ 57 then some (n - 48 + 52)
  else if n == 43 then some 62
  else if n == 47 then some 63
  else none

/-- The digits of bytes that must all be digits; the first stands at `offset`. -/
def digits (offset : Nat) : List UInt8 → Except Fault (List Nat)
  | [] => .ok []
  | b :: bs =>
    match digit? b with
    | none => .error (.symbol b offset)
    | some d => (digits (offset + 1) bs).map fun ds => d :: ds

/-- The bytes that groups of four digits stand for. -/
def groups : List Nat → List UInt8
  | a :: b :: c :: d :: rest =>
    UInt8.ofNat (a * 4 + b / 16) :: UInt8.ofNat (b % 16 * 16 + c / 4) ::
      UInt8.ofNat (c % 4 * 64 + d) :: groups rest
  | _ => []

/-- What a last group holds: its digits, and whether padding follows. -/
structure Tail where
  digits : List Nat
  /-- The offset of the first padding in the group, and how much there is. -/
  padded : Option (Nat × Nat)

/-- Reads the last group, which opens at `start`. -/
def readTail (start : Nat) (t : Tail) (index : Nat) : List UInt8 → Except Fault Tail
  | [] => .ok t
  | b :: bs =>
    if b = pad then
      if index < 2 then .error (.symbol b (start + index))
      else
        match t.padded with
        | none => readTail start { t with padded := some (index, 1) } (index + 1) bs
        | some (first, n) => readTail start { t with padded := some (first, n + 1) } (index + 1) bs
    else
      match t.padded with
      | some (first, _) => .error (.symbol pad (start + first))
      | none =>
        match digit? b with
        | none => .error (.symbol b (start + index))
        | some d => readTail start { t with digits := t.digits ++ [d] } (index + 1) bs

/-- The bytes of the last group; the bits that are left over. -/
def tailBytes : List Nat → List UInt8 × Nat
  | [a, b] => ([UInt8.ofNat (a * 4 + b / 16)], b % 16)
  | [a, b, c] =>
    ([UInt8.ofNat (a * 4 + b / 16), UInt8.ofNat (b % 16 * 16 + c / 4)], c % 4)
  | ds => (groups ds, 0)

/-- Decodes the last group, which opens at `start`. -/
def decodeTail (start : Nat) (tail : List UInt8) : Except Fault (List UInt8) := do
  let t ← readTail start ⟨[], none⟩ 0 tail
  let n := t.digits.length
  if n < 2 then throw (.length (start + n))
  let pads := match t.padded with
    | some (_, k) => k
    | none => 0
  if (pads + n) % 4 != 0 then throw .padding
  let (bytes, left) := tailBytes t.digits
  if left != 0 then throw (.lastSymbol (tail.getD (n - 1) 0) (start + n - 1))
  return bytes

/-- The number of bytes before the last group. -/
def bodyLength (n : Nat) : Nat := if n % 4 = 0 then n - 4 else n - n % 4

/-- A byte alone in the last group that is neither a digit nor padding. -/
def strayLast? (bs : List UInt8) : Option UInt8 :=
  if bs.length % 4 = 1 then
    bs.getLast?.filter fun b => b != pad && (digit? b).isNone
  else none

/-- The bytes that a text stands for. -/
def decode (text : List UInt8) : Except Fault (List UInt8) := do
  match strayLast? text with
  | some b => throw (.symbol b (text.length - 1))
  | none =>
    if text.isEmpty then return []
    let n := bodyLength text.length
    let body ← digits 0 (text.take n)
    let tail ← decodeTail n (text.drop n)
    return groups body ++ tail

end Graft.Base64
