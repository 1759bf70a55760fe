-- Numbers, truth values and dates of a configuration document. They stand
-- without quotes, so a run of characters is one of them or an error.
import Graft.Toml.Value

namespace Graft.Toml

def isOctalDigit (c : Char) : Bool := '0' ≤ c && c ≤ '7'

def isBinaryDigit (c : Char) : Bool := c == '0' || c == '1'

def isHexDigit (c : Char) : Bool :=
  c.isDigit || ('a' ≤ c && c ≤ 'f') || ('A' ≤ c && c ≤ 'F')

/-- Digits, with single underscores between them. -/
def isDigits (p : Char → Bool) : List Char → Bool
  | [] => false
  | [c] => p c
  | c :: '_' :: cs => p c && isDigits p cs
  | c :: cs => p c && isDigits p cs

/-- The text without its sign. -/
def dropSign : List Char → List Char
  | '+' :: cs => cs
  | '-' :: cs => cs
  | cs => cs

/-- A decimal number without a zero in front. -/
def isDecimal (cs : List Char) : Bool :=
  isDigits Char.isDigit cs && (cs.length == 1 || cs.head? != some '0')

/-- The value of digits in a base; underscores do not count. -/
def digitsValue (base : Nat) (cs : List Char) : Nat :=
  cs.foldl (fun n c => if c == '_' then n else n * base + hexValue c) 0
where
  hexValue (c : Char) : Nat :=
    if c.isDigit then c.toNat - '0'.toNat else (c.toNat ||| 32) - 'a'.toNat + 10

/-- One more than the greatest whole number that can be held. -/
def wholeBound : Nat := Nat.pow 2 128

def isWhole (cs : List Char) : Bool :=
  match cs with
  | '0' :: 'x' :: ds => isDigits isHexDigit ds && digitsValue 16 ds < wholeBound
  | '0' :: 'o' :: ds => isDigits isOctalDigit ds && digitsValue 8 ds < wholeBound
  | '0' :: 'b' :: ds => isDigits isBinaryDigit ds && digitsValue 2 ds < wholeBound
  | '-' :: ds => isDecimal ds && digitsValue 10 ds ≤ Nat.pow 2 127
  | _ => isDecimal (dropSign cs) && digitsValue 10 (dropSign cs) < wholeBound

/-- The part before the mark, and the part behind it. -/
def cut (p : Char → Bool) (cs : List Char) : List Char × Option (List Char) :=
  match cs.dropWhile fun c => !p c with
  | [] => (cs, none)
  | _ :: rest => (cs.takeWhile fun c => !p c, some rest)

/-- The least number that is too great to be held, which is half a step above the
greatest one that can. -/
def floatBound : Nat := Nat.pow 2 1024 - Nat.pow 2 970

/-- The number `digits · 10 ^ (exponent - places)` can be held. Its size is bounded first,
so that no power is taken that is far out of range. -/
def canHold (digits : List Char) (places : Nat) (exponent : Int) : Bool :=
  let m := digitsValue 10 digits
  let e := exponent - places
  if m == 0 then true
  else if 310 < e then false
  else if 0 ≤ e then m * Nat.pow 10 e.toNat < floatBound
  else if digits.length + 310 < e.natAbs then true
  else m < floatBound * Nat.pow 10 e.natAbs

def exponentValue (cs : List Char) : Int :=
  let n : Int := digitsValue 10 (dropSign cs)
  if cs.head? == some '-' then -n else n

def isFloat (cs : List Char) : Bool :=
  let body := dropSign cs
  if body == "inf".toList || body == "nan".toList then true
  else
    let (mantissa, exponent) := cut (fun c => c == 'e' || c == 'E') body
    let (whole, fraction) := cut (· == '.') mantissa
    let partOk := fun (part : Option (List Char)) (digits : List Char → List Char) =>
      match part with
      | none => true
      | some ds => isDigits Char.isDigit (digits ds)
    isDecimal whole && (exponent.isSome || fraction.isSome) &&
      partOk fraction id && partOk exponent dropSign &&
      canHold (whole ++ fraction.getD []) ((fraction.getD []).filter (· != '_')).length
        ((exponent.map exponentValue).getD 0)

/-! ## Dates -/

/-- The number of a text of exactly `n` digits. -/
def fixedDigits? (n : Nat) (cs : List Char) : Option Nat :=
  if cs.length == n && cs.all Char.isDigit then some (digitsValue 10 cs) else none

def isLeapYear (y : Nat) : Bool := y % 4 == 0 && (y % 100 != 0 || y % 400 == 0)

def daysIn (year month : Nat) : Nat :=
  if month == 2 then (if isLeapYear year then 29 else 28)
  else if [4, 6, 9, 11].contains month then 30 else 31

def isDay (cs : List Char) : Bool :=
  match fixedDigits? 4 (cs.take 4), cs.drop 4 with
  | some year, '-' :: rest =>
    match fixedDigits? 2 (rest.take 2), rest.drop 2 with
    | some month, '-' :: day =>
      match fixedDigits? 2 day with
      | some d => 1 ≤ month && month ≤ 12 && 1 ≤ d && d ≤ daysIn year month
      | none => false
    | _, _ => false
  | _, _ => false

/-- Hours and minutes, and what follows them. -/
def hourMinute? (cs : List Char) : Option (List Char) :=
  match fixedDigits? 2 (cs.take 2), cs.drop 2 with
  | some h, ':' :: rest =>
    match fixedDigits? 2 (rest.take 2) with
    | some m => if h < 24 && m < 60 then some (rest.drop 2) else none
    | none => none
  | _, _ => none

/-- What follows a time of day; its seconds may be missing. -/
def afterTime? (cs : List Char) : Option (List Char) := do
  let rest ← hourMinute? cs
  match rest with
  | ':' :: more =>
    let s ← fixedDigits? 2 (more.take 2)
    if 60 < s then none
    else
      match more.drop 2 with
      | '.' :: fraction =>
        if (fraction.takeWhile Char.isDigit).isEmpty then none
        else some (fraction.dropWhile Char.isDigit)
      | rest' => some rest'
  | _ => some rest

def isOffset (cs : List Char) : Bool :=
  match cs with
  | ['Z'] | ['z'] => true
  | '+' :: rest => hourMinute? rest == some []
  | '-' :: rest => hourMinute? rest == some []
  | _ => false

def isDate (cs : List Char) : Bool :=
  if isDay cs || afterTime? cs == some [] then true
  else
    isDay (cs.take 10) &&
      match cs.drop 10 with
      | mark :: time =>
        (mark == 'T' || mark == 't' || mark == ' ') &&
          match afterTime? time with
          | some [] => true
          | some offset => isOffset offset
          | none => false
      | [] => false

/-- The value that stands without quotes. -/
def scalar? (cs : List Char) : Option Value :=
  if cs == "true".toList || cs == "false".toList then some .truth
  else if isWhole cs || isFloat cs then some .number
  else if isDate cs then some .date
  else none

end Graft.Toml
