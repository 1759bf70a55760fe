-- JSON texts. A string whose escapes stand for half of a surrogate pair is
-- well-formed but cannot be read, so its text is kept only where it can.
namespace Graft

/-- A JSON value; of numbers and truth values only the sort is kept. -/
inductive Json
  | null
  | truth
  | number
  /-- A string, and its text if it can be read. -/
  | string (s : Option String)
  | array (vs : List Json)
  | object (members : List (Option String × Json))
  deriving Repr

namespace Json

def isSpace (c : Char) : Bool := c == ' ' || c == '\t' || c == '\n' || c == '\r'

def skipSpaces (cs : List Char) : List Char := cs.dropWhile isSpace

/-! ## Strings -/

def hexDigit? (c : Char) : Option Nat :=
  if c.isDigit then some (c.toNat - '0'.toNat)
  else if ('a' ≤ c && c ≤ 'f') || ('A' ≤ c && c ≤ 'F') then
    some ((c.toNat ||| 32) - 'a'.toNat + 10)
  else none

/-- The number of four hexadecimal digits. -/
def fourDigits? : List Char → Option (Nat × List Char)
  | a :: b :: c :: d :: rest => do
    let a ← hexDigit? a
    let b ← hexDigit? b
    let c ← hexDigit? c
    let d ← hexDigit? d
    return (((a * 16 + b) * 16 + c) * 16 + d, rest)
  | _ => none

/-- A unit of a string: a character, or one half of a character. -/
inductive Part
  | char (c : Char)
  | high (n : Nat)
  | low (n : Nat)
  deriving DecidableEq, Repr

/-- The part that a code unit stands for. -/
def Part.ofUnit (n : Nat) : Part :=
  if 0xD800 ≤ n && n < 0xDC00 then .high n
  else if 0xDC00 ≤ n && n < 0xE000 then .low n
  else .char (Char.ofNat n)

/-- The part behind a backslash. -/
def escape? : List Char → Option (Part × List Char)
  | [] => none
  | c :: cs =>
    if c == '"' || c == '\\' || c == '/' then some (.char c, cs)
    else if c == 'b' then some (.char '\x08', cs)
    else if c == 'f' then some (.char '\x0C', cs)
    else if c == 'n' then some (.char '\n', cs)
    else if c == 'r' then some (.char '\r', cs)
    else if c == 't' then some (.char '\t', cs)
    else if c == 'u' then (fourDigits? cs).map fun r => (Part.ofUnit r.1, r.2)
    else none

/-- The parts of a string up to its closing quote. The first argument bounds the number
of steps. -/
def stringBody? : Nat → List Char → Option (List Part × List Char)
  | 0, _ => none
  | _ + 1, [] => none
  | n + 1, c :: cs =>
    if c == '"' then some ([], cs)
    else if c == '\\' then do
      let (p, rest) ← escape? cs
      let (ps, rest') ← stringBody? n rest
      return (p :: ps, rest')
    else if c.toNat < 0x20 then none
    else do
      let (ps, rest) ← stringBody? n cs
      return (.char c :: ps, rest)

/-- The characters of the parts, if all halves come in pairs. -/
def join? : List Part → Option (List Char)
  | [] => some []
  | .char c :: ps => (join? ps).map fun cs => c :: cs
  | .high h :: .low l :: ps =>
    (join? ps).map fun cs => Char.ofNat (0x10000 + (h - 0xD800) * 0x400 + (l - 0xDC00)) :: cs
  | _ => none

/-- A string behind its opening quote. -/
def string? (cs : List Char) : Option (Option String × List Char) :=
  (stringBody? (cs.length + 1) cs).map fun r => ((join? r.1).map String.ofList, r.2)

/-! ## Numbers -/

/-- One or more digits. -/
def digits? (cs : List Char) : Option (List Char) :=
  if (cs.takeWhile Char.isDigit).isEmpty then none else some (cs.dropWhile Char.isDigit)

def whole? : List Char → Option (List Char)
  | '0' :: cs => some cs
  | cs => digits? cs

def fraction? : List Char → Option (List Char)
  | '.' :: cs => digits? cs
  | cs => some cs

def exponent? : List Char → Option (List Char)
  | c :: cs =>
    if c == 'e' || c == 'E' then
      match cs with
      | '+' :: rest => digits? rest
      | '-' :: rest => digits? rest
      | _ => digits? cs
    else some (c :: cs)
  | [] => some []

/-- What follows the number that the text opens with. -/
def number? (cs : List Char) : Option (List Char) := do
  let body := match cs with
    | '-' :: rest => rest
    | _ => cs
  let rest ← whole? body
  let rest ← fraction? rest
  exponent? rest

/-! ## Values -/

/-- What follows the word, if the text opens with it. -/
def word? (w : String) (cs : List Char) : Option (List Char) :=
  if w.toList.isPrefixOf cs then some (cs.drop w.toList.length) else none

mutual
/-- A value. The first argument bounds the number of steps. -/
def value? : Nat → List Char → Option (Json × List Char)
  | 0, _ => none
  | n + 1, cs =>
    match skipSpaces cs with
    | [] => none
    | c :: rest =>
      if c == '"' then (string? rest).map fun r => (.string r.1, r.2)
      else if c == '[' then
        match skipSpaces rest with
        | ']' :: more => some (.array [], more)
        | _ => (elements? n rest).map fun r => (.array r.1, r.2)
      else if c == '\x7b' then
        match skipSpaces rest with
        | '\x7d' :: more => some (.object [], more)
        | _ => (members? n rest).map fun r => (.object r.1, r.2)
      else if c == 'n' then (word? "null" (c :: rest)).map fun r => (.null, r)
      else if c == 't' then (word? "true" (c :: rest)).map fun r => (.truth, r)
      else if c == 'f' then (word? "false" (c :: rest)).map fun r => (.truth, r)
      else (number? (c :: rest)).map fun r => (.number, r)

/-- One or more elements, and what follows their bracket. -/
def elements? : Nat → List Char → Option (List Json × List Char)
  | 0, _ => none
  | n + 1, cs => do
    let (v, rest) ← value? n cs
    match skipSpaces rest with
    | ',' :: more =>
      let (vs, rest') ← elements? n more
      return (v :: vs, rest')
    | ']' :: more => return ([v], more)
    | _ => none

/-- One or more members, and what follows their brace. -/
def members? : Nat → List Char → Option (List (Option String × Json) × List Char)
  | 0, _ => none
  | n + 1, cs =>
    match skipSpaces cs with
    | '"' :: rest => do
      let (key, rest) ← string? rest
      match skipSpaces rest with
      | ':' :: more =>
        let (v, rest) ← value? n more
        match skipSpaces rest with
        | ',' :: more =>
          let (ms, rest') ← members? n more
          return ((key, v) :: ms, rest')
        | '\x7d' :: more => return ([(key, v)], more)
        | _ => none
      | _ => none
    | _ => none
end

/-- The value that a whole text stands for. -/
def parse (text : List Char) : Option Json :=
  match value? (2 * text.length + 2) text with
  | some (v, rest) => if (skipSpaces rest).isEmpty then some v else none
  | none => none

end Json
end Graft
