-- Cutting Go source into tokens. At each place the longest token wins. A
-- string that is not closed, or an escape that is not finished, is no token.
-- A null character stands in no string and no comment: it ends a statement.
import Graft.Go.Token
import Graft.Text.Word

namespace Graft.Go

/-! ## Numbers -/

def isBinary (c : Char) : Bool := c == '0' || c == '1'

def isOctal (c : Char) : Bool := '0' ≤ c && c ≤ '7'

def isHex (c : Char) : Bool := c.isDigit || ('a' ≤ c && c ≤ 'f') || ('A' ≤ c && c ≤ 'F')

/-- How far digits go on, with single underscores between them. -/
def moreDigits (p : Char → Bool) : List Char → Nat
  | '_' :: c :: cs => if p c then 2 + moreDigits p cs else 0
  | c :: cs => if p c then 1 + moreDigits p cs else 0
  | [] => 0

/-- How far a group of digits goes; it opens with a digit. -/
def digitGroup (p : Char → Bool) : List Char → Nat
  | c :: cs => if p c then 1 + moreDigits p cs else 0
  | [] => 0

/-- A group of digits that may stand behind an underscore. -/
def looseGroup (p : Char → Bool) (cs : List Char) : Nat :=
  match cs with
  | '_' :: rest => if digitGroup p rest = 0 then 0 else 1 + digitGroup p rest
  | _ => digitGroup p cs

/-- `n` characters and then `m` more, where `m = 0` means that there is no match. -/
def thenSome (n m : Nat) : Nat := if m = 0 then 0 else n + m

/-- How far an exponent goes. -/
def exponentLength (marks : List Char) (cs : List Char) : Nat :=
  match cs with
  | c :: rest =>
    if marks.contains c then
      match rest with
      | '+' :: more => thenSome 2 (digitGroup Char.isDigit more)
      | '-' :: more => thenSome 2 (digitGroup Char.isDigit more)
      | _ => thenSome 1 (digitGroup Char.isDigit rest)
    else 0
  | [] => 0

/-- How far an integer goes. -/
def intLength (cs : List Char) : Nat :=
  match cs with
  | '0' :: c :: rest =>
    let based :=
      if c == 'b' || c == 'B' then thenSome 2 (looseGroup isBinary rest)
      else if c == 'x' || c == 'X' then thenSome 2 (looseGroup isHex rest)
      else if c == 'o' || c == 'O' then thenSome 2 (looseGroup isOctal rest)
      else thenSome 1 (looseGroup isOctal (c :: rest))
    max 1 based
  | '0' :: [] => 1
  | c :: rest => if c.isDigit then 1 + moreDigits Char.isDigit rest else 0
  | [] => 0

/-- How far the mantissa of a hexadecimal float goes. -/
def hexMantissa (cs : List Char) : Nat :=
  match cs with
  | '.' :: rest => thenSome 1 (digitGroup isHex rest)
  | _ =>
    let n := looseGroup isHex cs
    if n = 0 then 0
    else
      match cs.drop n with
      | '.' :: rest => n + 1 + digitGroup isHex rest
      | _ => n

/-- How far a decimal float goes. -/
def decimalFloat (cs : List Char) : Nat :=
  match cs with
  | '.' :: rest =>
    let n := digitGroup Char.isDigit rest
    if n = 0 then 0 else 1 + n + exponentLength ['e', 'E'] (rest.drop n)
  | _ =>
    let n := digitGroup Char.isDigit cs
    if n = 0 then 0
    else
      match cs.drop n with
      | '.' :: rest =>
        let m := digitGroup Char.isDigit rest
        n + 1 + m + exponentLength ['e', 'E'] (rest.drop m)
      | rest => thenSome n (exponentLength ['e', 'E'] rest)

/-- How far a float goes. -/
def floatLength (cs : List Char) : Nat :=
  let hex :=
    match cs with
    | '0' :: x :: rest =>
      if x == 'x' || x == 'X' then
        let n := hexMantissa rest
        if n = 0 then 0 else thenSome (2 + n) (exponentLength ['p', 'P'] (rest.drop n))
      else 0
    | _ => 0
  max hex (decimalFloat cs)

/-- The number that the text opens with: its class and how far it goes. -/
def number? (cs : List Char) : Option (Class × Nat) :=
  let i := intLength cs
  let f := floatLength cs
  let d := digitGroup Char.isDigit cs
  let imaginary := ([i, f, d].filter fun n => 0 < n && (cs.drop n).head? == some 'i').foldl max 0
  let plain := max i f
  if plain = 0 && imaginary = 0 then none
  else if plain ≤ imaginary then some (.imaginary, imaginary + 1)
  else if i < f then some (.float, f)
  else some (.int, i)

/-! ## Strings -/

/-- The text opens with at least `n` characters for which `p` holds. -/
def opensWith (p : Char → Bool) (n : Nat) (cs : List Char) : Bool :=
  (cs.take n).length == n && (cs.take n).all p

/-- The character that ends a statement wherever it stands. -/
def null : Char := '\x00'

/-- How far an escape of a string goes behind its backslash. -/
def stringEscape (cs : List Char) : Nat :=
  match cs with
  | [] => 0
  | c :: rest =>
    if c == 'x' then if opensWith isHex 2 rest then 3 else 0
    else if c == 'u' then if opensWith isHex 4 rest then 5 else 0
    else if c == 'U' then if opensWith isHex 8 rest then 9 else 0
    else if c == null then 0
    else 1

/-- How far a string goes behind its opening quote, with the closing quote. The first
argument bounds the number of steps. -/
def stringBody : Nat → List Char → Option Nat
  | 0, _ => none
  | _ + 1, [] => none
  | fuel + 1, c :: cs =>
    if c == '"' then some 1
    else if c == '\n' || c == null then none
    else if c == '\\' then
      let n := stringEscape cs
      if n = 0 then none else (stringBody fuel (cs.drop n)).map (· + 1 + n)
    else (stringBody fuel cs).map (· + 1)

/-- How far a raw string goes behind its opening quote, with the closing quote. -/
def rawBody : List Char → Option Nat
  | [] => none
  | c :: cs =>
    if c == '\x60' then some 1
    else if c == null then none
    else (rawBody cs).map (· + 1)

/-- How far an escape of a rune goes behind its backslash. -/
def runeEscape (cs : List Char) : Nat :=
  match cs with
  | [] => 0
  | c :: rest =>
    if c == 'x' then if opensWith isHex 2 rest then 3 else 0
    else if c == 'u' then if opensWith isHex 4 rest then 5 else 0
    else if c == 'U' then if opensWith isHex 8 rest then 9 else 0
    else if isOctal c then if opensWith isOctal 3 cs then 3 else 0
    else if ['a', 'b', 'f', 'n', 'r', 't', 'v', '\\', '\'', '"'].contains c then 1
    else 0

/-- How far a rune goes behind its opening quote, with the closing quote. -/
def runeBody (cs : List Char) : Option Nat :=
  match cs with
  | [] => none
  | '\\' :: rest =>
    let n := runeEscape rest
    if n ≠ 0 && (rest.drop n).head? == some '\'' then some (n + 2) else none
  | c :: rest =>
    if c != '\'' && c != null && rest.head? == some '\'' then some 2 else none

/-! ## Comments and words -/

/-- How far a comment goes behind its opening mark, with the closing one. -/
def blockBody : List Char → Option Nat
  | '*' :: '/' :: _ => some 2
  | c :: cs => if c == null then none else (blockBody cs).map (· + 1)
  | [] => none

/-- How far a comment goes. -/
def commentLength (cs : List Char) : Nat :=
  match cs with
  | '/' :: '/' :: rest => 2 + (rest.takeWhile fun c => c != '\n' && c != null).length
  | '/' :: '*' :: rest =>
    match blockBody rest with
    | some n => 2 + n
    | none => 0
  | _ => 0

def wordClass (word : List Char) : Class :=
  match keywordTable.find? fun e => e.1.toList == word with
  | some e => .keyword e.2
  | none => .name

/-- The mark that the text opens with, and how far it goes. -/
def mark? (cs : List Char) : Option (Mark × Nat) :=
  (markTable.find? fun e => e.1.toList.isPrefixOf cs).map fun e => (e.2, e.1.toList.length)

/-- The token that the text opens with: its class and how many characters it takes. -/
def scan (cs : List Char) : Class × Nat :=
  match cs with
  | [] => (.junk, 1)
  | c :: rest =>
    if 0 < commentLength cs then (.comment, commentLength cs)
    else if Text.isWordStart c then
      let n := 1 + (rest.takeWhile Text.isWordPart).length
      (wordClass (cs.take n), n)
    else if c == '"' then
      match stringBody (rest.length + 1) rest with
      | some n => (.string, 1 + n)
      | none => (.junk, 1)
    else if c == '\x60' then
      match rawBody rest with
      | some n => (.rawString, 1 + n)
      | none => (.junk, 1)
    else if c == '\'' then
      match runeBody rest with
      | some n => (.rune, 1 + n)
      | none => (.junk, 1)
    else
      match number? cs with
      | some (sort, n) => (sort, n)
      | none =>
        match mark? cs with
        | some (m, n) => (.mark m, n)
        | none => (.junk, 1)

/-! ## The whole text -/

/-- White space between tokens. -/
def isGap (c : Char) : Bool :=
  c == ' ' || c == '\t' || c == '\n' || c == '\r' || c == '\x0B' || c == '\x0C'

/-- A place in the text: its row, and its column in bytes. -/
structure Place where
  row : Nat
  column : Nat
  deriving DecidableEq, Repr

def Place.after (p : Place) (c : Char) : Place :=
  if c == '\n' then ⟨p.row + 1, 0⟩ else ⟨p.row, p.column + c.utf8Size⟩

/-- Cuts the text at `place` into tokens; `gap` holds what stands since the last
token, in reverse. -/
def tokensFrom (place : Place) (gap : List Char) (cs : List Char) : List Token :=
  match cs with
  | [] => [⟨.ending, gap.reverse, [], place.row, place.column⟩]
  | c :: rest =>
    if isGap c then tokensFrom (place.after c) (c :: gap) rest
    else
      let r := scan (c :: rest)
      let more := rest.take (r.2 - 1)
      ⟨r.1, gap.reverse, c :: more, place.row, place.column⟩ ::
        tokensFrom ((c :: more).foldl Place.after place) [] (rest.drop (r.2 - 1))
termination_by cs.length
decreasing_by all_goals simp only [List.length_cons, List.length_drop]; omega

/-- The mark that some editors put in front of a text. -/
def byteOrderMark : Char := '\uFEFF'

/-- The tokens of a source text; the last one is its ending. -/
def tokens (source : List Char) : List Token :=
  match source with
  | [] => tokensFrom ⟨0, 0⟩ [] []
  | c :: rest =>
    if c == byteOrderMark then tokensFrom ⟨0, c.utf8Size⟩ [] rest
    else tokensFrom ⟨0, 0⟩ [] (c :: rest)

end Graft.Go
