-- Reading semantic versions. The reader goes from left to right and names
-- the first thing that is wrong.
import Graft.Version
import Graft.Text.Quoted

namespace Graft.Version

/-- The place in a version that a fault is about. -/
inductive Part
  | major | minor | patch | pre | build
  deriving DecidableEq, Repr

def Part.name : Part → String
  | .major => "major version number"
  | .minor => "minor version number"
  | .patch => "patch version number"
  | .pre => "pre-release identifier"
  | .build => "build metadata"

/-- What is wrong with the text of a version. -/
inductive Fault
  | empty
  | unexpectedEnd (part : Part)
  | unexpectedChar (part : Part) (c : Char)
  | unexpectedAfter (part : Part) (c : Char)
  | leadingZero (part : Part)
  | tooLarge (part : Part)
  | emptySegment (part : Part)
  deriving DecidableEq, Repr

def Fault.message : Fault → String
  | .empty => "empty string, expected a semver version"
  | .unexpectedEnd p => "unexpected end of input while parsing " ++ p.name
  | .unexpectedChar p c =>
    "unexpected character " ++ Text.quotedChar c ++ " while parsing " ++ p.name
  | .unexpectedAfter p c => "unexpected character " ++ Text.quotedChar c ++ " after " ++ p.name
  | .leadingZero p => "invalid leading zero in " ++ p.name
  | .tooLarge p => "value of " ++ p.name ++ " exceeds u64::MAX"
  | .emptySegment p => "empty identifier segment in " ++ p.name

/-- One more than the largest number in a version. -/
def numberBound : Nat := Nat.pow 2 64

/-- Reads digits behind the value read so far. `seen` says that there was a digit. -/
def readDigits (part : Part) (value : Nat) (seen : Bool) :
    List Char → Except Fault (Nat × List Char)
  | [] => if seen then .ok (value, []) else .error (.unexpectedEnd part)
  | c :: cs =>
    if c.isDigit then
      if value == 0 && seen then .error (.leadingZero part)
      else
        let next := value * 10 + (c.toNat - '0'.toNat)
        if next < numberBound then readDigits part next true cs else .error (.tooLarge part)
    else if seen then .ok (value, c :: cs)
    else .error (.unexpectedChar part c)

/-- Reads one of the three numbers. -/
def readNumber (part : Part) (cs : List Char) : Except Fault (Nat × List Char) :=
  readDigits part 0 false cs

/-- Reads the dot after a number. -/
def readDot (part : Part) : List Char → Except Fault (List Char)
  | [] => .error (.unexpectedEnd part)
  | '.' :: cs => .ok cs
  | c :: _ => .error (.unexpectedAfter part c)

def isIdChar (c : Char) : Bool := c.isAlphanum || c == '-'

/-- A number with a zero in front is no identifier of a pre-release. -/
def badZero (part : Part) (id : List Char) : Bool :=
  part == .pre && isNumeric id && 1 < id.length && id.head? == some '0'

theorem length_dropWhile_le (p : Char → Bool) (cs : List Char) :
    (cs.dropWhile p).length ≤ cs.length := (List.dropWhile_sublist p).length_le

/-- Reads identifiers with dots between them. -/
def readIds (part : Part) (cs : List Char) : Except Fault (List (List Char) × List Char) :=
  let id := cs.takeWhile isIdChar
  if id.isEmpty then .error (.emptySegment part)
  else if badZero part id then .error (.leadingZero part)
  else
    match _h : cs.dropWhile isIdChar with
    | '.' :: rest => (readIds part rest).map fun r => (id :: r.1, r.2)
    | rest => .ok ([id], rest)
termination_by cs.length
decreasing_by
  have := length_dropWhile_le isIdChar cs
  rw [_h] at this
  simp only [List.length_cons] at this
  omega

/-- Reads the identifiers behind `mark`, if the mark is there. -/
def readMarked (mark : Char) (part : Part) :
    List Char → Except Fault (List (List Char) × List Char)
  | [] => .ok ([], [])
  | c :: cs => if c == mark then readIds part cs else .ok ([], c :: cs)

/-- The last part of a version that holds something. -/
def lastPart (pre build : List (List Char)) : Part :=
  if !build.isEmpty then .build else if !pre.isEmpty then .pre else .patch

/-- Reads a whole text as a version. -/
def parseChars (cs : List Char) : Except Fault Version := do
  if cs.isEmpty then throw .empty
  let (major, cs) ← readNumber .major cs
  let cs ← readDot .major cs
  let (minor, cs) ← readNumber .minor cs
  let cs ← readDot .minor cs
  let (patch, cs) ← readNumber .patch cs
  let (pre, cs) ← readMarked '-' .pre cs
  let (build, cs) ← readMarked '+' .build cs
  match cs with
  | [] => return ⟨major, minor, patch, pre, build⟩
  | c :: _ => throw (.unexpectedAfter (lastPart pre build) c)

def parse (text : String) : Except Fault Version := parseChars text.toList

/-- Reads a version that may be written with a `v` in front. -/
def parseTagged (text : String) : Except Fault Version :=
  match text.toList with
  | 'v' :: cs => parseChars cs
  | cs => parseChars cs

end Graft.Version
