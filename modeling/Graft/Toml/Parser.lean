-- Reading a configuration document line by line: headers, and keys with
-- their values. Arrays and inline tables may go on over several lines and
-- end with a comma.
import Graft.Toml.Text

namespace Graft.Toml

/-- The rest of the line behind a comment. -/
def skipComment (cs : List Char) : Option (List Char) :=
  match cs with
  | '#' :: rest =>
    let body := rest.takeWhile fun c => !isControl c
    some (rest.drop body.length)
  | _ => some cs

/-- The rest behind spaces, comments and line ends. -/
def skipGaps : Nat → List Char → Option (List Char)
  | 0, cs => some cs
  | n + 1, cs => do
    let rest ← skipComment (skipSpaces cs)
    match lineEnd? rest with
    | some (_, rest') => skipGaps n rest'
    | none => return rest

/-- A character that ends a value without quotes. -/
def endsScalar (c : Char) : Bool :=
  isSpace c || c == '\n' || c == '\r' || c == ',' || c == ']' || c == '\x7d' || c == '#' ||
    c == '=' || c == '[' || c == '\x7b' || c == '"' || c == '\''

/-- A value without quotes. A date may have a blank before its time. -/
def bareValue? (cs : List Char) : Option (Value × List Char) :=
  let word := cs.takeWhile fun c => !endsScalar c
  let rest := cs.dropWhile fun c => !endsScalar c
  let joined :=
    match rest with
    | ' ' :: more =>
      let time := more.takeWhile fun c => !endsScalar c
      if isDay word && !time.isEmpty && time.all fun c => c.isDigit || ":.-+Zz".toList.contains c
      then some (word ++ ' ' :: time, more.drop time.length) else none
    | _ => none
  match joined with
  | some (whole, rest') => (scalar? whole).map fun v => (v, rest')
  | none => (scalar? word).map fun v => (v, rest)

/-- What a key is given: the keys before the last, the last, and the value. -/
structure Pair where
  path : List String
  key : String
  value : Value

def tableOf : List Pair → Entries → Option Entries
  | [], es => some es
  | p :: ps, es => (assign p.path p.key p.value es).bind (tableOf ps)

mutual
/-- A value. The first argument bounds the depth. -/
def value? : Nat → List Char → Option (Value × List Char)
  | 0, _ => none
  | n + 1, cs =>
    match cs with
    | [] => none
    | c :: rest =>
      if c == '"' || c == '\'' then (string? cs).map fun r => (.text r.1, r.2)
      else if c == '[' then (elements? n rest).map fun r => (.array r.1, r.2)
      else if c == '\x7b' then do
        let (pairs, rest') ← pairs? n rest
        let es ← tableOf pairs []
        return (.table (closeEntries es), rest')
      else bareValue? cs

/-- The elements of an array, and the rest behind its bracket. -/
def elements? : Nat → List Char → Option (List Value × List Char)
  | 0, _ => none
  | n + 1, cs => do
    let rest ← skipGaps cs.length cs
    match rest with
    | ']' :: rest' => return ([], rest')
    | _ =>
      let (v, rest') ← value? n rest
      let next ← skipGaps rest'.length rest'
      match next with
      | ',' :: more =>
        let (vs, end_) ← elements? n more
        return (v :: vs, end_)
      | ']' :: more => return ([v], more)
      | _ => none

/-- A key with its value. -/
def pair? : Nat → List Char → Option (Pair × List Char)
  | 0, _ => none
  | n + 1, cs => do
    let ((path, key), rest) ← dottedKey? (cs.length + 1) cs
    match skipSpaces rest with
    | '=' :: more =>
      let (v, rest') ← value? n (skipSpaces more)
      return (⟨path, key, v⟩, rest')
    | _ => none

/-- The pairs of an inline table, and the rest behind its brace. -/
def pairs? : Nat → List Char → Option (List Pair × List Char)
  | 0, _ => none
  | n + 1, cs => do
    let rest ← skipGaps cs.length cs
    match rest with
    | '\x7d' :: rest' => return ([], rest')
    | _ =>
      let (p, rest') ← pair? n rest
      let next ← skipGaps rest'.length rest'
      match next with
      | ',' :: more =>
        let (ps, end_) ← pairs? n more
        return (p :: ps, end_)
      | '\x7d' :: more => return ([p], more)
      | _ => none
end

/-! ## The document -/

/-- A line that says something. -/
inductive Statement
  | header (path : List String) (key : String)
  | arrayHeader (path : List String) (key : String)
  | pair (p : Pair)

/-- The statement that the text opens with. -/
def statement? (cs : List Char) : Option (Statement × List Char) :=
  match cs with
  | '[' :: '[' :: rest => do
    let ((path, key), rest') ← dottedKey? (rest.length + 1) rest
    match rest' with
    | ']' :: ']' :: more => return (.arrayHeader path key, more)
    | _ => none
  | '[' :: rest => do
    let ((path, key), rest') ← dottedKey? (rest.length + 1) rest
    match rest' with
    | ']' :: more => return (.header path key, more)
    | _ => none
  | _ => (pair? (2 * cs.length + 2) cs).map fun r => (.pair r.1, r.2)

/-- The statements of a document, each on lines of its own. -/
def statements? : Nat → List Char → Option (List Statement)
  | 0, _ => none
  | n + 1, cs => do
    let rest ← skipGaps cs.length cs
    if rest.isEmpty then return []
    else
      let (s, more) ← statement? rest
      let tail ← skipComment (skipSpaces more)
      match tail with
      | [] => return [s]
      | _ =>
        let (_, next) ← lineEnd? tail
        let ss ← statements? n next
        return s :: ss

/-- The document so far, and the keys of the table that is open. -/
structure Building where
  root : Entries
  place : List String

def Building.add (b : Building) : Statement → Option Building
  | .header path key =>
    (openTable path key b.root).map fun root => ⟨root, path ++ [key]⟩
  | .arrayHeader path key =>
    (addTable path key b.root).map fun root => ⟨root, path ++ [key]⟩
  | .pair p =>
    (within b.place (assign p.path p.key p.value) b.root).map fun root => { b with root }

def Building.addAll (b : Building) : List Statement → Option Building
  | [] => some b
  | s :: ss => (b.add s).bind fun b' => b'.addAll ss

/-- The mark that some editors put in front of a text. -/
def dropByteOrderMark : List Char → List Char
  | '\uFEFF' :: cs => cs
  | cs => cs

/-- The table that a document stands for. -/
def parse (document : String) : Option (List (String × Value)) := do
  let cs := dropByteOrderMark document.toList
  let statements ← statements? (cs.length + 1) cs
  let b ← Building.addAll ⟨[], []⟩ statements
  return closeEntries b.root

end Graft.Toml
