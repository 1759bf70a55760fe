-- Strings and keys of a configuration document. A reader takes the text that
-- is left and gives what it read and the rest.
import Graft.Toml.Scalar

namespace Graft.Toml

/-- A character that must not stand in a string or a comment. -/
def isControl (c : Char) : Bool := (c.toNat < 0x20 && c != '\t') || c.toNat == 0x7F

/-- The line end that the text opens with. -/
def lineEnd? : List Char → Option (List Char × List Char)
  | '\n' :: cs => some (['\n'], cs)
  | '\r' :: '\n' :: cs => some (['\r', '\n'], cs)
  | _ => none

def isSpace (c : Char) : Bool := c == ' ' || c == '\t'

def skipSpaces (cs : List Char) : List Char := cs.dropWhile isSpace

/-- The character with this number of hexadecimal digits. -/
def hexEscape (n : Nat) (cs : List Char) : Option (Char × List Char) :=
  let ds := cs.take n
  let v := digitsValue 16 ds
  if ds.length == n && ds.all isHexDigit && v.isValidChar then some (Char.ofNat v, cs.drop n)
  else none

def escape? : List Char → Option (Char × List Char)
  | [] => none
  | c :: cs =>
    if c == 'b' then some ('\x08', cs)
    else if c == 't' then some ('\t', cs)
    else if c == 'n' then some ('\n', cs)
    else if c == 'f' then some ('\x0C', cs)
    else if c == 'r' then some ('\r', cs)
    else if c == 'e' then some ('\x1B', cs)
    else if c == '"' || c == '\\' then some (c, cs)
    else if c == 'x' then hexEscape 2 cs
    else if c == 'u' then hexEscape 4 cs
    else if c == 'U' then hexEscape 8 cs
    else none

/-- The rest behind the spaces and line ends that follow a backslash at the end of a
line. -/
def continued? (cs : List Char) : Option (List Char) :=
  match lineEnd? (skipSpaces cs) with
  | none => none
  | some (_, rest) => some (skipLines rest.length rest)
where
  skipLines : Nat → List Char → List Char
    | 0, cs => cs
    | n + 1, cs =>
      match lineEnd? (skipSpaces cs) with
      | some (_, rest) => skipLines n rest
      | none => skipSpaces cs

/-- A string up to its closing mark. The first argument bounds the number of steps. -/
def shortString (mark : Char) : Nat → List Char → Option (List Char × List Char)
  | 0, _ => none
  | _ + 1, [] => none
  | n + 1, c :: cs =>
    if c == mark then some ([], cs)
    else if mark == '"' && c == '\\' then do
      let (e, rest) ← escape? cs
      let (s, rest') ← shortString mark n rest
      return (e :: s, rest')
    else if isControl c then none
    else do
      let (s, rest) ← shortString mark n cs
      return (c :: s, rest)

/-- A string over several lines, up to its closing marks. Up to two more marks before
them belong to the string. -/
def longString (mark : Char) : Nat → List Char → Option (List Char × List Char)
  | 0, _ => none
  | _ + 1, [] => none
  | n + 1, c :: cs =>
    if c == mark then
      let run := ((c :: cs).takeWhile (· == mark)).length
      if 3 ≤ run then
        let kept := min (run - 3) 2
        some (List.replicate kept mark, (c :: cs).drop (kept + 3))
      else do
        let (s, rest) ← longString mark n cs
        return (c :: s, rest)
    else if mark == '"' && c == '\\' then
      match continued? cs with
      | some rest => longString mark n rest
      | none => do
        let (e, rest) ← escape? cs
        let (s, rest') ← longString mark n rest
        return (e :: s, rest')
    else
      match lineEnd? (c :: cs) with
      | some (ending, rest) => do
        let (s, rest') ← longString mark n rest
        return (ending ++ s, rest')
      | none =>
        if isControl c then none
        else do
          let (s, rest) ← longString mark n cs
          return (c :: s, rest)

/-- The text without the line end that it opens with. -/
def dropLineEnd (cs : List Char) : List Char :=
  match lineEnd? cs with
  | some (_, rest) => rest
  | none => cs

/-- A string in any of its four forms. -/
def string? (cs : List Char) : Option (String × List Char) :=
  let quoted := fun (mark : Char) =>
    match cs with
    | _ :: rest =>
      if List.isPrefixOf [mark, mark, mark] cs then
        longString mark (cs.length + 1) (dropLineEnd (cs.drop 3))
      else shortString mark (cs.length + 1) rest
    | [] => none
  let found :=
    match cs.head? with
    | some '"' => quoted '"'
    | some '\'' => quoted '\''
    | _ => none
  found.map fun r => (String.ofList r.1, r.2)

/-! ## Keys -/

def isBareKey (c : Char) : Bool := c.isAlphanum || c == '_' || c == '-'

/-- One key, without dots. -/
def simpleKey? (cs : List Char) : Option (String × List Char) :=
  match cs with
  | [] => none
  | c :: rest =>
    if c == '"' || c == '\'' then
      (shortString c (rest.length + 1) rest).map fun r => (String.ofList r.1, r.2)
    else
      let word := cs.takeWhile isBareKey
      if word.isEmpty then none else some (String.ofList word, cs.dropWhile isBareKey)

/-- Keys with dots between them: all but the last, and the last. -/
def dottedKey? : Nat → List Char → Option ((List String × String) × List Char)
  | 0, _ => none
  | n + 1, cs => do
    let (key, rest) ← simpleKey? (skipSpaces cs)
    match skipSpaces rest with
    | '.' :: more =>
      let ((path, last), rest') ← dottedKey? n more
      return ((key :: path, last), rest')
    | rest' => return (([], key), rest')

end Graft.Toml
