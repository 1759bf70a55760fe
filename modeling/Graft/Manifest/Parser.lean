-- Reading a manifest line by line. A directive stands on a line of its own,
-- or as an entry of a block that opens with the verb and a parenthesis.
-- Only `module`, `go` and `require` are kept.
import Graft.Manifest.Line

namespace Graft.Manifest

/-- The directives that are accepted and not kept. -/
def ignoredVerbs : List String :=
  ["replace", "exclude", "retract", "toolchain", "godebug", "tool", "ignore"]

/-- The comment says that the module is needed only by other modules. -/
def marksIndirect (comment : Option (List Char)) : Bool :=
  match comment.map Text.trimBlank with
  | none => false
  | some c => c == "indirect".toList || "indirect;".toList.isPrefixOf c

/-- Takes one directive over into the manifest. -/
def apply (m : Manifest) (verb : String) (args : List String) (comment : Option (List Char)) :
    Except LineFault Manifest :=
  if verb == "module" then
    match args with
    | [path] =>
      if m.moduleName.isSome then .error .repeatedModule
      else .ok { m with moduleName := some path }
    | _ => .error .moduleUsage
  else if verb == "go" then
    match args with
    | [version] => .ok { m with goVersion := some version }
    | _ => .error .goUsage
  else if verb == "require" then
    match args with
    | [path, version] =>
      .ok { m with requires := m.requires ++ [⟨path, version, marksIndirect comment⟩] }
    | _ => .error .requireUsage
  else if ignoredVerbs.contains verb then .ok m
  else .error (.unknownDirective verb)

/-- A block that is open: its verb, and the line that opened it. -/
structure Block where
  verb : String
  line : Nat
  deriving DecidableEq, Repr

/-- The state between two lines. -/
structure Reading where
  manifest : Manifest
  block : Option Block
  deriving DecidableEq, Repr

/-- What the tokens say, whatever their spelling. -/
def Line.words (l : Line) : List String := l.tokens.map fun t => String.ofList t.value

/-- Reads one line that lies inside a block. -/
def Reading.entry (r : Reading) (b : Block) (words : List String)
    (comment : Option (List Char)) : Except LineFault Reading :=
  if words == [")"] then .ok { r with block := none }
  else (apply r.manifest b.verb words comment).map fun m => { r with manifest := m }

/-- Reads one line outside of every block. -/
def Reading.directive (r : Reading) (number : Nat) (words : List String)
    (comment : Option (List Char)) : Except LineFault Reading :=
  match words with
  | [] => .ok r
  | verb :: args =>
    if args == ["("] then .ok { r with block := some ⟨verb, number⟩ }
    else if args == ["(", ")"] then .ok r
    else (apply r.manifest verb args comment).map fun m => { r with manifest := m }

/-- Reads one line. A line without tokens says nothing. -/
def Reading.step (r : Reading) (number : Nat) (text : List Char) : Except LineFault Reading := do
  let line ← lex text
  match line.words, r.block with
  | [], _ => return r
  | words, some b => r.entry b words line.comment
  | words, none => r.directive number words line.comment

abbrev Located := Nat × LineFault

/-- Reads lines, the first of which has the number `number`. -/
def Reading.steps (r : Reading) (number : Nat) : List (List Char) → Except Located Reading
  | [] => .ok r
  | text :: more =>
    match r.step number text with
    | .ok r' => r'.steps (number + 1) more
    | .error fault => .error (number, fault)

/-- At the end of the text no block may be open. -/
def Reading.finish (r : Reading) : Except Located Manifest :=
  match r.block with
  | none => .ok r.manifest
  | some b => .error (b.line, .unterminatedBlock b.verb)

def parseText (path : String) (text : List Char) : Except Located Manifest := do
  let r ← Reading.steps ⟨empty path, none⟩ 1 (Text.lines text)
  r.finish

/-- Reads the contents of the manifest at `path`. -/
def parse (path : String) (contents : String) : Except Error Manifest :=
  match parseText path contents.toList with
  | .ok m => .ok m
  | .error (line, fault) => .error (.malformed path line fault)

end Graft.Manifest
