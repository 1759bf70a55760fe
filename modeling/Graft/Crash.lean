-- The report of a crash: a box that says what happened and what was going on,
-- and a hint at the file that may have been left in the project.
import Graft.Context

namespace Graft

/-- What is known of a crash. -/
structure Crash where
  /-- What the program said, if that is a text. -/
  message : Option String
  location : Option String
  time : String
  context : Context
  /-- The trace of calls, if it was asked for. -/
  trace : Option String
  deriving DecidableEq, Repr

namespace Crash

def programVersion : String := "0.1.0"

/-- The number of characters inside the box. -/
def width : Nat := 78

/-- The number of characters of a row. -/
def rowWidth : Nat := width - 2

/-- The text in at most `n` characters; if it is cut, three dots stand at its end. -/
def shortened (n : Nat) (cs : List Char) : List Char :=
  if cs.length ≤ n then cs else cs.take (n - 3) ++ ['.', '.', '.']

/-- The text filled up with blanks to `n` characters. -/
def padded (n : Nat) (cs : List Char) : List Char := cs ++ List.replicate (n - cs.length) ' '

def row (text : String) : String :=
  "║  " ++ String.ofList (padded rowWidth (shortened rowWidth text.toList)) ++ "║"

/-- A line across the box, between two corners. -/
def across (left right : String) : String :=
  left ++ String.ofList (List.replicate width '═') ++ right

/-- The line between two parts of the box. -/
def divider : String := across "╠" "╣"

def phaseRow (c : Context) : String :=
  match c.phase with
  | some p => row ("  Phase: " ++ p.name)
  | none => row "  Phase: (not set - crash occurred before injection started)"

/-- A row for something that may be unknown. -/
def rowFor (label : String) : Option String → List String
  | some text => [row (label ++ text)]
  | none => []

/-- The lines behind the last divider. -/
def closing (trace : Option String) : List String :=
  match trace with
  | some calls => [row "STACK TRACE:", across "╚" "╝", "", calls]
  | none => [row "Run with RUST_BACKTRACE=1 for stack trace", across "╚" "╝"]

/-- The hint at a file that may have been left. -/
def hint : Option String → List String
  | some project =>
    ["", "Check " ++ project ++ " for a leftover zz_gyv_codeinject-*.go file and remove it."]
  | none => []

/-- The report. Its lines may hold line ends of the texts in it. -/
def report (c : Crash) : List String :=
  ["", across "╔" "╗", row "GYV CRASH REPORT", divider,
   row ("Version: " ++ programVersion), row "Platform: linux", row ("Time: " ++ c.time), divider,
   row ("PANIC: " ++ c.message.getD "Unknown panic")] ++
  rowFor "Location: " c.location ++
  [divider, row "INJECTION CONTEXT:", phaseRow c.context] ++
  rowFor "  Project: " c.context.project ++
  rowFor "  Symbol: " c.context.symbol ++
  [divider] ++ closing c.trace ++ hint c.context.project

end Crash
end Graft
