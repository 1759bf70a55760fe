-- Lines of a text. A line ends at a line feed, and a carriage return right
-- before that line feed belongs to the end, not to the line.
namespace Graft.Text

/-- The text up to the first `sep`, and what follows it, if there is one. -/
def breakAt {α : Type} [BEq α] (sep : α) : List α → List α × Option (List α)
  | [] => ([], none)
  | x :: xs =>
    if x == sep then ([], some xs)
    else
      let r := breakAt sep xs
      (x :: r.1, r.2)

/-- The pieces between the separators: one more than there are separators. -/
def splitOn {α : Type} [BEq α] (sep : α) : List α → List (List α)
  | [] => [[]]
  | x :: xs =>
    if x == sep then [] :: splitOn sep xs
    else
      match splitOn sep xs with
      | [] => [[x]]
      | piece :: pieces => (x :: piece) :: pieces

/-- The line without the carriage return that belonged to its end. -/
def dropReturn (line : List Char) : List Char :=
  if line.getLast? = some '\r' then line.dropLast else line

/-- The pieces before the last one are whole lines; the last piece is a line only
if it holds something, and it has no line end to shorten. -/
def linesOfPieces : List (List Char) → List (List Char)
  | [] => []
  | [last] => if last.isEmpty then [] else [last]
  | piece :: pieces => dropReturn piece :: linesOfPieces pieces

/-- The lines of a text, without their ends. -/
def lines (text : List Char) : List (List Char) := linesOfPieces (splitOn '\n' text)

/-- The pieces with the separator between them. -/
def joinWith {α : Type} (sep : List α) : List (List α) → List α
  | [] => []
  | [piece] => piece
  | piece :: pieces => piece ++ sep ++ joinWith sep pieces

end Graft.Text
