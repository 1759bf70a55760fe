-- Paths as they are written. A path is its text; its parts are the names
-- between slashes, where empty parts and inner dots do not count.
import Graft.Text.Lines

namespace Graft.Path

/-- The path starts at the root of the file tree. -/
def isAbsolute (path : String) : Bool := path.toList.head? == some '/'

/-- `path` seen from `base`. An absolute path stands for itself. -/
def join (base path : String) : String :=
  if isAbsolute path then path
  else if base.isEmpty || base.toList.getLast? == some '/' then base ++ path
  else base ++ "/" ++ path

/-- How many characters at the start are no name: the root slash, or the dot of a
path that is written from the current directory. -/
def leadLength (path : List Char) : Nat :=
  match path with
  | '/' :: _ => 1
  | ['.'] => 1
  | '.' :: '/' :: _ => 1
  | _ => 0

/-- The last part of `body`, and the number of characters that it takes with the
slash before it. -/
def lastPart (body : List Char) : List Char × Nat :=
  let part := (body.reverse.takeWhile (· != '/')).reverse
  (part, if body.contains '/' then part.length + 1 else part.length)

theorem lastPart_pos {body : List Char} (h : body ≠ []) : 0 < (lastPart body).2 := by
  unfold lastPart
  dsimp only
  split
  · omega
  · rename_i hs
    cases hb : body.reverse with
    | nil => simp at hb; exact absurd hb h
    | cons c cs =>
      have hc : c ∈ body := by
        rw [← List.mem_reverse, hb]; exact List.mem_cons_self
      have hne : c ≠ '/' := by
        rintro rfl; exact hs (by simpa using hc)
      simp [hne]

/-- The path without the empty parts and dots at its end. -/
def trimTail (path : List Char) : List Char :=
  let lead := leadLength path
  let body := path.drop lead
  let last := lastPart body
  if _h : body ≠ [] ∧ (last.1 = [] ∨ last.1 = ['.']) then
    trimTail (path.take (path.length - last.2))
  else path
termination_by path.length
decreasing_by
  have hpos := lastPart_pos _h.1
  have hlen : path ≠ [] := fun hp => _h.1 (by simp [body, hp])
  have := List.length_pos_iff.2 hlen
  simp only [List.length_take]
  simp only [body, lead] at hpos ⊢
  omega

/-- The path without its last part; `none` for a root and for the empty path. -/
def parent? (path : String) : Option String :=
  let trimmed := trimTail path.toList
  let lead := leadLength trimmed
  let body := trimmed.drop lead
  if body.isEmpty then
    if trimmed == ['.'] then some "" else none
  else
    let rest := trimmed.take (trimmed.length - (lastPart body).2)
    some (String.ofList (trimTail rest))

/-- The path and at most `n - 1` of the paths above it, nearest first. -/
def ancestors : Nat → String → List String
  | 0, _ => []
  | n + 1, path =>
    path :: match parent? path with
      | some up => ancestors n up
      | none => []

/-- The name of the file that the path leads to, unless the path ends in a root, a
current directory or a step upwards. -/
def fileName? (path : String) : Option String :=
  let trimmed := trimTail path.toList
  let body := trimmed.drop (leadLength trimmed)
  let part := (lastPart body).1
  if part.isEmpty || part == ['.', '.'] then none else some (String.ofList part)

/-- What follows the last dot of a file name. A name that opens with its only dot has
no extension. -/
def extension? (name : String) : Option String :=
  let cs := name.toList
  let tail := (cs.reverse.takeWhile (· != '.')).reverse
  if tail.length + 1 < cs.length then some (String.ofList tail) else none

/-- The names to follow from the start of the path, with the steps upwards. -/
def parts (path : String) : List String :=
  ((Text.splitOn '/' path.toList).filter (fun p => !p.isEmpty && p != ['.'])).map String.ofList

/-- The path can only lead to a directory: it ends in a slash or in a dot. -/
def wantsDirectory (path : String) : Bool :=
  match (lastPart path.toList).1 with
  | [] => true
  | part => part == ['.']

end Graft.Path
