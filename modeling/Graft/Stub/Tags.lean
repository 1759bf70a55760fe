-- Cutting templates into text and tags. A tag stands between marks of two
-- characters: a hole, a statement or a comment. White space around a tag can
-- be dropped, by a sign at the mark or by the settings: the line end behind a
-- statement, and the blanks in front of one that opens its line.
import Graft.Stub
import Graft.Text.Blank

namespace Graft.Stub.Template

/-! ## Settings -/

/-- What a name may be used for that has no value. -/
inductive Leniency
  /-- It counts as empty everywhere. -/
  | lenient
  /-- It can be asked for in a condition, where it counts as not set. -/
  | semiStrict
  | strict
  deriving DecidableEq, Repr

/-- How the characters of a value are written. -/
inductive Escape
  | none
  | html
  deriving DecidableEq, Repr

/-- How templates are read and filled. -/
structure Settings where
  leniency : Leniency
  /-- How values are written in the template of a name. -/
  escape : String → Escape
  /-- The line end behind a statement is dropped. -/
  trimBlocks : Bool
  /-- The blanks between the start of a line and a statement are dropped. -/
  lstripBlocks : Bool
  keepTrailingNewline : Bool

/-! ## Marks -/

/-- What a mark opens. -/
inductive Mark
  | hole | statement | comment
  deriving DecidableEq, Repr

/-- The mark that a text opens with, and what stands behind it. -/
def mark? : List Char → Option (Mark × List Char)
  | '\x7b' :: c :: cs =>
    if c == '\x7b' then some (.hole, cs)
    else if c == '%' then some (.statement, cs)
    else if c == '#' then some (.comment, cs)
    else none
  | _ => none

/-- The text up to the first mark, and the rest. -/
def upToMark : List Char → List Char × List Char
  | [] => ([], [])
  | c :: cs =>
    if (mark? (c :: cs)).isSome then ([], c :: cs)
    else
      let r := upToMark cs
      (c :: r.1, r.2)

/-- What the sign at a mark says of the white space outside the tag. -/
inductive Control
  | plain | keep | strip
  deriving DecidableEq, Repr

/-- The sign behind an opening mark, and the rest. -/
def control : List Char → Control × List Char
  | '-' :: cs => (.strip, cs)
  | '+' :: cs => (.keep, cs)
  | cs => (.plain, cs)

/-- The first character of the mark that closes a tag; the second one is a brace. -/
def Mark.closing : Mark → Char
  | .hole => '\x7d'
  | .statement => '%'
  | .comment => '#'

/-- The sign at the closing mark that the text opens with, and what stands behind it. -/
def close? (m : Mark) : List Char → Option (Control × List Char)
  | '-' :: c :: '\x7d' :: cs => if c == m.closing then some (.strip, cs) else none
  | '+' :: c :: '\x7d' :: cs => if c == m.closing && m != .hole then some (.keep, cs) else none
  | c :: '\x7d' :: cs => if c == m.closing then some (.plain, cs) else none
  | _ => none

/-! ## Words -/

inductive Word
  | name (s : String)
  /-- A text between quotes. -/
  | text (s : String)
  | sign (c : Char)
  deriving DecidableEq, Repr

/-- A word and its line. -/
structure Placed where
  line : Nat
  word : Word
  deriving DecidableEq, Repr

/-- The number of line ends in a text. -/
def lineEnds (cs : List Char) : Nat := cs.count '\n'

/-- White space between words. -/
def isSpace (c : Char) : Bool :=
  c == ' ' || c == '\t' || c == '\n' || c == '\x0C' || c == '\r'

def isNameStart (c : Char) : Bool := c.isAlpha || c == '_'

def isNamePart (c : Char) : Bool := c.isAlphanum || c == '_'

/-- The text up to a quote, and what stands behind the quote. Escapes are not known. -/
def quoted? (quote : Char) (cs : List Char) : Option (List Char × List Char) :=
  let inside := cs.takeWhile (· != quote)
  match cs.dropWhile (· != quote) with
  | _ :: rest => if inside.contains '\\' then none else some (inside, rest)
  | [] => none

theorem length_close? {m : Mark} {cs rest : List Char} {c : Control}
    (h : close? m cs = some (c, rest)) : rest.length < cs.length := by
  unfold close? at h
  split at h
  · split at h <;> cases h
    simp only [List.length_cons]
    omega
  · split at h <;> cases h
    simp only [List.length_cons]
    omega
  · split at h <;> cases h
    simp only [List.length_cons]
    omega
  · cases h

theorem length_quoted? {quote : Char} {cs inside rest : List Char}
    (h : quoted? quote cs = some (inside, rest)) : rest.length < cs.length := by
  have hle := (List.dropWhile_sublist (· != quote) (l := cs)).length_le
  unfold quoted? at h
  dsimp only at h
  split at h
  · rename_i c more hdrop
    rw [hdrop, List.length_cons] at hle
    split at h <;> cases h
    omega
  · cases h

/-- The inside of a tag, and what follows it. -/
structure Inside where
  words : List Placed
  /-- The sign at the closing mark. -/
  control : Control
  line : Nat
  rest : List Char

/-- The words up to the closing mark, behind those that were found already. -/
def inside? (m : Mark) (found : List Placed) (line : Nat) (cs : List Char) : Option Inside :=
  match hclose : close? m cs with
  | some (control, rest) => some ⟨found, control, line, rest⟩
  | none =>
    match hcs : cs with
    | [] => none
    | c :: rest =>
      if isSpace c then inside? m found (line + lineEnds [c]) rest
      else if c == '"' || c == '\'' then
        match hquoted : quoted? c rest with
        | some (s, behind) =>
          inside? m (found ++ [⟨line, .text (String.ofList s)⟩]) (line + lineEnds s) behind
        | none => none
      else if isNameStart c then
        inside? m (found ++ [⟨line, .name (String.ofList (c :: rest.takeWhile isNamePart))⟩]) line
          (rest.dropWhile isNamePart)
      else inside? m (found ++ [⟨line, .sign c⟩]) line rest
termination_by cs.length
decreasing_by
  all_goals subst hcs
  all_goals simp only [List.length_cons]
  · omega
  · have hless := length_quoted? hquoted
    omega
  · have hle := (List.dropWhile_sublist isNamePart (l := rest)).length_le
    omega
  · omega

theorem length_inside? {m : Mark} {found : List Placed} {line : Nat} {cs : List Char} {t : Inside}
    (h : inside? m found line cs = some t) : t.rest.length < cs.length := by
  fun_induction inside? m found line cs with
  | case1 found line cs control rest hclose =>
    cases h
    exact length_close? hclose
  | case2 => cases h
  | case3 found line c rest hclose hspace ih =>
    have hless := ih h
    rw [List.length_cons]
    omega
  | case4 found line c rest hclose hspace hquote s behind hquoted ih =>
    have hless := ih h
    have hquotedless := length_quoted? hquoted
    rw [List.length_cons]
    omega
  | case5 => cases h
  | case6 found line c rest hclose hspace hquote hname ih =>
    have hless := ih h
    have hle := (List.dropWhile_sublist isNamePart (l := rest)).length_le
    rw [List.length_cons]
    omega
  | case7 found line c rest hclose hspace hquote hname ih =>
    have hless := ih h
    rw [List.length_cons]
    omega

/-- The text of a comment is passed over. -/
def comment? (line : Nat) : List Char → Option Inside
  | [] => none
  | c :: cs =>
    match close? .comment (c :: cs) with
    | some (control, rest) => some ⟨[], control, line, rest⟩
    | none => comment? (line + lineEnds [c]) cs

theorem length_comment? {line : Nat} {cs : List Char} {t : Inside}
    (h : comment? line cs = some t) : t.rest.length < cs.length := by
  induction cs generalizing line with
  | nil => cases h
  | cons c cs ih =>
    unfold comment? at h
    split at h
    · rename_i hclose
      cases h
      exact length_close? hclose
    · have hless := ih h
      rw [List.length_cons]
      omega

/-- What stands between the marks of a tag. -/
def between? (m : Mark) (line : Nat) (cs : List Char) : Option Inside :=
  match m with
  | .comment => comment? line cs
  | _ => inside? m [] line cs

theorem length_between? {m : Mark} {line : Nat} {cs : List Char} {t : Inside}
    (h : between? m line cs = some t) : t.rest.length < cs.length := by
  unfold between? at h
  split at h
  · exact length_comment? h
  · exact length_inside? h

/-! ## Pieces -/

/-- A tag with what the signs at its marks say. -/
structure Tag where
  mark : Mark
  line : Nat
  words : List Placed
  before : Control
  behind : Control
  deriving DecidableEq, Repr

inductive Chunk
  | text (cs : List Char)
  | tag (t : Tag)
  /-- A tag that is not closed. -/
  | junk (line : Nat)
  deriving DecidableEq, Repr

/-- A text in front of chunks; texts that stand side by side are one. -/
def withText (cs : List Char) : List Chunk → List Chunk
  | .text ds :: more => .text (cs ++ ds) :: more
  | more => if cs.isEmpty then more else .text cs :: more

theorem length_control (cs : List Char) : (control cs).2.length ≤ cs.length := by
  unfold control
  split <;> simp

theorem length_mark? {cs rest : List Char} {m : Mark} (h : mark? cs = some (m, rest)) :
    rest.length < cs.length := by
  unfold mark? at h
  split at h
  · split at h
    · cases h
      simp only [List.length_cons]
      omega
    · split at h
      · cases h
        simp only [List.length_cons]
        omega
      · split at h <;> cases h
        simp only [List.length_cons]
        omega
  · cases h

theorem length_upToMark (cs : List Char) : (upToMark cs).2.length ≤ cs.length := by
  induction cs with
  | nil => exact Nat.le_refl _
  | cons c cs ih =>
    unfold upToMark
    split
    · exact Nat.le_refl _
    · exact Nat.le_succ_of_le ih

/-- Cuts a text that opens on a line. -/
def cut (line : Nat) (cs : List Char) : List Chunk :=
  let here := line + lineEnds (upToMark cs).1
  withText (upToMark cs).1 <|
    match _ : mark? (upToMark cs).2 with
    | none => []
    | some (m, behind) =>
      match _ : between? m here (control behind).2 with
      | none => [.junk here]
      | some t => .tag ⟨m, here, t.words, (control behind).1, t.control⟩ :: cut t.line t.rest
termination_by cs.length
decreasing_by
  rename_i hmark hbetween
  have hlead := length_upToMark cs
  have hless := length_mark? hmark
  have hcontrol := length_control behind
  have hinside := length_between? hbetween
  omega

/-! ## White space around tags -/

def isLineEnd (c : Char) : Bool := c == '\n' || c == '\r'

/-- The text without the characters at its end for which `p` holds. -/
def dropEnd (p : Char → Bool) (cs : List Char) : List Char := (cs.reverse.dropWhile p).reverse

/-- The text without the line end that it opens with. -/
def dropLineEnd (cs : List Char) : List Char :=
  let rest := if cs.head? == some '\r' then cs.drop 1 else cs
  if rest.head? == some '\n' then rest.drop 1 else rest

/-- What is left of the text behind a tag. -/
def Settings.behind (s : Settings) (t : Tag) (cs : List Char) : List Char :=
  match t.behind with
  | .strip => cs.dropWhile Text.isBlank
  | .keep => cs
  | .plain => if s.trimBlocks && t.mark != .hole then dropLineEnd cs else cs

/-- The text without the blanks behind its last line end. `fresh` says that it opens a line
itself. -/
def dropIndent (fresh : Bool) (cs : List Char) : List Char :=
  let kept := dropEnd (fun c => Text.isBlank c && !isLineEnd c) cs
  match kept.getLast? with
  | some c => if isLineEnd c then kept else cs
  | none => if fresh then [] else cs

/-- What is left of the text in front of a tag. -/
def Settings.before (s : Settings) (fresh : Bool) (t : Tag) (cs : List Char) : List Char :=
  match t.before with
  | .strip => dropEnd Text.isBlank cs
  | .keep => cs
  | .plain => if s.lstripBlocks && t.mark != .hole then dropIndent fresh cs else cs

/-- The tag that the chunks open with. -/
def headTag? : List Chunk → Option Tag
  | .tag t :: _ => some t
  | _ => none

/-- What is left of the text between two tags, or between one and an end of the template. -/
def Settings.between (s : Settings) (last next : Option Tag) (cs : List Char) : List Char :=
  let kept := last.elim cs fun t => s.behind t cs
  let dropped := cs.take (cs.length - kept.length)
  let fresh := last.isNone || dropped.any isLineEnd
  next.elim kept fun t => s.before fresh t kept

/-- The chunks without the white space that is dropped around tags. `last` is the tag in
front of them. -/
def Settings.trimmed (s : Settings) (last : Option Tag) : List Chunk → List Chunk
  | [] => []
  | .text cs :: more => withText (s.between last (headTag? more) cs) (s.trimmed none more)
  | .tag t :: more => .tag t :: s.trimmed (some t) more
  | .junk line :: more => .junk line :: s.trimmed none more

/-- The text without one line end at its end. -/
def dropTrailing (cs : List Char) : List Char :=
  let dropOne := fun (c : Char) (cs : List Char) =>
    if cs.getLast? == some c then cs.dropLast else cs
  if cs.getLast? == some '\n' then dropOne '\r' (dropOne '\n' cs) else cs

/-- The chunks of a template. -/
def chunks (s : Settings) (source : List Char) : List Chunk :=
  s.trimmed none (cut 1 (if s.keepTrailingNewline then source else dropTrailing source))

end Graft.Stub.Template
