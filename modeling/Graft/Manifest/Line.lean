-- One line of a manifest as tokens. A token keeps its spelling and its place
-- in the line, counted in bytes. Parentheses stand for themselves, a bare run
-- ends at white space, at a parenthesis, at a quote or at a comment, and a
-- string is read without its quotes.
import Graft.Manifest
import Graft.Text.Blank

namespace Graft.Manifest

/-- How a token is written. -/
inductive Spelling
  | paren | bare | quoted | raw
  deriving DecidableEq, Repr

/-- A token: how it is written, what it says, and the bytes that it takes. -/
structure Token where
  spelling : Spelling
  value : List Char
  start : Nat
  stop : Nat
  deriving DecidableEq, Repr

/-- A line: its tokens, and the text after the comment mark. -/
structure Line where
  tokens : List Token
  comment : Option (List Char)
  deriving DecidableEq, Repr

/-- The number of bytes that the characters take. -/
def byteCount : List Char → Nat
  | [] => 0
  | c :: cs => c.utf8Size + byteCount cs

/-- The rest of the line is a comment. -/
def opensComment : List Char → Bool
  | '/' :: '/' :: _ => true
  | _ => false

/-- A character that ends a bare run. -/
def endsBare (c : Char) : Bool :=
  Text.isBlank c || c == '(' || c == ')' || c == '"' || c == '\x60'

/-- A bare run and the rest of the line. -/
def bareRun : List Char → List Char × List Char
  | [] => ([], [])
  | c :: cs =>
    if endsBare c || opensComment (c :: cs) then ([], c :: cs)
    else
      let r := bareRun cs
      (c :: r.1, r.2)

/-- What a string says up to its closing quote: its text, the number of bytes read
with the quote, and the rest of the line. A backslash stands for the character
after it. -/
def quotedRun : List Char → Option (List Char × Nat × List Char)
  | [] => none
  | '"' :: cs => some ([], 1, cs)
  | '\\' :: [] => none
  | '\\' :: c :: cs => (quotedRun cs).map fun r => (c :: r.1, 1 + c.utf8Size + r.2.1, r.2.2)
  | c :: cs => (quotedRun cs).map fun r => (c :: r.1, c.utf8Size + r.2.1, r.2.2)

/-- What a raw string says up to its closing quote, and the rest of the line. -/
def rawRun : List Char → Option (List Char × List Char)
  | [] => none
  | c :: cs =>
    if c == '\x60' then some ([], cs)
    else (rawRun cs).map fun r => (c :: r.1, r.2)

theorem bareRun_append (cs : List Char) : (bareRun cs).1 ++ (bareRun cs).2 = cs := by
  induction cs with
  | nil => rfl
  | cons c cs ih => rw [bareRun]; split <;> simp [ih]

theorem length_bareRun_le (cs : List Char) : (bareRun cs).2.length ≤ cs.length := by
  have := congrArg List.length (bareRun_append cs)
  simp only [List.length_append] at this
  omega

theorem length_quotedRun_lt {cs value rest : List Char} {n : Nat}
    (h : quotedRun cs = some (value, n, rest)) : rest.length < cs.length := by
  fun_induction quotedRun cs generalizing value n rest with
  | case1 => cases h
  | case2 cs => cases h; simp
  | case3 => cases h
  | case4 c cs ih =>
    obtain ⟨⟨v, k, r⟩, hr, he⟩ := Option.map_eq_some_iff.1 h
    cases he
    have := ih hr
    simp only [List.length_cons]; omega
  | case5 c cs _ _ _ ih =>
    obtain ⟨⟨v, k, r⟩, hr, he⟩ := Option.map_eq_some_iff.1 h
    cases he
    have := ih hr
    simp only [List.length_cons]; omega

theorem length_rawRun_lt {cs value rest : List Char}
    (h : rawRun cs = some (value, rest)) : rest.length < cs.length := by
  induction cs generalizing value rest with
  | nil => cases h
  | cons c cs ih =>
    rw [rawRun] at h
    split at h
    · cases h; simp
    · obtain ⟨⟨v, r⟩, hr, he⟩ := Option.map_eq_some_iff.1 h
      cases he
      have := ih hr
      simp only [List.length_cons]; omega

/-- The line with one more token in front. -/
def Line.push (t : Token) (l : Line) : Line := { l with tokens := t :: l.tokens }

/-- Reads the rest of a line, whose first character stands at byte `pos`. -/
def lexFrom (pos : Nat) (cs : List Char) : Except LineFault Line :=
  match cs with
  | [] => .ok ⟨[], none⟩
  | c :: rest =>
    if Text.isBlank c then lexFrom (pos + c.utf8Size) rest
    else if opensComment (c :: rest) then .ok ⟨[], some (rest.drop 1)⟩
    else if c == '(' || c == ')' then
      (lexFrom (pos + 1) rest).map (Line.push ⟨.paren, [c], pos, pos + 1⟩)
    else if c == '"' then
      match h : quotedRun rest with
      | none => .error .unterminatedQuoted
      | some (value, n, rest') =>
        have := length_quotedRun_lt h
        let stop := pos + 1 + n
        (lexFrom stop rest').map (Line.push ⟨.quoted, value, pos, stop⟩)
    else if c == '\x60' then
      match h : rawRun rest with
      | none => .error .unterminatedRaw
      | some (value, rest') =>
        have := length_rawRun_lt h
        let stop := pos + 1 + byteCount value + 1
        (lexFrom stop rest').map (Line.push ⟨.raw, value, pos, stop⟩)
    else
      let value := c :: (bareRun rest).1
      have := length_bareRun_le rest
      let stop := pos + byteCount value
      (lexFrom stop (bareRun rest).2).map (Line.push ⟨.bare, value, pos, stop⟩)
termination_by cs.length

/-- The tokens and the comment of a line. -/
def lex (line : List Char) : Except LineFault Line := lexFrom 0 line

end Graft.Manifest
