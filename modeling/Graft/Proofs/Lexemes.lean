-- Texts that are cut into the tokens that they are made of. A lexeme is a
-- token as it is written, with the white space before it. Whether a lexeme is
-- cut off whole is up to its class and the one character behind it, so a text
-- that is written line by line is cut line by line.
import Graft.Proofs.Words
import Mathlib.Data.List.Find

namespace Graft.Go

/-! ## Lexemes -/

/-- A token as it is written: its class, the white space before it and its text. -/
structure Lexeme where
  gap : List Char
  sort : Class
  text : List Char
  deriving DecidableEq, Repr

namespace Lexeme

/-- A word as it is written. -/
def word (gap text : List Char) : Lexeme := ⟨gap, wordClass text, text⟩

/-- A string as it is written around these characters. -/
def string (gap inside : List Char) : Lexeme := ⟨gap, .string, '"' :: inside ++ ['"']⟩

end Lexeme

def Token.lexeme (t : Token) : Lexeme := ⟨t.before, t.sort, t.text⟩

/-- The text that is made of lexemes. -/
def spelled (ls : List Lexeme) : List Char := ls.flatMap fun l => l.gap ++ l.text

@[simp] theorem spelled_nil : spelled [] = [] := rfl

@[simp] theorem spelled_cons (l : Lexeme) (ls : List Lexeme) :
    spelled (l :: ls) = l.gap ++ l.text ++ spelled ls := rfl

@[simp] theorem spelled_append (ls ms : List Lexeme) :
    spelled (ls ++ ms) = spelled ls ++ spelled ms := List.flatMap_append

/-! ## One token -/

section Scan

variable {rest : List Char}

theorem commentLength_of_ne {c : Char} (h : c ≠ '/') : commentLength (c :: rest) = 0 := by
  unfold commentLength
  split
  · next heq => exact absurd (List.cons.inj heq).1 h
  · next heq => exact absurd (List.cons.inj heq).1 h
  · rfl

theorem ne_slash_of_isWordStart {c : Char} (h : Text.isWordStart c = true) : c ≠ '/' := by
  rintro rfl
  exact absurd h (by decide)

theorem takeWhile_append_of_head {p : Char → Bool} {cs : List Char} (hcs : ∀ c ∈ cs, p c = true)
    (hr : ∀ c ∈ rest.head?, p c = false) : (cs ++ rest).takeWhile p = cs := by
  rw [List.takeWhile_append_of_pos hcs]
  cases rest with
  | nil => simp
  | cons d ds => simp [hr d rfl]

theorem scan_word {word : List Char} (hw : IsWord word)
    (hr : ∀ c ∈ rest.head?, Text.isWordPart c = false) :
    scan (word ++ rest) = (wordClass word, word.length) := by
  obtain ⟨c, cs, rfl, hc, hcs⟩ := hw
  have hslash := ne_slash_of_isWordStart hc
  rw [List.cons_append]
  unfold scan
  dsimp only
  rw [commentLength_of_ne hslash, if_neg (by omega), if_pos hc, takeWhile_append_of_head hcs hr,
    Nat.add_comm, ← List.length_cons, ← List.cons_append, List.take_left]

/-- What a string can hold without an escape. -/
def isPlain (c : Char) : Bool := c != '"' && c != '\\' && c != '\n' && c != null

theorem stringBody_plain {inside : List Char} (hp : ∀ c ∈ inside, isPlain c = true) {fuel : Nat}
    (hf : inside.length < fuel) :
    stringBody fuel (inside ++ '"' :: rest) = some (inside.length + 1) := by
  induction inside generalizing fuel with
  | nil =>
    obtain ⟨fuel, rfl⟩ := Nat.exists_eq_add_of_lt hf
    simp [stringBody]
  | cons c cs ih =>
    obtain ⟨fuel, rfl⟩ := Nat.exists_eq_add_of_lt hf
    have hc := hp c List.mem_cons_self
    simp only [isPlain, Bool.and_eq_true, bne_iff_ne] at hc
    obtain ⟨⟨⟨hquote, hslash⟩, hline⟩, hnull⟩ := hc
    have hfuel : cs.length < cs.length + 1 + fuel := by omega
    have hrest := ih (fun d hd => hp d (List.mem_cons_of_mem c hd)) hfuel
    simp only [List.cons_append, List.length_cons, stringBody, beq_iff_eq, hquote, hslash, hline,
      hnull, if_false, Bool.or_eq_true, or_self, hrest, Option.map_some]

theorem scan_string {inside : List Char} (hp : ∀ c ∈ inside, isPlain c = true) :
    scan ('"' :: inside ++ ['"'] ++ rest) = (.string, inside.length + 2) := by
  have hfuel : inside.length < (inside ++ '"' :: rest).length + 1 := by
    rw [List.length_append]
    omega
  have hbody : stringBody _ (inside ++ '"' :: rest) = _ := stringBody_plain hp hfuel
  rw [List.append_assoc, List.cons_append, List.singleton_append]
  unfold scan
  dsimp only
  rw [commentLength_of_ne (by decide), if_neg (by omega), if_neg (by decide),
    if_pos (by decide), hbody]
  dsimp only
  rw [Nat.add_comm]

theorem rawBody_plain {inside : List Char}
    (hp : ∀ c ∈ inside, c ≠ '\x60' ∧ c ≠ null) :
    rawBody (inside ++ '\x60' :: rest) = some (inside.length + 1) := by
  induction inside with
  | nil => simp [rawBody]
  | cons c cs ih =>
    obtain ⟨hquote, hnull⟩ := hp c List.mem_cons_self
    simp only [List.cons_append, List.length_cons, rawBody, beq_iff_eq, hquote, hnull, if_false,
      ih fun d hd => hp d (List.mem_cons_of_mem c hd), Option.map_some]

theorem scan_rawString {inside : List Char} (hp : ∀ c ∈ inside, c ≠ '\x60' ∧ c ≠ null) :
    scan ('\x60' :: inside ++ ['\x60'] ++ rest) = (.rawString, inside.length + 2) := by
  rw [List.append_assoc, List.cons_append, List.singleton_append]
  unfold scan
  dsimp only
  rw [commentLength_of_ne (by decide), if_neg (by omega), if_neg (by decide), if_neg (by decide),
    if_pos (by decide), rawBody_plain hp]
  dsimp only
  rw [Nat.add_comm]

theorem scan_comment {inside : List Char} (hp : ∀ c ∈ inside, c ≠ '\n' ∧ c ≠ null) :
    scan ('/' :: '/' :: inside ++ '\n' :: rest) = (.comment, inside.length + 2) := by
  have hlength : commentLength ('/' :: '/' :: inside ++ '\n' :: rest) = inside.length + 2 := by
    rw [List.cons_append, List.cons_append]
    have hends : ((inside ++ '\n' :: rest).takeWhile fun c => c != '\n' && c != null) = inside :=
      takeWhile_append_of_head (fun c hc => by simp [hp c hc]) (by simp)
    change 2 + ((inside ++ '\n' :: rest).takeWhile fun c => c != '\n' && c != null).length = _
    rw [hends, Nat.add_comm]
  rw [List.cons_append, List.cons_append] at hlength ⊢
  unfold scan
  dsimp only
  rw [hlength, if_pos (by omega)]

/-- What opens with neither a digit nor a point before a digit is no number. -/
theorem number?_eq_none {c d : Char} (hc : c.isDigit = false)
    (hd : c = '.' → d.isDigit = false) : number? (c :: d :: rest) = none := by
  have hzero : c ≠ '0' := by
    rintro rfl
    exact absurd hc (by decide)
  have hint : intLength (c :: d :: rest) = 0 := by
    unfold intLength
    split
    · next heq => exact absurd (List.cons.inj heq).1 hzero
    · next heq => exact absurd (List.cons.inj heq).1 hzero
    · next heq =>
      rw [← (List.cons.inj heq).1, hc]
      rfl
    · rfl
  have hdigits : digitGroup Char.isDigit (c :: d :: rest) = 0 := by simp [digitGroup, hc]
  have hdecimal : decimalFloat (c :: d :: rest) = 0 := by
    unfold decimalFloat
    split
    · next heq =>
      obtain ⟨hpoint, hmore⟩ := List.cons.inj heq
      simp [← hmore, digitGroup, hd hpoint]
    · simp [hdigits]
  have hfloat : floatLength (c :: d :: rest) = 0 := by
    unfold floatLength
    dsimp only
    rw [hdecimal]
    split
    · next heq => exact absurd (List.cons.inj heq).1 hzero
    · rfl
  unfold number?
  simp [hint, hfloat, hdigits]

/-- The character opens a mark and nothing else. -/
def opensMark (c : Char) : Bool :=
  !Text.isWordStart c && !c.isDigit && !(['"', '\x60', '\'', '/'].contains c)

/-- No mark goes on from the text with this character. -/
def endsMark (text : List Char) (next : Char) : Bool :=
  markTable.all fun e => !(text ++ [next]).isPrefixOf e.1.toList

theorem mark?_append {text : List Char} {next : Char} (h : endsMark text next = true) :
    mark? (text ++ next :: rest) = mark? text := by
  unfold mark?
  congr 1
  refine List.find?_congr fun e he => ?_
  have hno : ¬ text ++ [next] <+: e.1.toList := by
    have hall := List.all_eq_true.mp h e he
    rwa [Bool.not_eq_true', ← Bool.not_eq_true, List.isPrefixOf_iff_prefix] at hall
  rw [Bool.eq_iff_iff, List.isPrefixOf_iff_prefix, List.isPrefixOf_iff_prefix]
  constructor
  · intro hp
    have hlonger : text ++ [next] <+: text ++ next :: rest := ⟨rest, by simp⟩
    rcases List.prefix_or_prefix_of_prefix hp hlonger with hp | hp
    · rcases List.prefix_concat_iff.mp hp with heq | hp
      · exact absurd (heq ▸ List.prefix_rfl) hno
      · exact hp
    · exact absurd hp hno
  · exact fun hp => hp.trans (List.prefix_append _ _)

theorem scan_mark {c : Char} {cs : List Char} {m : Mark} {next : Char}
    (hc : opensMark c = true) (hd : c = '.' → ((cs ++ [next]).headD next).isDigit = false)
    (hm : mark? (c :: cs) = some (m, cs.length + 1)) (hn : endsMark (c :: cs) next = true) :
    scan (c :: cs ++ next :: rest) = (.mark m, cs.length + 1) := by
  simp only [opensMark, Bool.and_eq_true, Bool.not_eq_true', List.contains_eq_mem,
    List.mem_cons, List.not_mem_nil, or_false, decide_eq_false_iff_not, not_or] at hc
  obtain ⟨⟨hword, hdigit⟩, hstring, hraw, hrune, hslash⟩ := hc
  have hnumber : number? (c :: cs ++ next :: rest) = none := by
    cases cs with
    | nil => exact number?_eq_none hdigit hd
    | cons d ds => exact number?_eq_none hdigit hd
  have hmark : mark? (c :: cs ++ next :: rest) = mark? (c :: cs) := mark?_append hn
  rw [List.cons_append] at hnumber hmark ⊢
  unfold scan
  dsimp only
  rw [commentLength_of_ne hslash, if_neg (by omega), if_neg (by simp [hword]),
    if_neg (by simpa using hstring), if_neg (by simpa using hraw), if_neg (by simpa using hrune),
    hnumber]
  dsimp only
  rw [hmark, hm]

/-- The numbers in the stubs. -/
def smallNumbers : List (List Char) := [['0'], ['2'], ['0', '6', '0', '0']]

theorem scan_smallNumber {digits : List Char} (h : digits ∈ smallNumbers) :
    scan (digits ++ ')' :: rest) = (.int, digits.length) := by
  simp only [smallNumbers, List.mem_cons, List.not_mem_nil, or_false] at h
  rcases h with rfl | rfl | rfl <;> rfl

end Scan

/-! ## Where a lexeme ends -/

namespace Lexeme

/-- The lexeme is cut off where this character stands behind it, whatever follows that. -/
def endsBefore (next : Char) (l : Lexeme) : Bool :=
  match l.sort, l.text with
  | .string, '"' :: cs => cs.getLast? == some '"' && cs.dropLast.all isPlain
  | .rawString, '\x60' :: cs =>
    cs.getLast? == some '\x60' && cs.dropLast.all fun c => c != '\x60' && c != null
  | .comment, '/' :: '/' :: cs => next == '\n' && cs.all fun c => c != '\n' && c != null
  | .int, cs => next == ')' && smallNumbers.contains cs
  | .mark m, c :: cs =>
    opensMark c && (c != '.' || !((cs ++ [next]).headD next).isDigit) &&
      mark? (c :: cs) == some (m, cs.length + 1) && endsMark (c :: cs) next
  | sort, c :: cs =>
    Text.isWordStart c && cs.all Text.isWordPart && wordClass (c :: cs) == sort &&
      !Text.isWordPart next
  | _, [] => false

theorem eq_append_of_getLast? {α : Type} {xs : List α} {x : α} (h : xs.getLast? = some x) :
    xs = xs.dropLast ++ [x] := by
  obtain ⟨ys, rfl⟩ := List.getLast?_eq_some_iff.mp h
  simp

theorem scan_of_endsBefore {next : Char} {l : Lexeme} (h : l.endsBefore next = true)
    (rest : List Char) : scan (l.text ++ next :: rest) = (l.sort, l.text.length) := by
  obtain ⟨gap, sort, text⟩ := l
  dsimp only
  unfold endsBefore at h
  dsimp only at h
  split at h
  · next cs =>
    simp only [Bool.and_eq_true, beq_iff_eq, List.all_eq_true] at h
    obtain ⟨hlast, hplain⟩ := h
    rw [eq_append_of_getLast? hlast]
    have hscan : scan ('"' :: cs.dropLast ++ ['"'] ++ next :: rest) = _ := scan_string hplain
    simpa using hscan
  · next cs =>
    simp only [Bool.and_eq_true, beq_iff_eq, bne_iff_ne, List.all_eq_true] at h
    obtain ⟨hlast, hplain⟩ := h
    rw [eq_append_of_getLast? hlast]
    have hscan : scan ('\x60' :: cs.dropLast ++ ['\x60'] ++ next :: rest) = _ :=
      scan_rawString hplain
    simpa using hscan
  · next cs =>
    simp only [Bool.and_eq_true, beq_iff_eq, bne_iff_ne, List.all_eq_true] at h
    obtain ⟨rfl, hplain⟩ := h
    exact scan_comment hplain
  · next cs =>
    simp only [Bool.and_eq_true, beq_iff_eq, List.contains_eq_mem, decide_eq_true_eq] at h
    obtain ⟨rfl, hsmall⟩ := h
    exact scan_smallNumber hsmall
  · next m c cs =>
    simp only [Bool.and_eq_true, Bool.or_eq_true, Bool.not_eq_true', bne_iff_ne, beq_iff_eq] at h
    obtain ⟨⟨⟨hopens, hpoint⟩, hmark⟩, hends⟩ := h
    exact scan_mark hopens (fun hc => hpoint.resolve_left fun hne => hne hc) hmark hends
  · next c cs _ _ _ _ _ =>
    simp only [Bool.and_eq_true, Bool.not_eq_true', beq_iff_eq, List.all_eq_true] at h
    obtain ⟨⟨⟨hstart, hparts⟩, rfl⟩, hnext⟩ := h
    refine scan_word ⟨c, cs, rfl, hstart, hparts⟩ ?_
    intro d hd
    cases hd
    exact hnext
  · cases h

/-- The lexeme opens behind its gap, and the gap is white space. -/
def isProper (l : Lexeme) : Bool :=
  l.gap.all isGap && (l.text.head?.any fun c => !isGap c)

end Lexeme

theorem tokensFrom_gap {gap : List Char} (h : ∀ c ∈ gap, isGap c = true) (place : Place)
    (before rest : List Char) : ∃ place',
      tokensFrom place before (gap ++ rest) = tokensFrom place' (gap.reverse ++ before) rest := by
  induction gap generalizing place before with
  | nil => exact ⟨place, rfl⟩
  | cons c cs ih =>
    obtain ⟨place', hrest⟩ := ih (fun d hd => h d (List.mem_cons_of_mem c hd)) (place.after c)
      (c :: before)
    refine ⟨place', ?_⟩
    rw [List.cons_append, tokensFrom, if_pos (h c List.mem_cons_self), hrest, List.reverse_cons,
      List.append_assoc]
    rfl

/-- The lexeme is the first token, and its gap goes on from the white space before it. -/
theorem tokensFrom_lexeme {l : Lexeme} {next : Char} (hl : l.isProper = true)
    (hn : l.endsBefore next = true) (place : Place) (before rest : List Char) :
    ∃ t place', t.lexeme = { l with gap := before.reverse ++ l.gap } ∧
      tokensFrom place before (l.gap ++ l.text ++ next :: rest) =
        t :: tokensFrom place' [] (next :: rest) := by
  have hscan := Lexeme.scan_of_endsBefore hn rest
  simp only [Lexeme.isProper, Bool.and_eq_true, List.all_eq_true] at hl
  obtain ⟨hgap, hopens⟩ := hl
  obtain ⟨place', hmoved⟩ := tokensFrom_gap hgap place before (l.text ++ next :: rest)
  cases htext : l.text with
  | nil => simp [htext] at hopens
  | cons c cs =>
    rw [htext] at hscan hmoved hopens
    simp only [List.head?_cons, Option.any_some, Bool.not_eq_true'] at hopens
    rw [List.append_assoc, hmoved, List.cons_append, tokensFrom, hopens, if_neg Bool.false_ne_true]
    rw [List.cons_append] at hscan
    dsimp only
    rw [hscan]
    dsimp only
    rw [List.length_cons, Nat.add_sub_cancel, List.take_left, List.drop_left]
    refine ⟨_, _, ?_, rfl⟩
    simp [Token.lexeme]

/-! ## Lines -/

/-- Each lexeme of the line is cut off by what stands behind it, and the last one by the end
of the line. -/
def areCut : List Lexeme → Bool
  | [] => true
  | l :: ls => l.isProper && l.endsBefore ((spelled ls).headD '\n') && areCut ls

/-- The text of lines of lexemes. -/
def paged (lines : List (List Lexeme)) : List Char := lines.flatMap fun ls => spelled ls ++ ['\n']

/-- The lexemes of lines. The line ends belong to the gaps, and `gap` stands before the first
line. -/
def joined (gap : List Char) : List (List Lexeme) → List Lexeme
  | [] => [⟨gap, .ending, []⟩]
  | [] :: lines => joined (gap ++ ['\n']) lines
  | (l :: ls) :: lines => { l with gap := gap ++ l.gap } :: (ls ++ joined ['\n'] lines)

/-- What stands in front of the end of a line is cut into its lexemes. -/
theorem tokensFrom_line {ls : List Lexeme} (h : areCut ls = true) (place : Place)
    (rest : List Char) : ∃ ts place', ts.map Token.lexeme = ls ∧
      tokensFrom place [] (spelled ls ++ '\n' :: rest) = ts ++ tokensFrom place' ['\n'] rest := by
  induction ls generalizing place with
  | nil =>
    refine ⟨[], place.after '\n', rfl, ?_⟩
    rw [spelled_nil, List.nil_append, tokensFrom, if_pos (by decide)]
    rfl
  | cons l ls ih =>
    simp only [areCut, Bool.and_eq_true] at h
    obtain ⟨⟨hl, hn⟩, hls⟩ := h
    have hnext : ∃ more, spelled ls ++ '\n' :: rest = (spelled ls).headD '\n' :: more := by
      cases spelled ls with
      | nil => exact ⟨rest, rfl⟩
      | cons c cs => exact ⟨cs ++ '\n' :: rest, rfl⟩
    obtain ⟨more, hmore⟩ := hnext
    obtain ⟨t, place₁, ht, hfirst⟩ := tokensFrom_lexeme hl hn place [] more
    obtain ⟨ts, place₂, hts, hrest⟩ := ih hls place₁
    refine ⟨t :: ts, place₂, ?_, ?_⟩
    · rw [List.map_cons, ht, hts]
      rfl
    · rw [spelled_cons, List.append_assoc, hmore, hfirst, ← hmore, hrest, List.cons_append]

/-- The tokens of lines are their lexemes. -/
theorem tokensFrom_paged {lines : List (List Lexeme)} (h : ∀ ls ∈ lines, areCut ls = true)
    (place : Place) (gap : List Char) :
    (tokensFrom place gap.reverse (paged lines)).map Token.lexeme = joined gap lines := by
  induction lines generalizing place gap with
  | nil => simp [paged, tokensFrom, joined, Token.lexeme]
  | cons ls lines ih =>
    have hlines := fun ms hm => h ms (List.mem_cons_of_mem ls hm)
    have hls := h ls List.mem_cons_self
    cases ls with
    | nil =>
      have hrest := ih hlines (place.after '\n') (gap ++ ['\n'])
      rw [List.reverse_append, List.reverse_singleton, List.singleton_append] at hrest
      rw [joined, ← hrest, paged, List.flatMap_cons, spelled_nil, List.nil_append,
        List.singleton_append, tokensFrom, if_pos (by decide)]
      rfl
    | cons l ls =>
      simp only [areCut, Bool.and_eq_true] at hls
      obtain ⟨⟨hl, hn⟩, hls⟩ := hls
      have hnext : ∃ more, spelled ls ++ '\n' :: paged lines = (spelled ls).headD '\n' :: more := by
        cases spelled ls with
        | nil => exact ⟨_, rfl⟩
        | cons c cs => exact ⟨_, rfl⟩
      obtain ⟨more, hmore⟩ := hnext
      obtain ⟨t, place₁, ht, hfirst⟩ := tokensFrom_lexeme hl hn place gap.reverse more
      obtain ⟨ts, place₂, hts, hrest⟩ := tokensFrom_line hls place₁ (paged lines)
      have hpaged : paged ((l :: ls) :: lines) =
          l.gap ++ l.text ++ (spelled ls ++ '\n' :: paged lines) := by
        simp [paged]
      rw [hpaged, hmore, hfirst, ← hmore, hrest, List.map_cons, List.map_append, ht, hts,
        List.reverse_reverse, joined, ← ih hlines place₂ ['\n']]
      rfl

/-! ## What the grammar sees -/

/-- What can be seen of an item: its class, whether a line ended before it, and its text. -/
structure Glyph where
  sort : Class
  opensLine : Bool
  text : List Char
  deriving DecidableEq, Repr

def Item.glyph (i : Item) : Glyph := ⟨i.token.sort, i.opensLine, i.token.text⟩

/-- What can be seen of lexemes; `ended` says whether a line ended before the first one. -/
def glyphsFrom (ended : Bool) : List Lexeme → List Glyph
  | [] => []
  | l :: ls =>
    let opens := ended || l.gap.contains '\n'
    if l.sort = .comment then glyphsFrom opens ls
    else ⟨l.sort, opens, l.text⟩ :: glyphsFrom false ls

theorem glyphs_itemsFrom (comments ts : List Token) (ended : Bool) :
    (itemsFrom comments ended ts).map Item.glyph = glyphsFrom ended (ts.map Token.lexeme) := by
  induction ts generalizing comments ended with
  | nil => rfl
  | cons t ts ih =>
    rw [List.map_cons]
    unfold itemsFrom glyphsFrom
    dsimp only
    by_cases hc : t.sort = .comment
    · rw [if_pos hc, ih, if_pos (show t.lexeme.sort = .comment from hc)]
      rfl
    · rw [if_neg hc, List.map_cons, ih, if_neg (show ¬ t.lexeme.sort = .comment from hc)]
      rfl

/-- What can be seen of a line. -/
def lineGlyphs (ls : List Lexeme) : List Glyph := glyphsFrom true ls

/-- The end of a text behind the end of a line. -/
def endGlyph : Glyph := ⟨.ending, true, []⟩

theorem glyphsFrom_append {ms : List Lexeme} {gs : List Glyph}
    (h : ∀ ended, glyphsFrom ended ms = gs) (ls : List Lexeme) (ended : Bool) :
    glyphsFrom ended (ls ++ ms) = glyphsFrom ended ls ++ gs := by
  induction ls generalizing ended with
  | nil => exact h ended
  | cons l ls ih =>
    rw [List.cons_append]
    unfold glyphsFrom
    dsimp only
    split
    · exact ih _
    · rw [ih, List.cons_append]

/-- Behind the end of a line, each line is seen as it is by itself. -/
theorem glyphsFrom_joined (lines : List (List Lexeme)) {gap : List Char} (h : '\n' ∈ gap)
    (ended : Bool) :
    glyphsFrom ended (joined gap lines) = lines.flatMap lineGlyphs ++ [endGlyph] := by
  induction lines generalizing gap ended with
  | nil => simp [joined, glyphsFrom, endGlyph, h]
  | cons ls lines ih =>
    cases ls with
    | nil => simpa [joined, lineGlyphs, glyphsFrom] using ih (by simp) ended
    | cons l ls =>
      have hline : '\n' ∈ ['\n'] := List.mem_singleton_self _
      have hrest := glyphsFrom_append (ih hline) ls
      unfold joined glyphsFrom
      simp only [List.contains_eq_mem, List.mem_append, h, true_or, decide_true, Bool.or_true,
        List.flatMap_cons, lineGlyphs, List.append_assoc]
      rw [glyphsFrom]
      simp only [Bool.true_or]
      split
      · exact hrest true
      · rw [hrest false]
        rfl

/-- A comment up to the end of its line. -/
def Lexeme.remark (inside : List Char) : Lexeme := ⟨[], .comment, '/' :: '/' :: inside⟩

/-- The items of a text whose first line is a comment are seen line by line. -/
theorem glyphs_items {inside : List Char} {lines : List (List Lexeme)}
    (h : ∀ ls ∈ [Lexeme.remark inside] :: lines, areCut ls = true) :
    (items (tokens (paged ([Lexeme.remark inside] :: lines)))).map Item.glyph =
      lines.flatMap lineGlyphs ++ [endGlyph] := by
  have htokens : tokens (paged ([Lexeme.remark inside] :: lines)) =
      tokensFrom ⟨0, 0⟩ [] (paged ([Lexeme.remark inside] :: lines)) := rfl
  unfold items
  rw [glyphs_itemsFrom, htokens, ← List.reverse_nil, tokensFrom_paged h, joined, List.nil_append,
    glyphsFrom]
  exact glyphsFrom_joined lines (by simp) _

end Graft.Go
