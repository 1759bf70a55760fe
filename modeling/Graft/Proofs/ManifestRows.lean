-- The rows of a manifest, as anyone may write them: words in any of their
-- spellings, white space between them, and perhaps a comment at the end.
-- However a row is written, it reads as its words and its comment.
import Graft.Manifest.Parser
import Graft.Proofs.Places

namespace Graft

/-! ## Lines -/

namespace Text

theorem splitOn_cons_of_not_mem {α : Type} [BEq α] [LawfulBEq α] {sep : α} {xs : List α}
    (h : sep ∉ xs) (ys : List α) : splitOn sep (xs ++ sep :: ys) = xs :: splitOn sep ys := by
  rw [splitOn_append_cons, splitOn_of_not_mem h]
  rfl

/-- A line that ends, and the lines of what follows it. -/
theorem lines_append {line : List Char} (h : '\n' ∉ line) (text : List Char) :
    lines (line ++ '\n' :: text) = dropReturn line :: lines text := by
  unfold lines
  rw [splitOn_cons_of_not_mem h]
  cases hp : splitOn '\n' text with
  | nil => exact absurd hp (splitOn_ne_nil '\n' text)
  | cons piece pieces => rfl

/-- A last line without an end; an empty one does not count. -/
theorem lines_of_not_mem {line : List Char} (h : '\n' ∉ line) :
    lines line = if line.isEmpty then [] else [line] := by
  unfold lines
  rw [splitOn_of_not_mem h]
  rfl

theorem dropReturn_append_return (line : List Char) : dropReturn (line ++ ['\r']) = line := by
  unfold dropReturn
  rw [if_pos List.getLast?_concat, List.dropLast_concat]

/-- Only the end of a text decides about the carriage return at its end. -/
theorem dropReturn_append {front : List Char} {c : Char} (hf : front.getLast? = some c)
    (hc : c ≠ '\r') (cs : List Char) : dropReturn (front ++ cs) = front ++ dropReturn cs := by
  unfold dropReturn
  cases cs with
  | nil => simp [hf, hc]
  | cons d ds =>
    rw [List.getLast?_append, List.getLast?_cons, Option.some_or, ← List.getLast?_cons]
    split
    · rw [List.dropLast_append_of_ne_nil (List.cons_ne_nil d ds)]
    · rfl

theorem mem_of_mem_dropReturn {line : List Char} {c : Char} (h : c ∈ dropReturn line) :
    c ∈ line := by
  unfold dropReturn at h
  split at h
  · exact List.dropLast_subset line h
  · exact h

theorem trimBlank_append_return (cs : List Char) : trimBlank (cs ++ ['\r']) = trimBlank cs := by
  unfold trimBlank
  rw [List.dropWhile_append]
  by_cases h : (cs.dropWhile isBlank).isEmpty
  · rw [if_pos h, List.isEmpty_iff.1 h]
    rfl
  · rw [if_neg h, List.reverse_append]
    rfl

/-- A carriage return at the end is white space. -/
theorem trimBlank_dropReturn (cs : List Char) : trimBlank (dropReturn cs) = trimBlank cs := by
  unfold dropReturn
  split
  · rename_i h
    obtain ⟨front, rfl⟩ := List.getLast?_eq_some_iff.1 h
    rw [List.dropLast_concat, trimBlank_append_return]
  · rfl

end Text

namespace Manifest

/-! ## Words -/

/-- The value can be spelled in this way. A parenthesis stands for itself, nothing in a bare
word may end it, and a raw string cannot hold its own quote. -/
def Spelling.Allows : Spelling → List Char → Prop
  | .paren, value => value = ['('] ∨ value = [')']
  | .bare, value => value ≠ [] ∧ (∀ c ∈ value, endsBare c = false) ∧ ¬ ['/', '/'] <:+: value
  | .quoted, _ => True
  | .raw, value => '\x60' ∉ value

/-- A word as it is spelled. -/
structure Word where
  spelling : Spelling
  value : List Char
  allowed : spelling.Allows value
  unbroken : '\n' ∉ value

/-- The value inside quotes: a quote or a backslash gets a backslash in front. -/
def escaped : List Char → List Char
  | [] => []
  | c :: cs => if c = '"' ∨ c = '\\' then '\\' :: c :: escaped cs else c :: escaped cs

def Word.text (w : Word) : List Char :=
  match w.spelling with
  | .paren => w.value
  | .bare => w.value
  | .quoted => '"' :: (escaped w.value ++ ['"'])
  | .raw => '\x60' :: (w.value ++ ['\x60'])

/-! ## Rows -/

/-- White space inside a row. -/
structure Space where
  chars : List Char
  blank : ∀ c ∈ chars, Text.isBlank c = true
  unbroken : '\n' ∉ chars

/-- What stands behind the mark of a comment. -/
structure Comment where
  chars : List Char
  unbroken : '\n' ∉ chars

/-- A row: words with white space in front of each, and the end of the row. -/
inductive Row
  | ending (space : Space) (comment : Option Comment)
  | word (space : Space) (w : Word) (rest : Row)

namespace Row

def text : Row → List Char
  | .ending space none => space.chars
  | .ending space (some comment) => space.chars ++ '/' :: '/' :: comment.chars
  | .word space w rest => space.chars ++ (w.text ++ rest.text)

/-- What the words say. -/
def words : Row → List String
  | .ending _ _ => []
  | .word _ w rest => String.ofList w.value :: rest.words

def comment : Row → Option (List Char)
  | .ending _ comment => comment.map Comment.chars
  | .word _ _ rest => rest.comment

/-- The word does not run into what follows it: a bare word goes on into another one, and a
slash at its end goes on into the mark of a comment. -/
def ClearOf (w : Word) : Row → Prop
  | .ending _ none => True
  | .ending space (some _) =>
    space.chars = [] → w.spelling = .bare → w.value.getLast? ≠ some '/'
  | .word space v _ => space.chars = [] → w.spelling = .bare → v.spelling ≠ .bare

instance (w : Word) : (r : Row) → Decidable (r.ClearOf w)
  | .ending _ none => inferInstanceAs (Decidable True)
  | .ending space (some _) => inferInstanceAs
      (Decidable (space.chars = [] → w.spelling = .bare → w.value.getLast? ≠ some '/'))
  | .word space v _ => inferInstanceAs
      (Decidable (space.chars = [] → w.spelling = .bare → v.spelling ≠ .bare))

/-- White space keeps the words and the comment apart where it must. -/
def IsApart : Row → Prop
  | .ending _ _ => True
  | .word _ w rest => rest.ClearOf w ∧ rest.IsApart

instance decidableIsApart : (r : Row) → Decidable r.IsApart
  | .ending _ _ => inferInstanceAs (Decidable True)
  | .word _ w rest =>
    have := decidableIsApart rest
    inferInstanceAs (Decidable (rest.ClearOf w ∧ rest.IsApart))

end Row

/-! ## How each spelling reads -/

theorem quotedRun_escaped (value rest : List Char) :
    ∃ n, quotedRun (escaped value ++ '"' :: rest) = some (value, n, rest) := by
  induction value with
  | nil => exact ⟨1, rfl⟩
  | cons c cs ih =>
    obtain ⟨n, hn⟩ := ih
    unfold escaped
    by_cases hc : c = '"' ∨ c = '\\'
    · rw [if_pos hc]
      exact ⟨1 + c.utf8Size + n, by simp [quotedRun, hn]⟩
    · rw [if_neg hc]
      have hquote : c ≠ '"' := fun h => hc (.inl h)
      have hslash : c ≠ '\\' := fun h => hc (.inr h)
      exact ⟨c.utf8Size + n, by simp [quotedRun, hslash, hn]⟩

theorem rawRun_append {value : List Char} (rest : List Char) (h : '\x60' ∉ value) :
    rawRun (value ++ '\x60' :: rest) = some (value, rest) := by
  induction value with
  | nil => rfl
  | cons c cs ih =>
    obtain ⟨hc, hcs⟩ := not_or.1 (mt List.mem_cons.2 h)
    simp [rawRun, Ne.symm hc, ih hcs]

/-- What ends a bare word: the end of the row, a character that ends every bare word, or the
mark of a comment unless the word itself ends in a slash. -/
def Stops (value rest : List Char) : Prop :=
  rest = [] ∨ (∃ c cs, rest = c :: cs ∧ endsBare c = true) ∨
    (opensComment rest = true ∧ value.getLast? ≠ some '/')

theorem Stops.tail {c : Char} {cs rest : List Char} (h : Stops (c :: cs) rest) :
    Stops cs rest := by
  rcases h with h | h | ⟨ho, hl⟩
  · exact .inl h
  · exact .inr (.inl h)
  · refine .inr (.inr ⟨ho, ?_⟩)
    cases cs with
    | nil => exact Option.some_ne_none _ |>.symm
    | cons d ds => rwa [List.getLast?_cons_cons] at hl

theorem bareRun_of_stops {value rest : List Char} (h : Stops value rest) :
    bareRun rest = ([], rest) := by
  rcases h with rfl | ⟨c, cs, rfl, hc⟩ | ⟨ho, -⟩
  · rfl
  · rw [bareRun, hc, Bool.true_or, if_pos rfl]
  · cases rest with
    | nil => rfl
    | cons c cs => rw [bareRun, ho, Bool.or_true, if_pos rfl]

theorem opensComment_cons {c : Char} {cs : List Char} :
    opensComment (c :: cs) = true ↔ c = '/' ∧ cs.head? = some '/' := by
  unfold opensComment
  cases cs with
  | nil => split <;> simp_all
  | cons d ds => split <;> simp_all

/-- A word without the mark of a comment in it does not get one from what ends it. -/
theorem opensComment_word {c : Char} {cs rest : List Char} (hslash : ¬ ['/', '/'] <:+: c :: cs)
    (h : Stops (c :: cs) rest) : opensComment (c :: (cs ++ rest)) = false := by
  refine Bool.eq_false_iff.2 fun ho => ?_
  obtain ⟨rfl, hhead⟩ := opensComment_cons.1 ho
  cases cs with
  | cons d ds =>
    obtain rfl : d = '/' := Option.some.inj hhead
    exact hslash ⟨[], ds, rfl⟩
  | nil =>
    rcases h with rfl | ⟨d, ds, rfl, hd⟩ | ⟨-, hl⟩
    · cases hhead
    · obtain rfl : d = '/' := Option.some.inj hhead
      cases hd
    · exact hl rfl

theorem bareRun_word {value rest : List Char} (hends : ∀ c ∈ value, endsBare c = false)
    (hslash : ¬ ['/', '/'] <:+: value) (h : Stops value rest) :
    bareRun (value ++ rest) = (value, rest) := by
  induction value with
  | nil => exact bareRun_of_stops h
  | cons c cs ih =>
    have hcs := ih (fun d hd => hends d (List.mem_cons_of_mem c hd))
      (fun hin => hslash (hin.trans (List.suffix_cons c cs).isInfix)) h.tail
    rw [List.cons_append, bareRun, hends c List.mem_cons_self, opensComment_word hslash h,
      Bool.or_false, if_neg Bool.false_ne_true, hcs]

/-- A value can be a bare word exactly where the reader takes all of it as one bare run. -/
theorem allows_bare_iff {value : List Char} :
    Spelling.bare.Allows value ↔ value ≠ [] ∧ bareRun value = (value, []) := by
  constructor
  · rintro ⟨hne, hends, hslash⟩
    have := bareRun_word hends hslash (.inl rfl)
    rw [List.append_nil] at this
    exact ⟨hne, this⟩
  · rintro ⟨hne, hrun⟩
    refine ⟨hne, ?_⟩
    clear hne
    induction value with
    | nil => exact ⟨by simp, by simp⟩
    | cons c cs ih =>
      rw [bareRun] at hrun
      split at hrun
      · cases (Prod.ext_iff.1 hrun).1
      · rename_i hgo
        obtain ⟨hc, hopen⟩ : endsBare c = false ∧ opensComment (c :: cs) = false := by
          simpa using hgo
        obtain ⟨hvalue, hrest⟩ := Prod.ext_iff.1 hrun
        obtain ⟨hends, hslash⟩ := ih (Prod.ext (List.cons_eq_cons.1 hvalue).2 hrest)
        refine ⟨List.forall_mem_cons.2 ⟨hc, hends⟩, fun hin => ?_⟩
        rcases List.infix_cons_iff.1 hin with ⟨ds, hds⟩ | hin
        · rw [← hds] at hopen
          cases hopen
        · exact hslash hin

/-! ## How the reader takes each spelling -/

theorem lexFrom_space {space : List Char} (h : ∀ c ∈ space, Text.isBlank c = true)
    (rest : List Char) (pos : Nat) :
    lexFrom pos (space ++ rest) = lexFrom (pos + byteCount space) rest := by
  induction space generalizing pos with
  | nil => rfl
  | cons c cs ih =>
    rw [List.cons_append, lexFrom.eq_def]
    dsimp only
    rw [if_pos (h c List.mem_cons_self), ih fun d hd => h d (List.mem_cons_of_mem c hd),
      byteCount, Nat.add_assoc]

theorem lexFrom_paren {c : Char} (h : c = '(' ∨ c = ')') (rest : List Char) (pos : Nat) :
    lexFrom pos (c :: rest) =
      (lexFrom (pos + 1) rest).map (Line.push ⟨.paren, [c], pos, pos + 1⟩) := by
  rcases h with rfl | rfl <;> (rw [lexFrom.eq_def]; rfl)

theorem lexFrom_quoted {value cs rest : List Char} {n : Nat}
    (h : quotedRun cs = some (value, n, rest)) (pos : Nat) :
    lexFrom pos ('"' :: cs) =
      (lexFrom (pos + 1 + n) rest).map (Line.push ⟨.quoted, value, pos, pos + 1 + n⟩) := by
  rw [lexFrom.eq_def]
  dsimp only
  rw [if_neg (by decide), if_neg (by simp [opensComment]), if_neg (by decide),
    if_pos (by decide)]
  split
  · simp_all
  · rename_i heq
    obtain ⟨rfl, rfl, rfl⟩ := by simpa using heq.symm.trans h
    rfl

theorem lexFrom_raw {value cs rest : List Char} (h : rawRun cs = some (value, rest))
    (pos : Nat) :
    lexFrom pos ('\x60' :: cs) =
      (lexFrom (pos + 1 + byteCount value + 1) rest).map
        (Line.push ⟨.raw, value, pos, pos + 1 + byteCount value + 1⟩) := by
  rw [lexFrom.eq_def]
  dsimp only
  rw [if_neg (by decide), if_neg (by simp [opensComment]), if_neg (by decide),
    if_neg (by decide), if_pos (by decide)]
  split
  · simp_all
  · rename_i heq
    obtain ⟨rfl, rfl⟩ := by simpa using heq.symm.trans h
    rfl

theorem lexFrom_bare {c : Char} {value cs rest : List Char}
    (h : bareRun (c :: cs) = (c :: value, rest)) (pos : Nat) :
    lexFrom pos (c :: cs) =
      (lexFrom (pos + byteCount (c :: value)) rest).map
        (Line.push ⟨.bare, c :: value, pos, pos + byteCount (c :: value)⟩) := by
  rw [bareRun] at h
  split at h
  · cases (Prod.ext_iff.1 h).1
  · rename_i hgo
    obtain ⟨hvalue, hrest⟩ := Prod.ext_iff.1 h
    obtain rfl := (List.cons_eq_cons.1 hvalue).2
    obtain rfl := hrest
    simp only [endsBare, Bool.or_eq_true, not_or, Bool.not_eq_true] at hgo
    obtain ⟨⟨⟨⟨⟨hblank, hopen⟩, hclose⟩, hquote⟩, hraw⟩, hcomment⟩ := hgo
    rw [lexFrom.eq_def]
    dsimp only
    rw [if_neg (by simp [hblank]), if_neg (by simp [hcomment]),
      if_neg (by simp [hopen, hclose]), if_neg (by simp [hquote]), if_neg (by simp [hraw])]

theorem lexFrom_comment (comment : List Char) (pos : Nat) :
    lexFrom pos ('/' :: '/' :: comment) = .ok ⟨[], some comment⟩ := by
  rw [lexFrom.eq_def]
  dsimp only
  rw [if_neg (by decide), if_pos (by rfl)]
  rfl

/-! ## How a row reads -/

/-- Every word but a bare one opens with a character that ends a bare word. -/
theorem Word.text_ends_bare (w : Word) (h : w.spelling ≠ .bare) (rest : List Char) :
    ∃ c cs, w.text ++ rest = c :: cs ∧ endsBare c = true := by
  have hallowed := w.allowed
  unfold text
  cases hs : w.spelling with
  | bare => exact absurd hs h
  | paren =>
    rw [hs] at hallowed
    rcases hallowed with hp | hp <;> exact ⟨_, rest, by rw [hp]; rfl, rfl⟩
  | quoted => exact ⟨_, _, rfl, rfl⟩
  | raw => exact ⟨_, _, rfl, rfl⟩

namespace Row

/-- What stands behind a bare word that is clear of it ends it. -/
theorem stops_text {w : Word} {r : Row} (h : r.ClearOf w) (hw : w.spelling = .bare) :
    Stops w.value r.text := by
  have hspace : ∀ (space : Space) (rest : List Char), space.chars ≠ [] →
      Stops w.value (space.chars ++ rest) := by
    intro space rest hne
    obtain ⟨c, cs, hc⟩ := List.exists_cons_of_ne_nil hne
    have hb : endsBare c = true := by simp [endsBare, space.blank c (by simp [hc])]
    exact .inr (.inl ⟨c, cs ++ rest, by rw [hc, List.cons_append], hb⟩)
  cases r with
  | ending space comment =>
    by_cases he : space.chars = []
    · cases comment with
      | none => exact .inl he
      | some comment => exact .inr (.inr ⟨by rw [text, he]; rfl, h he hw⟩)
    · cases comment with
      | none => simpa [text] using hspace space [] he
      | some comment => exact hspace space _ he
  | word space v rest =>
    by_cases he : space.chars = []
    · refine .inr (.inl ?_)
      rw [text, he, List.nil_append]
      exact v.text_ends_bare (h he hw) rest.text
    · exact hspace space _ he

/-- A word reads as its value, if it is clear of what follows. -/
theorem lexFrom_word (w : Word) {r : Row} (h : r.ClearOf w) (pos : Nat) :
    ∃ (t : Token) (next : Nat), t.value = w.value ∧
      lexFrom pos (w.text ++ r.text) = (lexFrom next r.text).map (Line.push t) := by
  have hallowed := w.allowed
  unfold Word.text
  cases hs : w.spelling with
  | paren =>
    rw [hs] at hallowed
    rcases hallowed with hp | hp
    · exact ⟨_, _, hp.symm, by rw [hp]; exact lexFrom_paren (.inl rfl) _ pos⟩
    · exact ⟨_, _, hp.symm, by rw [hp]; exact lexFrom_paren (.inr rfl) _ pos⟩
  | bare =>
    rw [hs] at hallowed
    obtain ⟨hne, hends, hslash⟩ := hallowed
    obtain ⟨c, cs, hc⟩ := List.exists_cons_of_ne_nil hne
    have hrun := bareRun_word hends hslash (stops_text h hs)
    rw [hc] at hrun
    exact ⟨_, _, hc.symm, by rw [hc]; exact lexFrom_bare hrun pos⟩
  | quoted =>
    obtain ⟨n, hn⟩ := quotedRun_escaped w.value r.text
    exact ⟨_, _, rfl, by simpa using lexFrom_quoted hn pos⟩
  | raw =>
    rw [hs] at hallowed
    exact ⟨_, _, rfl, by simpa using lexFrom_raw (rawRun_append r.text hallowed) pos⟩

/-- A row reads as its words and its comment. -/
theorem lexFrom_text {r : Row} (h : r.IsApart) (pos : Nat) :
    ∃ l, lexFrom pos r.text = .ok l ∧ l.words = r.words ∧ l.comment = r.comment := by
  induction r generalizing pos with
  | ending space comment =>
    cases comment with
    | none =>
      refine ⟨⟨[], none⟩, ?_, rfl, rfl⟩
      have := lexFrom_space space.blank [] pos
      rw [List.append_nil] at this
      rw [text, this, lexFrom.eq_def]
    | some comment =>
      refine ⟨⟨[], some comment.chars⟩, ?_, rfl, rfl⟩
      rw [text, lexFrom_space space.blank, lexFrom_comment]
  | word space w rest ih =>
    obtain ⟨t, next, ht, hlex⟩ := lexFrom_word w h.1 (pos + byteCount space.chars)
    obtain ⟨l, hl, hwords, hcomment⟩ := ih h.2 next
    refine ⟨l.push t, ?_, ?_, hcomment⟩
    · rw [text, lexFrom_space space.blank, hlex, hl]
      rfl
    · unfold Line.words Line.push words
      rw [List.map_cons, ht, ← hwords]
      rfl

/-! ## The line of a row -/

end Row

/-- The white space without a carriage return at its end. -/
def Space.shortened (space : Space) : Space where
  chars := Text.dropReturn space.chars
  blank c hc := space.blank c (Text.mem_of_mem_dropReturn hc)
  unbroken h := space.unbroken (Text.mem_of_mem_dropReturn h)

/-- The comment without a carriage return at its end. -/
def Comment.shortened (comment : Comment) : Comment where
  chars := Text.dropReturn comment.chars
  unbroken h := comment.unbroken (Text.mem_of_mem_dropReturn h)

/-- No word ends in a carriage return. -/
theorem Word.getLast?_text (w : Word) : ∃ c, w.text.getLast? = some c ∧ c ≠ '\r' := by
  have hallowed := w.allowed
  unfold text
  cases hs : w.spelling with
  | paren =>
    rw [hs] at hallowed
    rcases hallowed with hp | hp <;> exact ⟨_, by rw [hp]; rfl, by decide⟩
  | bare =>
    rw [hs] at hallowed
    obtain ⟨hne, hends, -⟩ := hallowed
    refine ⟨_, List.getLast?_eq_some_getLast hne, fun he => ?_⟩
    have := hends _ (List.getLast_mem hne)
    rw [he] at this
    cases this
  | quoted => exact ⟨'"', List.getLast?_concat (l := '"' :: escaped w.value), by decide⟩
  | raw => exact ⟨'\x60', List.getLast?_concat (l := '\x60' :: w.value), by decide⟩

theorem mem_of_mem_escaped {value : List Char} {c : Char} (h : c ∈ escaped value) :
    c = '\\' ∨ c ∈ value := by
  induction value with
  | nil => exact .inr h
  | cons d ds ih =>
    unfold escaped at h
    split at h
    · rcases List.mem_cons.1 h with h | h
      · exact .inl h
      · rcases List.mem_cons.1 h with h | h
        · exact .inr (by simp [h])
        · exact (ih h).imp_right (List.mem_cons_of_mem d)
    · rcases List.mem_cons.1 h with h | h
      · exact .inr (by simp [h])
      · exact (ih h).imp_right (List.mem_cons_of_mem d)

theorem Word.newline_not_mem_text (w : Word) : '\n' ∉ w.text := by
  have hu := w.unbroken
  unfold text
  cases w.spelling with
  | paren => exact hu
  | bare => exact hu
  | quoted =>
    intro h
    have he : '\n' ∈ escaped w.value := by simpa using h
    rcases mem_of_mem_escaped he with h | h
    · cases h
    · exact hu h
  | raw =>
    intro h
    exact hu (by simpa using h)

/-- The comment says that the module is needed only by other modules: trimmed, it is
`indirect`, or starts with `indirect;`. -/
def saysIndirect : Option (List Char) → Bool
  | none => false
  | some c =>
    decide (Text.trimBlank c = "indirect".toList ∨ "indirect;".toList <+: Text.trimBlank c)

theorem marksIndirect_eq (comment : Option (List Char)) :
    marksIndirect comment = saysIndirect comment := by
  cases comment with
  | none => rfl
  | some c =>
    unfold marksIndirect saysIndirect
    dsimp only [Option.map_some]
    generalize Text.trimBlank c = trimmed
    generalize "indirect".toList = word
    generalize "indirect;".toList = opening
    exact Bool.eq_iff_iff.2 (by simp)

namespace Row

/-- The row without a carriage return at its end. -/
def shortened : Row → Row
  | .ending space none => .ending space.shortened none
  | .ending space (some comment) => .ending space (some comment.shortened)
  | .word space w rest => .word space w rest.shortened

theorem text_shortened (r : Row) : r.shortened.text = Text.dropReturn r.text := by
  induction r with
  | ending space comment =>
    cases comment with
    | none => rfl
    | some comment =>
      have hmark : (space.chars ++ ['/', '/']).getLast? = some '/' := by simp
      have := Text.dropReturn_append hmark (by decide) comment.chars
      rw [List.append_assoc, List.append_assoc] at this
      exact this.symm
  | word space w rest ih =>
    obtain ⟨c, hlast, hc⟩ := w.getLast?_text
    have hfront : (space.chars ++ w.text).getLast? = some c := by simp [List.getLast?_append, hlast]
    have := Text.dropReturn_append hfront hc rest.text
    rw [List.append_assoc, List.append_assoc] at this
    rw [shortened, text, text, ih, this]

theorem words_shortened (r : Row) : r.shortened.words = r.words := by
  induction r with
  | ending space comment => cases comment <;> rfl
  | word space w rest ih => rw [shortened, words, words, ih]

theorem saysIndirect_shortened (r : Row) :
    saysIndirect r.shortened.comment = saysIndirect r.comment := by
  induction r with
  | ending space comment =>
    cases comment with
    | none => rfl
    | some comment =>
      unfold shortened Row.comment saysIndirect Comment.shortened
      simp only [Option.map_some, Text.trimBlank_dropReturn]
  | word space w rest ih => exact ih

theorem ClearOf.shortened {w : Word} {r : Row} (h : r.ClearOf w) : r.shortened.ClearOf w := by
  cases r with
  | ending space comment => cases comment <;> exact h
  | word space v rest => exact h

theorem IsApart.shortened {r : Row} (h : r.IsApart) : r.shortened.IsApart := by
  induction r with
  | ending space comment => cases comment <;> trivial
  | word space w rest ih => exact ⟨h.1.shortened, ih h.2⟩

/-- The line reads as the row: it has the words of the row, and a comment that says the same
about the module. -/
def ReadsFrom (r : Row) (line : List Char) : Prop :=
  ∃ l, lex line = .ok l ∧ l.words = r.words ∧ marksIndirect l.comment = saysIndirect r.comment

theorem readsFrom_text {r : Row} (h : r.IsApart) : r.ReadsFrom r.text := by
  obtain ⟨l, hl, hwords, hcomment⟩ := lexFrom_text h 0
  exact ⟨l, hl, hwords, by rw [marksIndirect_eq, hcomment]⟩

theorem readsFrom_dropReturn {r : Row} (h : r.IsApart) : r.ReadsFrom (Text.dropReturn r.text) := by
  obtain ⟨l, hl, hwords, hind⟩ := readsFrom_text h.shortened
  rw [text_shortened] at hl
  exact ⟨l, hl, hwords.trans r.words_shortened, hind.trans r.saysIndirect_shortened⟩

theorem newline_not_mem_text (r : Row) : '\n' ∉ r.text := by
  induction r with
  | ending space comment =>
    cases comment with
    | none => exact space.unbroken
    | some comment =>
      intro h
      rcases List.mem_append.1 h with h | h
      · exact space.unbroken h
      · exact comment.unbroken (by simpa using h)
  | word space w rest ih =>
    intro h
    rcases List.mem_append.1 h with h | h
    · exact space.unbroken h
    · rcases List.mem_append.1 h with h | h
      · exact w.newline_not_mem_text h
      · exact ih h

end Row

/-! ## Pages -/

/-- How a row ends. -/
inductive RowEnd
  | lf | crlf
  deriving DecidableEq, Repr

def RowEnd.text : RowEnd → List Char
  | .lf => ['\n']
  | .crlf => ['\r', '\n']

/-- The line that a row with this end is. -/
def RowEnd.lineOf : RowEnd → Row → List Char
  | .lf, r => Text.dropReturn r.text
  | .crlf, r => r.text

theorem RowEnd.lines_append (e : RowEnd) (r : Row) (text : List Char) :
    Text.lines (r.text ++ e.text ++ text) = e.lineOf r :: Text.lines text := by
  cases e with
  | lf =>
    have := Text.lines_append r.newline_not_mem_text text
    rw [List.append_assoc]
    exact this
  | crlf =>
    have hr : '\n' ∉ r.text ++ ['\r'] := by simp [r.newline_not_mem_text]
    have := Text.lines_append hr text
    rw [Text.dropReturn_append_return, List.append_assoc] at this
    rw [List.append_assoc]
    exact this

/-- A text of rows; the last one has no end, and may be empty. -/
structure Page where
  rows : List (Row × RowEnd)
  last : Row

namespace Page

def allRows (p : Page) : List Row := p.rows.map Prod.fst ++ [p.last]

def text (p : Page) : List Char :=
  (p.rows.flatMap fun r => r.1.text ++ r.2.text) ++ p.last.text

/-- The rows with the line that each of them is. -/
def written (p : Page) : List (Row × List Char) :=
  p.rows.map (fun r => (r.1, r.2.lineOf r.1)) ++ [(p.last, p.last.text)]

theorem fst_written (p : Page) : p.written.map Prod.fst = p.allRows := by
  simp [written, allRows, Function.comp_def]

/-- The lines of a page are those of its rows. An empty last row is no line. -/
theorem lines_text (p : Page) :
    Text.lines p.text ++ (if p.last.text.isEmpty then [[]] else []) = p.written.map Prod.snd := by
  obtain ⟨rows, last⟩ := p
  induction rows with
  | nil =>
    have htext : text ⟨[], last⟩ = last.text := rfl
    rw [htext, Text.lines_of_not_mem last.newline_not_mem_text]
    unfold written
    by_cases he : last.text.isEmpty
    · rw [if_pos he, if_pos he, List.isEmpty_iff.1 he]
      rfl
    · rw [if_neg he, if_neg he]
      rfl
  | cons r rows ih =>
    have htext : text ⟨r :: rows, last⟩ = r.1.text ++ r.2.text ++ text ⟨rows, last⟩ := by
      simp [text]
    rw [htext, r.2.lines_append, List.cons_append, ih]
    rfl

theorem readsFrom_of_mem_written {p : Page} (h : ∀ r ∈ p.allRows, r.IsApart) {r : Row}
    {line : List Char} (hr : (r, line) ∈ p.written) : r.ReadsFrom line := by
  have hapart : r.IsApart := by
    refine h r ?_
    rw [← p.fst_written]
    exact List.mem_map_of_mem (f := Prod.fst) hr
  rcases List.mem_append.1 hr with hr | hr
  · obtain ⟨⟨r', e⟩, -, he⟩ := List.mem_map.1 hr
    cases he
    cases e with
    | lf => exact Row.readsFrom_dropReturn hapart
    | crlf => exact Row.readsFrom_text hapart
  · cases List.mem_singleton.1 hr
    exact Row.readsFrom_text hapart

end Page
end Manifest
end Graft
