-- Templates by their bands. A band is a line of texts and holes, or a line of
-- statements and nothing else. Where the settings drop the line ends and the
-- blanks around statements, a template of bands is read band by band: nothing of
-- a line of texts is lost, and nothing is left of a line of statements.
import Graft.Stub.Template

namespace Graft.Stub.Template

/-! ## Spelling -/

def Word.spelled : Word → List Char
  | .name s => s.toList
  | .text s => '"' :: s.toList ++ ['"']
  | .sign c => [c]

/-- The word is read again as it is spelled. -/
def Word.IsClean : Word → Prop
  | .name s => s.toList.head?.any isNameStart = true ∧ s.toList.all isNamePart = true
  | .text s => ∀ c ∈ s.toList, c ≠ '"' ∧ c ≠ '\\' ∧ c ≠ '\n'
  | .sign _ => False

instance : (w : Word) → Decidable w.IsClean
  | .name s => inferInstanceAs (Decidable (s.toList.head?.any isNameStart = true ∧
      s.toList.all isNamePart = true))
  | .text s => inferInstanceAs (Decidable (∀ c ∈ s.toList, c ≠ '"' ∧ c ≠ '\\' ∧ c ≠ '\n'))
  | .sign _ => inferInstanceAs (Decidable False)

def Mark.opening : Mark → Char
  | .hole => '\x7b'
  | .statement => '%'
  | .comment => '#'

def spelledWords (ws : List Word) : List Char := ws.flatMap fun w => ' ' :: w.spelled

/-- A tag without signs at its marks. -/
def spelledTag (m : Mark) (ws : List Word) : List Char :=
  '\x7b' :: m.opening :: (spelledWords ws ++ [' ', m.closing, '\x7d'])

def placed (line : Nat) (ws : List Word) : List Placed := ws.map fun w => ⟨line, w⟩

def plainTag (m : Mark) (line : Nat) (ws : List Word) : Tag :=
  ⟨m, line, placed line ws, .plain, .plain⟩

/-! ## The inside of a tag -/

section Inside

variable {m : Mark} {found : List Placed} {line : Nat} {c : Char} {cs rest : List Char}

theorem close?_plain (m : Mark) (rest : List Char) :
    close? m (m.closing :: '\x7d' :: rest) = some (.plain, rest) := by
  cases m <;> simp [close?, Mark.closing]

theorem close?_of_ne (hc : c ≠ '-' ∧ c ≠ '+' ∧ c ≠ m.closing) (cs : List Char) :
    close? m (c :: cs) = none := by
  obtain ⟨hminus, hplus, hclosing⟩ := hc
  unfold close?
  split <;> simp_all

theorem inside?_closed {control : Control} (h : close? m cs = some (control, rest)) :
    inside? m found line cs = some ⟨found, control, line, rest⟩ := by
  rw [inside?]
  split
  · simp_all
  · simp_all

theorem closing_ne {c : Char} (h : isSpace c = true ∨ c = '"' ∨ isNameStart c = true) (m : Mark) :
    c ≠ '-' ∧ c ≠ '+' ∧ c ≠ m.closing := by
  refine ⟨?_, ?_, ?_⟩ <;> rintro rfl
  · revert h
    decide
  · revert h
    decide
  · revert h
    cases m <;> decide

theorem inside?_blank : inside? m found line (' ' :: cs) = inside? m found line cs := by
  rw [inside?]
  split
  · rename_i hclose
    rw [close?_of_ne (closing_ne (.inl (by decide)) m)] at hclose
    cases hclose
  · rfl

theorem inside?_quoted {s behind : List Char} (hs : quoted? '"' cs = some (s, behind)) :
    inside? m found line ('"' :: cs) =
      inside? m (found ++ [⟨line, .text (String.ofList s)⟩]) (line + lineEnds s) behind := by
  rw [inside?]
  split
  · rename_i hclose
    rw [close?_of_ne (closing_ne (.inr (.inl rfl)) m)] at hclose
    cases hclose
  · dsimp only
    rw [if_neg (by decide), if_pos (by decide)]
    split
    · rename_i hquoted
      rw [hs] at hquoted
      cases hquoted
      rfl
    · rename_i hquoted
      rw [hs] at hquoted
      cases hquoted

theorem not_isSpace_of_isNameStart (hc : isNameStart c = true) :
    isSpace c = false ∧ (c == '"' || c == '\'') = false := by
  constructor
  · rw [Bool.eq_false_iff]
    intro hspace
    simp only [isSpace, Bool.or_eq_true, beq_iff_eq] at hspace
    rcases hspace with (((rfl | rfl) | rfl) | rfl) | rfl <;> revert hc <;> decide
  · rw [Bool.eq_false_iff]
    intro hquote
    simp only [Bool.or_eq_true, beq_iff_eq] at hquote
    rcases hquote with rfl | rfl <;> revert hc <;> decide

theorem inside?_name (hc : isNameStart c = true) :
    inside? m found line (c :: cs) =
      inside? m (found ++ [⟨line, .name (String.ofList (c :: cs.takeWhile isNamePart))⟩]) line
        (cs.dropWhile isNamePart) := by
  obtain ⟨hspace, hquote⟩ := not_isSpace_of_isNameStart hc
  rw [inside?]
  split
  · rename_i hclose
    rw [close?_of_ne (closing_ne (.inr (.inr hc)) m)] at hclose
    cases hclose
  · dsimp only
    rw [if_neg (by simp [hspace]), if_neg (by simp [hquote]), if_pos hc]

/-- A word that is followed by a blank is read. -/
theorem inside?_word {w : Word} (hw : w.IsClean) :
    inside? m found line (w.spelled ++ ' ' :: rest) =
      inside? m (found ++ [⟨line, w⟩]) line (' ' :: rest) := by
  cases w with
  | sign c => cases hw
  | name s =>
    obtain ⟨hstart, hall⟩ := hw
    rw [Word.spelled]
    cases hs : s.toList with
    | nil =>
      rw [hs] at hstart
      cases hstart
    | cons c cs =>
      rw [hs, List.all_cons, Bool.and_eq_true] at hall
      rw [hs] at hstart
      have hparts : ∀ d ∈ cs, isNamePart d = true := List.all_eq_true.mp hall.2
      have htake : (cs ++ ' ' :: rest).takeWhile isNamePart = cs := by
        rw [List.takeWhile_append_of_pos hparts, List.takeWhile_cons_of_neg (by decide),
          List.append_nil]
      have hdrop : (cs ++ ' ' :: rest).dropWhile isNamePart = ' ' :: rest := by
        rw [List.dropWhile_append_of_pos hparts, List.dropWhile_cons_of_neg (by decide)]
      rw [List.cons_append, inside?_name hstart, htake, hdrop, ← hs, String.ofList_toList]
  | text s =>
    have hquote : ∀ d ∈ s.toList, (d != '"') = true := fun d hd => by simp [(hw d hd).1]
    have hquoted : quoted? '"' (s.toList ++ '"' :: ' ' :: rest) =
        some (s.toList, ' ' :: rest) := by
      unfold quoted?
      rw [List.takeWhile_append_of_pos hquote, List.takeWhile_cons_of_neg (by decide),
        List.dropWhile_append_of_pos hquote, List.dropWhile_cons_of_neg (by decide),
        List.append_nil]
      have hescape : '\\' ∉ s.toList := fun hmem => (hw _ hmem).2.1 rfl
      simp [hescape]
    have hends : lineEnds s.toList = 0 :=
      List.count_eq_zero.mpr fun hmem => (hw _ hmem).2.2 rfl
    rw [Word.spelled, List.cons_append, List.cons_append, List.append_assoc,
      List.singleton_append, inside?_quoted hquoted, hends, String.ofList_toList, Nat.add_zero]

/-- Words that stand apart are read up to the closing mark. -/
theorem inside?_words {ws : List Word} (hws : ∀ w ∈ ws, w.IsClean) :
    inside? m found line (spelledWords ws ++ ' ' :: m.closing :: '\x7d' :: rest) =
      some ⟨found ++ placed line ws, .plain, line, rest⟩ := by
  induction ws generalizing found with
  | nil =>
    rw [spelledWords, List.flatMap_nil, List.nil_append, inside?_blank,
      inside?_closed (close?_plain m rest), placed, List.map_nil, List.append_nil]
  | cons w ws ih =>
    obtain ⟨behind, hbehind⟩ : ∃ behind,
        spelledWords ws ++ ' ' :: m.closing :: '\x7d' :: rest = ' ' :: behind := by
      cases ws <;> exact ⟨_, rfl⟩
    have hrest := @ih (found ++ [⟨line, w⟩]) fun v hv => hws v (List.mem_cons_of_mem w hv)
    rw [spelledWords, List.flatMap_cons, ← spelledWords, List.append_assoc, List.cons_append,
      inside?_blank]
    rw [hbehind] at hrest ⊢
    rw [inside?_word (hws w List.mem_cons_self)]
    simpa [placed] using hrest

end Inside

/-! ## Texts between tags -/

/-- The two characters open a tag. -/
def opensMark (c d : Char) : Bool := c == '\x7b' && (d == '\x7b' || d == '%' || d == '#')

/-- No tag opens in the text if the character behind it is `next`. -/
def isQuiet (next : Char) : List Char → Bool
  | [] => true
  | c :: cs => !opensMark c (cs.headD next) && isQuiet next cs

section Texts

variable {line : Nat} {next : Char} {cs ds rest : List Char} {k : List Chunk}

theorem mark?_of_not_opensMark {c d : Char} (h : opensMark c d = false) :
    mark? (c :: d :: cs) = none := by
  unfold mark?
  split
  · rename_i heq
    cases heq
    simp only [opensMark, beq_self_eq_true, Bool.true_and, Bool.or_eq_false_iff] at h
    simp [h.1.1, h.1.2, h.2]
  · rfl

theorem mark?_of_ne {c : Char} (hc : c ≠ '\x7b') : mark? (c :: cs) = none := by
  unfold mark?
  split
  · rename_i heq
    cases heq
    exact absurd rfl hc
  · rfl

/-- A quiet text lies in front of the first mark, whatever follows it if that may be a mark, and
else if that opens as it should. -/
theorem upToMark_append (h : isQuiet next cs = true)
    (hrest : next = '\x7b' ∨ rest.head? = some next) :
    upToMark (cs ++ rest) = (cs ++ (upToMark rest).1, (upToMark rest).2) := by
  induction cs with
  | nil => rfl
  | cons c cs ih =>
    simp only [isQuiet, Bool.and_eq_true, Bool.not_eq_true'] at h
    have hmark : mark? (c :: (cs ++ rest)) = none := by
      cases cs with
      | cons d ds => exact mark?_of_not_opensMark h.1
      | nil =>
        rcases hrest with rfl | hrest
        · refine mark?_of_ne ?_
          rintro rfl
          simp [opensMark] at h
        · cases rest with
          | nil => cases hrest
          | cons d ds =>
            cases hrest
            exact mark?_of_not_opensMark h.1
    rw [List.cons_append, upToMark, hmark, if_neg (by decide), ih h.2]
    rfl

theorem withText_nil (k : List Chunk) : withText [] k = k := by
  unfold withText
  split <;> simp

theorem withText_append (cs ds : List Char) (k : List Chunk) :
    withText (cs ++ ds) k = withText cs (withText ds k) := by
  cases k with
  | nil => cases ds <;> simp [withText]
  | cons chunk k =>
    cases chunk with
    | text es => simp [withText]
    | tag t => cases ds <;> simp [withText]
    | junk n => cases ds <;> simp [withText]

/-- What is cut behind a text, where a tag opens or the template ends. -/
def cutTag (line : Nat) (cs : List Char) : List Chunk :=
  match mark? cs with
  | none => []
  | some (m, behind) =>
    match between? m line (control behind).2 with
    | none => [.junk line]
    | some t => .tag ⟨m, line, t.words, (control behind).1, t.control⟩ :: cut t.line t.rest

theorem cut_eq (line : Nat) (cs : List Char) :
    cut line cs =
      withText (upToMark cs).1 (cutTag (line + lineEnds (upToMark cs).1) (upToMark cs).2) := by
  rw [cut]
  congr 1
  unfold cutTag
  split
  · simp_all
  · split <;> simp_all

theorem lineEnds_append (cs ds : List Char) : lineEnds (cs ++ ds) = lineEnds cs + lineEnds ds :=
  List.count_append

/-- A quiet text is cut off as it is. -/
theorem cut_text (h : isQuiet next cs = true) (hrest : next = '\x7b' ∨ rest.head? = some next) :
    cut line (cs ++ rest) = withText cs (cut (line + lineEnds cs) rest) := by
  rw [cut_eq, cut_eq _ rest, upToMark_append h hrest, withText_append, lineEnds_append,
    Nat.add_assoc]

theorem cut_nil : cut line [] = [] := by
  rw [cut_eq]
  rfl

/-- A tag that is spelled is cut off. -/
theorem cut_spelledTag {m : Mark} {ws : List Word} (hm : m ≠ .comment)
    (hws : ∀ w ∈ ws, w.IsClean) :
    cut line (spelledTag m ws ++ rest) = .tag (plainTag m line ws) :: cut line rest := by
  obtain ⟨behind, hbehind⟩ : ∃ behind,
      spelledWords ws ++ [' ', m.closing, '\x7d'] ++ rest = ' ' :: behind := by
    cases ws <;> exact ⟨_, rfl⟩
  have hmark : mark? (spelledTag m ws ++ rest) =
      some (m, spelledWords ws ++ [' ', m.closing, '\x7d'] ++ rest) := by
    cases m <;> simp [spelledTag, mark?, Mark.opening]
  have hnone : upToMark (spelledTag m ws ++ rest) = ([], spelledTag m ws ++ rest) := by
    have hsome : (mark? (spelledTag m ws ++ rest)).isSome = true := by rw [hmark]; rfl
    rw [spelledTag, List.cons_append] at hsome ⊢
    rw [upToMark, if_pos hsome]
  have hcontrol : control (spelledWords ws ++ [' ', m.closing, '\x7d'] ++ rest) =
      (.plain, spelledWords ws ++ [' ', m.closing, '\x7d'] ++ rest) := by
    rw [hbehind]
    rfl
  have hinside : between? m line (spelledWords ws ++ [' ', m.closing, '\x7d'] ++ rest) =
      some ⟨placed line ws, .plain, line, rest⟩ := by
    have hwords : inside? m [] line (spelledWords ws ++ ' ' :: m.closing :: '\x7d' :: rest) = _ :=
      inside?_words hws
    rw [List.append_assoc]
    cases m with
    | comment => exact absurd rfl hm
    | hole => exact hwords
    | statement => exact hwords
  rw [cut_eq, hnone, withText_nil, cutTag, hmark]
  dsimp only
  rw [hcontrol, show line + lineEnds [] = line from rfl, hinside]
  rfl

end Texts

/-! ## Bands -/

/-- What stands in a line of a template. -/
inductive Bit
  | text (cs : List Char)
  | hole (w : Word)

inductive Band
  | line (bits : List Bit)
  /-- A line of statements and nothing else. -/
  | statements (first : List Word) (more : List (List Word))

def Bit.spelled : Bit → List Char
  | .text cs => cs
  | .hole w => spelledTag .hole [w]

def Band.spelled : Band → List Char
  | .line bits => bits.flatMap Bit.spelled ++ ['\n']
  | .statements first more => (first :: more).flatMap (spelledTag .statement) ++ ['\n']

/-- Each text is a part of one line in which no tag opens. -/
def AreClean : List Bit → Prop
  | [] => True
  | .text cs :: bits =>
    '\n' ∉ cs ∧ isQuiet (if bits.isEmpty then '\n' else '\x7b') cs = true ∧ AreClean bits
  | .hole w :: bits => w.IsClean ∧ AreClean bits

def Band.IsClean : Band → Prop
  | .line bits => AreClean bits
  | .statements first more => ∀ ws ∈ first :: more, ∀ w ∈ ws, w.IsClean

/-! ## Bands as chunks -/

def Bit.chunks (line : Nat) (k : List Chunk) : Bit → List Chunk
  | .text cs => withText cs k
  | .hole w => .tag (plainTag .hole line [w]) :: k

/-- The chunks of a band in front of others. -/
def Band.chunks (line : Nat) (k : List Chunk) : Band → List Chunk
  | .line bits => bits.foldr (fun b k => b.chunks line k) (withText ['\n'] k)
  | .statements first more =>
    (first :: more).foldr (fun ws k => .tag (plainTag .statement line ws) :: k) (withText ['\n'] k)

def chunksFrom : Nat → List Band → List Chunk
  | _, [] => []
  | line, r :: bands => r.chunks line (chunksFrom (line + 1) bands)

section Bands

variable {line : Nat} {rest : List Char}

theorem cut_lineEnd : cut line ('\n' :: rest) = withText ['\n'] (cut (line + 1) rest) := by
  have hquiet : isQuiet '\x7b' ['\n'] = true := by decide
  exact cut_text hquiet (.inl rfl)

theorem cut_line {bits : List Bit} (h : AreClean bits) :
    cut line (bits.flatMap Bit.spelled ++ '\n' :: rest) =
      bits.foldr (fun b k => b.chunks line k) (withText ['\n'] (cut (line + 1) rest)) := by
  induction bits with
  | nil => exact cut_lineEnd
  | cons b bits ih =>
    rw [List.flatMap_cons, List.append_assoc, List.foldr_cons]
    cases b with
    | hole w =>
      obtain ⟨hw, hbits⟩ := h
      rw [Bit.spelled, cut_spelledTag (by decide) (by simpa using hw), ih hbits]
      rfl
    | text cs =>
      obtain ⟨hends, hquiet, hbits⟩ := h
      have hnone : lineEnds cs = 0 := List.count_eq_zero.mpr hends
      rw [Bit.spelled, cut_text hquiet, hnone, Nat.add_zero, ih hbits]
      · rfl
      · cases bits with
        | nil => exact .inr rfl
        | cons b bits => exact .inl rfl

theorem cut_statements {ss : List (List Word)} (h : ∀ ws ∈ ss, ∀ w ∈ ws, w.IsClean) :
    cut line (ss.flatMap (spelledTag .statement) ++ '\n' :: rest) =
      ss.foldr (fun ws k => .tag (plainTag .statement line ws) :: k)
        (withText ['\n'] (cut (line + 1) rest)) := by
  induction ss with
  | nil => exact cut_lineEnd
  | cons ws ss ih =>
    rw [List.flatMap_cons, List.append_assoc, List.foldr_cons,
      cut_spelledTag (by decide) (h ws List.mem_cons_self),
      ih fun vs hvs => h vs (List.mem_cons_of_mem ws hvs)]

/-- A template of bands is cut into the chunks of these. -/
theorem cut_bands {bands : List Band} (h : ∀ r ∈ bands, r.IsClean) :
    cut line (bands.flatMap Band.spelled) = chunksFrom line bands := by
  induction bands generalizing line with
  | nil => exact cut_nil
  | cons r bands ih =>
    have hrest : cut (line + 1) (bands.flatMap Band.spelled) = chunksFrom (line + 1) bands :=
      ih fun r' hr' => h r' (List.mem_cons_of_mem r hr')
    have hr := h r List.mem_cons_self
    rw [List.flatMap_cons, chunksFrom, ← hrest]
    cases r with
    | line bits =>
      rw [Band.spelled, List.append_assoc]
      exact cut_line hr
    | statements first more =>
      rw [Band.spelled, List.append_assoc]
      exact cut_statements hr

end Bands

end Graft.Stub.Template
