-- How a line of a manifest is spelled. A line is written word by word, with
-- white space in front of each and perhaps a comment at the end, or it opens
-- a string that nothing closes. Each line is written in one of these ways, and
-- the reader gives back the words and the comment, or the fault.
import Graft.Proofs.ManifestRows

namespace Graft.Manifest

/-! ## Spellings -/

/-- What stands between quotes, and what it says: a backslash stands for the character after
it. -/
inductive Quotes : List Char → List Char → Prop
  | nil : Quotes [] []
  | plain {c : Char} {text value : List Char} (hq : c ≠ '"') (hs : c ≠ '\\')
    (h : Quotes text value) : Quotes (c :: text) (c :: value)
  | escaped {c : Char} {text value : List Char} (h : Quotes text value) :
    Quotes ('\\' :: c :: text) (c :: value)

/-- The value is written as the text. -/
inductive Spells : Spelling → List Char → List Char → Prop
  | paren {c : Char} (h : c = '(' ∨ c = ')') : Spells .paren [c] [c]
  | bare {value : List Char} (h : Spelling.bare.Allows value) : Spells .bare value value
  | quoted {value text : List Char} (h : Quotes text value) :
    Spells .quoted value ('"' :: (text ++ ['"']))
  | raw {value : List Char} (h : '\x60' ∉ value) :
    Spells .raw value ('\x60' :: (value ++ ['\x60']))

/-- A word as it stands in a line, with the white space in front of it. -/
structure Piece where
  space : List Char
  spelling : Spelling
  value : List Char
  text : List Char
  blank : ∀ c ∈ space, Text.isBlank c = true
  spelled : Spells spelling value text

namespace Piece

def written (p : Piece) : List Char := p.space ++ p.text

/-- What the word says. -/
def word (p : Piece) : String := String.ofList p.value

/-- A bare word ends where it does: white space stands between it and another bare word, and the
first mark of a comment ends it. -/
def EndsAt (p : Piece) (rest : List Char) : Prop := p.spelling = .bare → Stops p.value rest

end Piece

/-- The line is written with these words and this comment. -/
inductive Writes : List Piece → Option (List Char) → List Char → Prop
  | ending {space : List Char} (hb : ∀ c ∈ space, Text.isBlank c = true) : Writes [] none space
  | comment {space comment : List Char} (hb : ∀ c ∈ space, Text.isBlank c = true) :
    Writes [] (some comment) (space ++ '/' :: '/' :: comment)
  | word {p : Piece} {ps : List Piece} {comment : Option (List Char)} {rest : List Char}
    (he : p.EndsAt rest) (hr : Writes ps comment rest) :
    Writes (p :: ps) comment (p.written ++ rest)

/-- The text opens a string, and nothing closes it. -/
inductive NeverCloses : LineFault → List Char → Prop
  | quoted {rest : List Char}
    (h : ∀ text value after, Quotes text value → rest ≠ text ++ '"' :: after) :
    NeverCloses .unterminatedQuoted ('"' :: rest)
  | raw {rest : List Char} (h : '\x60' ∉ rest) : NeverCloses .unterminatedRaw ('\x60' :: rest)

/-- The line opens a string behind its words, and nothing closes it. -/
inductive BreaksOff (fault : LineFault) : List Char → Prop
  | string {space rest : List Char} (hb : ∀ c ∈ space, Text.isBlank c = true)
    (hn : NeverCloses fault rest) : BreaksOff fault (space ++ rest)
  | word {p : Piece} {rest : List Char} (he : p.EndsAt rest) (hr : BreaksOff fault rest) :
    BreaksOff fault (p.written ++ rest)

/-! ## How the reader takes a string -/

theorem quotedRun_of_quotes {text value : List Char} (h : Quotes text value) (rest : List Char) :
    ∃ n, quotedRun (text ++ '"' :: rest) = some (value, n, rest) := by
  induction h with
  | nil => exact ⟨1, rfl⟩
  | @plain c text value hq hs h ih =>
    obtain ⟨n, hn⟩ := ih
    exact ⟨c.utf8Size + n, by simp [quotedRun, hs, hn]⟩
  | @escaped c text value h ih =>
    obtain ⟨n, hn⟩ := ih
    exact ⟨1 + c.utf8Size + n, by simp [quotedRun, hn]⟩

theorem quotes_of_quotedRun {cs value rest : List Char} {n : Nat}
    (h : quotedRun cs = some (value, n, rest)) :
    ∃ text, Quotes text value ∧ cs = text ++ '"' :: rest := by
  fun_induction quotedRun cs generalizing value n rest with
  | case1 => cases h
  | case2 cs =>
    cases h
    exact ⟨[], .nil, rfl⟩
  | case3 => cases h
  | case4 c cs ih =>
    obtain ⟨⟨v, k, r⟩, hr, he⟩ := Option.map_eq_some_iff.mp h
    cases he
    obtain ⟨text, htext, rfl⟩ := ih hr
    exact ⟨_, .escaped htext, rfl⟩
  | case5 c cs hquote hend hslash ih =>
    obtain ⟨⟨v, k, r⟩, hr, he⟩ := Option.map_eq_some_iff.mp h
    cases he
    obtain ⟨text, htext, rfl⟩ := ih hr
    refine ⟨c :: text, .plain ?_ ?_ htext, rfl⟩
    · rintro rfl
      exact hquote rfl
    · rintro rfl
      cases text with
      | nil => exact hslash _ _ rfl rfl
      | cons d ds => exact hslash _ _ rfl rfl

/-- The reader finds the end of a string if there is one. -/
theorem quotedRun_eq_none_iff {cs : List Char} :
    quotedRun cs = none ↔ ∀ text value after, Quotes text value → cs ≠ text ++ '"' :: after := by
  constructor
  · rintro hnone text value after htext rfl
    obtain ⟨n, hn⟩ := quotedRun_of_quotes htext after
    rw [hnone] at hn
    cases hn
  · intro hopen
    cases hrun : quotedRun cs with
    | none => rfl
    | some found =>
      obtain ⟨text, htext, hcs⟩ := quotes_of_quotedRun hrun
      exact absurd hcs (hopen text _ _ htext)

theorem rawRun_eq_some {cs value rest : List Char} (h : rawRun cs = some (value, rest)) :
    '\x60' ∉ value ∧ cs = value ++ '\x60' :: rest := by
  induction cs generalizing value with
  | nil => cases h
  | cons c cs ih =>
    rw [rawRun] at h
    split at h
    · rename_i hc
      cases h
      exact ⟨List.not_mem_nil, by rw [beq_iff_eq.mp hc]; rfl⟩
    · rename_i hc
      obtain ⟨⟨v, r⟩, hr, he⟩ := Option.map_eq_some_iff.mp h
      cases he
      obtain ⟨hnot, rfl⟩ := ih hr
      refine ⟨?_, rfl⟩
      rw [List.mem_cons, not_or]
      exact ⟨fun he => hc (beq_iff_eq.mpr he.symm), hnot⟩

theorem rawRun_eq_none_iff {cs : List Char} : rawRun cs = none ↔ '\x60' ∉ cs := by
  constructor
  · intro hnone hmem
    obtain ⟨value, rest, rfl, hvalue⟩ := List.eq_append_cons_of_mem hmem
    rw [rawRun_append rest hvalue] at hnone
    cases hnone
  · intro hnot
    cases hrun : rawRun cs with
    | none => rfl
    | some found =>
      obtain ⟨-, hcs⟩ := rawRun_eq_some hrun
      exact absurd (by rw [hcs]; simp) hnot

theorem lexFrom_of_neverCloses {fault : LineFault} {cs : List Char} (h : NeverCloses fault cs)
    (pos : Nat) : lexFrom pos cs = .error fault := by
  cases h with
  | quoted h =>
    have hnone := quotedRun_eq_none_iff.mpr h
    rw [lexFrom.eq_def]
    dsimp only
    rw [if_neg (by decide), if_neg (by simp [opensComment]), if_neg (by decide),
      if_pos (by decide)]
    split
    · rfl
    · simp_all
  | raw h =>
    have hnone := rawRun_eq_none_iff.mpr h
    rw [lexFrom.eq_def]
    dsimp only
    rw [if_neg (by decide), if_neg (by simp [opensComment]), if_neg (by decide),
      if_neg (by decide), if_pos (by decide)]
    split
    · rfl
    · simp_all

/-! ## How the reader takes a word -/

/-- How a token is spelled, and what it says. -/
def Token.form (t : Token) : Spelling × List Char := (t.spelling, t.value)

/-- How a word of a line is spelled, and what it says. -/
def Piece.form (p : Piece) : Spelling × List Char := (p.spelling, p.value)

theorem lexFrom_of_spells {spelling : Spelling} {value text rest : List Char}
    (h : Spells spelling value text) (he : spelling = .bare → Stops value rest) (pos : Nat) :
    ∃ (t : Token) (next : Nat), t.form = (spelling, value) ∧
      lexFrom pos (text ++ rest) = (lexFrom next rest).map (Line.push t) := by
  cases h with
  | paren hc => exact ⟨_, _, rfl, lexFrom_paren hc rest pos⟩
  | bare hallowed =>
    obtain ⟨hne, hends, hslash⟩ := hallowed
    obtain ⟨c, cs, rfl⟩ := List.exists_cons_of_ne_nil hne
    exact ⟨_, _, rfl, lexFrom_bare (bareRun_word hends hslash (he rfl)) pos⟩
  | quoted hq =>
    obtain ⟨n, hn⟩ := quotedRun_of_quotes hq rest
    exact ⟨_, _, rfl, by simpa using lexFrom_quoted hn pos⟩
  | raw hr => exact ⟨_, _, rfl, by simpa using lexFrom_raw (rawRun_append rest hr) pos⟩

theorem lexFrom_piece {p : Piece} {rest : List Char} (he : p.EndsAt rest) (pos : Nat) :
    ∃ (t : Token) (next : Nat), t.form = p.form ∧
      lexFrom pos (p.written ++ rest) = (lexFrom next rest).map (Line.push t) := by
  obtain ⟨t, next, ht, hlex⟩ := lexFrom_of_spells p.spelled he (pos + byteCount p.space)
  refine ⟨t, next, ht, ?_⟩
  rw [Piece.written, List.append_assoc, lexFrom_space p.blank, hlex]

/-- The line reads as these words and this comment. -/
def ReadsAs (line : List Char) (words : List String) (comment : Option (List Char)) : Prop :=
  ∃ l, lex line = .ok l ∧ l.words = words ∧ l.comment = comment

/-- What is written is read, each word in its spelling. -/
theorem lexFrom_forms {ps : List Piece} {comment : Option (List Char)} {line : List Char}
    (h : Writes ps comment line) (pos : Nat) :
    ∃ l, lexFrom pos line = .ok l ∧ l.tokens.map Token.form = ps.map Piece.form ∧
      l.comment = comment := by
  induction h generalizing pos with
  | ending hb =>
    have hspace := lexFrom_space hb [] pos
    rw [List.append_nil] at hspace
    exact ⟨⟨[], none⟩, by rw [hspace, lexFrom.eq_def], rfl, rfl⟩
  | comment hb => exact ⟨_, by rw [lexFrom_space hb, lexFrom_comment], rfl, rfl⟩
  | word he hr ih =>
    obtain ⟨t, next, ht, hlex⟩ := lexFrom_piece he pos
    obtain ⟨l, hl, hforms, hcomment⟩ := ih next
    refine ⟨l.push t, by rw [hlex, hl]; rfl, ?_, hcomment⟩
    rw [List.map_cons, ← hforms, ← ht]
    rfl

theorem lexFrom_of_writes {ps : List Piece} {comment : Option (List Char)} {line : List Char}
    (h : Writes ps comment line) (pos : Nat) :
    ∃ l, lexFrom pos line = .ok l ∧ l.words = ps.map Piece.word ∧ l.comment = comment := by
  obtain ⟨l, hl, hforms, hcomment⟩ := lexFrom_forms h pos
  refine ⟨l, hl, ?_, hcomment⟩
  have hwords := congrArg (List.map fun f => String.ofList f.2) hforms
  rw [List.map_map, List.map_map] at hwords
  exact hwords

theorem lexFrom_of_breaksOff {fault : LineFault} {line : List Char} (h : BreaksOff fault line)
    (pos : Nat) : lexFrom pos line = .error fault := by
  induction h generalizing pos with
  | string hb hn => rw [lexFrom_space hb, lexFrom_of_neverCloses hn]
  | word he hr ih =>
    obtain ⟨t, next, -, hlex⟩ := lexFrom_piece he pos
    rw [hlex, ih]
    rfl

/-! ## Every line is written in some way -/

theorem stops_of_bareRun {cs value rest : List Char} (h : bareRun cs = (value, rest)) :
    Stops value rest := by
  induction cs generalizing value with
  | nil =>
    cases h
    exact .inl rfl
  | cons c cs ih =>
    rw [bareRun] at h
    split at h
    · rename_i hstop
      cases h
      rcases Bool.or_eq_true_iff.mp hstop with hends | hcomment
      · exact .inr (.inl ⟨c, cs, rfl, hends⟩)
      · exact .inr (.inr ⟨hcomment, by simp⟩)
    · rename_i hgo
      obtain ⟨rfl, rfl⟩ := Prod.mk.inj h
      rcases ih rfl with hnil | hends | ⟨hcomment, hlast⟩
      · exact .inl hnil
      · exact .inr (.inl hends)
      · -- A slash right before the mark of a comment would have opened the comment itself.
        refine .inr (.inr ⟨hcomment, ?_⟩)
        cases hrun : (bareRun cs).1 with
        | cons d ds => rwa [List.getLast?_cons_cons, ← hrun]
        | nil =>
          have hcs := bareRun_append cs
          rw [hrun, List.nil_append] at hcs
          intro hc
          obtain rfl : c = '/' := Option.some.inj hc
          rw [hcs] at hcomment
          obtain ⟨d, ds, rfl⟩ : ∃ d ds, cs = d :: ds := by
            cases cs with
            | nil => cases hcomment
            | cons d ds => exact ⟨d, ds, rfl⟩
          obtain ⟨rfl, -⟩ := opensComment_cons.mp hcomment
          exact hgo (by simp [opensComment])

theorem bareRun_of_bareRun {cs value rest : List Char} (h : bareRun cs = (value, rest)) :
    bareRun value = (value, []) := by
  induction cs generalizing value with
  | nil =>
    cases h
    rfl
  | cons c cs ih =>
    have happend := bareRun_append (c :: cs)
    rw [h] at happend
    rw [bareRun] at h
    split at h
    · cases h
      rfl
    · rename_i hgo
      obtain ⟨rfl, rfl⟩ := Prod.mk.inj h
      rw [Bool.or_eq_true, not_or, Bool.not_eq_true, Bool.not_eq_true] at hgo
      have hopen : opensComment (c :: (bareRun cs).1) = false := by
        refine Bool.eq_false_iff.mpr fun ho => ?_
        obtain ⟨rfl, hhead⟩ := opensComment_cons.mp ho
        obtain ⟨ds, hds⟩ := List.head?_eq_some_iff.mp hhead
        rw [hds] at happend
        have hcs : cs = '/' :: (ds ++ (bareRun cs).2) := (List.cons.inj happend).2.symm
        rw [hcs] at hgo
        simp [opensComment] at hgo
      rw [bareRun, hgo.1, hopen, Bool.or_self, if_neg Bool.false_ne_true, ih rfl]

/-- Behind white space, a line that goes on with neither a comment nor a string without an end
goes on with a word. -/
theorem exists_word {c : Char} {cs : List Char} (hblank : Text.isBlank c = false)
    (hcomment : opensComment (c :: cs) = false) :
    (∃ fault, NeverCloses fault (c :: cs)) ∨
      ∃ spelling value text rest, Spells spelling value text ∧
        (spelling = .bare → Stops value rest) ∧ c :: cs = text ++ rest ∧
        rest.length < (c :: cs).length := by
  by_cases hparen : c = '(' ∨ c = ')'
  · exact .inr ⟨.paren, [c], [c], cs, .paren hparen, fun h => (nomatch h), rfl, by simp⟩
  by_cases hquote : c = '"'
  · subst hquote
    cases hrun : quotedRun cs with
    | none => exact .inl ⟨_, .quoted (quotedRun_eq_none_iff.mp hrun)⟩
    | some found =>
      obtain ⟨value, n, rest⟩ := found
      obtain ⟨text, htext, rfl⟩ := quotes_of_quotedRun hrun
      exact .inr ⟨.quoted, value, _, rest, .quoted htext, fun h => (nomatch h), by simp,
        by simp; omega⟩
  by_cases hraw : c = '\x60'
  · subst hraw
    cases hrun : rawRun cs with
    | none => exact .inl ⟨_, .raw (rawRun_eq_none_iff.mp hrun)⟩
    | some found =>
      obtain ⟨value, rest⟩ := found
      obtain ⟨hvalue, rfl⟩ := rawRun_eq_some hrun
      exact .inr ⟨.raw, value, _, rest, .raw hvalue, fun h => (nomatch h), by simp,
        by simp; omega⟩
  · rw [not_or] at hparen
    have hends : endsBare c = false := by simp [endsBare, hblank, hparen, hquote, hraw]
    have hrun : bareRun (c :: cs) = (c :: (bareRun cs).1, (bareRun cs).2) := by
      rw [bareRun, hends, hcomment, Bool.or_self, if_neg Bool.false_ne_true]
    have hallowed := allows_bare_iff.mpr ⟨List.cons_ne_nil _ _, bareRun_of_bareRun hrun⟩
    have happend := bareRun_append (c :: cs)
    rw [hrun] at happend
    refine .inr ⟨.bare, _, _, _, .bare hallowed, fun _ => stops_of_bareRun hrun, happend.symm, ?_⟩
    have hle := length_bareRun_le cs
    rw [List.length_cons]
    omega

theorem writes_or_breaksOff (line : List Char) :
    (∃ ps comment, Writes ps comment line) ∨ ∃ fault, BreaksOff fault line := by
  have hsplit := List.takeWhile_append_dropWhile (p := Text.isBlank) (l := line)
  have hb : ∀ c ∈ line.takeWhile Text.isBlank, Text.isBlank c = true :=
    List.all_eq_true.mp List.all_takeWhile
  cases hrest : line.dropWhile Text.isBlank with
  | nil =>
    rw [hrest, List.append_nil] at hsplit
    rw [← hsplit]
    exact .inl ⟨[], none, .ending hb⟩
  | cons c cs =>
    have hblank : Text.isBlank c = false := by
      have hhead := List.head?_dropWhile_not Text.isBlank line
      rw [hrest] at hhead
      simpa using hhead
    have hlength : (c :: cs).length ≤ line.length := by
      rw [← hrest]
      exact (List.dropWhile_sublist _).length_le
    rw [hrest] at hsplit
    by_cases hcomment : opensComment (c :: cs) = true
    · obtain ⟨rfl, hhead⟩ := opensComment_cons.mp hcomment
      obtain ⟨comment, rfl⟩ := List.head?_eq_some_iff.mp hhead
      rw [← hsplit]
      exact .inl ⟨[], some comment, .comment hb⟩
    · rcases exists_word hblank (Bool.eq_false_iff.mpr hcomment) with
        ⟨fault, hnever⟩ | ⟨spelling, value, text, rest, hspells, hstops, htext, hless⟩
      · rw [← hsplit]
        exact .inr ⟨fault, .string hb hnever⟩
      · let p : Piece := ⟨line.takeWhile Text.isBlank, spelling, value, text, hb, hspells⟩
        have hline : line = p.written ++ rest := by
          rw [Piece.written, List.append_assoc, ← htext, hsplit]
        rcases writes_or_breaksOff rest with ⟨ps, comment, hwrites⟩ | ⟨fault, hbreaks⟩
        · exact .inl ⟨p :: ps, comment, hline ▸ .word hstops hwrites⟩
        · exact .inr ⟨fault, hline ▸ .word hstops hbreaks⟩
termination_by line.length

/-- A line has no faults but strings that nothing closes. -/
theorem breaksOff_of_lex {line : List Char} {fault : LineFault} (h : lex line = .error fault) :
    BreaksOff fault line := by
  rcases writes_or_breaksOff line with ⟨ps, comment, hwrites⟩ | ⟨other, hbreaks⟩
  · obtain ⟨l, hl, -⟩ := lexFrom_of_writes hwrites 0
    cases h.symm.trans hl
  · cases h.symm.trans (lexFrom_of_breaksOff hbreaks 0)
    exact hbreaks

theorem BreaksOff.fault_eq {line : List Char} {fault : LineFault} (h : BreaksOff fault line) :
    fault = .unterminatedQuoted ∨ fault = .unterminatedRaw := by
  induction h with
  | string hb hn =>
    cases hn with
    | quoted => exact .inl rfl
    | raw => exact .inr rfl
  | word he hr ih => exact ih

theorem writes_of_readsAs {line : List Char} {words : List String} {comment : Option (List Char)}
    (h : ReadsAs line words comment) :
    ∃ ps, Writes ps comment line ∧ ps.map Piece.word = words := by
  obtain ⟨l, hl, rfl, rfl⟩ := h
  rcases writes_or_breaksOff line with ⟨ps, comment, hwrites⟩ | ⟨fault, hbreaks⟩
  · obtain ⟨m, hm, hwords, hcomment⟩ := lexFrom_of_writes hwrites 0
    cases hl.symm.trans hm
    exact ⟨ps, hcomment ▸ hwrites, hwords.symm⟩
  · cases hl.symm.trans (lexFrom_of_breaksOff hbreaks 0)

/-! ## Bare words as strings -/

theorem quotes_escaped (value : List Char) : Quotes (escaped value) value := by
  induction value with
  | nil => exact .nil
  | cons c cs ih =>
    unfold escaped
    split
    · exact .escaped ih
    · rename_i hc
      rw [not_or] at hc
      exact .plain hc.1 hc.2 ih

theorem allows_of_spells_bare {value text : List Char} (h : Spells .bare value text) :
    text = value ∧ Spelling.bare.Allows value := by
  cases h with
  | bare hallowed => exact ⟨rfl, hallowed⟩

/-- A bare word can be written as a string of either kind. -/
theorem exists_spells {value : List Char} (h : Spelling.bare.Allows value) {spelling : Spelling}
    (hs : spelling = .quoted ∨ spelling = .raw) : ∃ text, Spells spelling value text := by
  rcases hs with rfl | rfl
  · exact ⟨_, .quoted (quotes_escaped value)⟩
  · exact ⟨_, .raw fun hmem => nomatch h.2.1 _ hmem⟩

namespace Piece

/-- A piece opens with a character that ends every bare word, unless it is a bare word without
white space in front. -/
theorem opens (p : Piece) : (∃ c cs, p.written = c :: cs ∧ endsBare c = true) ∨
    p.spelling = .bare ∧ p.written = p.value ∧ Spelling.bare.Allows p.value := by
  obtain ⟨space, spelling, value, text, blank, spelled⟩ := p
  cases space with
  | cons c cs =>
    refine .inl ⟨c, cs ++ text, rfl, ?_⟩
    simp [endsBare, blank c List.mem_cons_self]
  | nil =>
    cases spelled with
    | paren hc => rcases hc with rfl | rfl <;> exact .inl ⟨_, _, rfl, by decide⟩
    | bare hallowed => exact .inr ⟨rfl, rfl, hallowed⟩
    | quoted => exact .inl ⟨_, _, rfl, by decide⟩
    | raw => exact .inl ⟨_, _, rfl, by decide⟩

/-- What ends a bare word right before a piece is the first character of the piece. -/
theorem opens_of_stops {p : Piece} {value rest : List Char} (hp : p.EndsAt rest)
    (h : Stops value (p.written ++ rest)) : ∃ c cs, p.written = c :: cs ∧ endsBare c = true := by
  rcases p.opens with hopens | ⟨hbare, hwritten, hne, hends, hslash⟩
  · exact hopens
  · obtain ⟨c, cs, hvalue⟩ := List.exists_cons_of_ne_nil hne
    have hstops := hp hbare
    rw [hvalue] at hends hslash hstops hwritten
    rw [hwritten] at h
    rcases h with hnil | ⟨d, ds, hd, hdends⟩ | ⟨hopen, -⟩
    · cases hnil
    · cases hd
      exact ⟨c, cs, hwritten, hdends⟩
    · rw [List.cons_append, opensComment_word hslash hstops] at hopen
      cases hopen

end Piece

theorem stops_of_opens {value cs : List Char} {c : Char} {written : List Char}
    (h : written = c :: cs) (hc : endsBare c = true) (rest : List Char) :
    Stops value (written ++ rest) := .inr (.inl ⟨c, cs ++ rest, by rw [h]; rfl, hc⟩)

section

variable {before after : List Piece} {p q : Piece} {comment : Option (List Char)}
  {line : List Char}

theorem Writes.uncons (h : Writes (p :: after) comment line) :
    ∃ back, line = p.written ++ back ∧ p.EndsAt back ∧ Writes after comment back := by
  cases h with
  | word he hr => exact ⟨_, rfl, he, hr⟩

theorem Writes.split (h : Writes (before ++ p :: after) comment line) :
    ∃ back, line = before.flatMap Piece.written ++ (p.written ++ back) ∧ p.EndsAt back ∧
      Writes after comment back := by
  induction before generalizing line with
  | nil => exact h.uncons
  | cons r before ih =>
    obtain ⟨rest, rfl, -, hr⟩ := h.uncons
    obtain ⟨back, rfl, hp, hafter⟩ := ih hr
    exact ⟨back, by rw [List.flatMap_cons, List.append_assoc], hp, hafter⟩

/-- A word between other words can be exchanged for another one that is not bare. -/
theorem Writes.exchange {back : List Char}
    (h : Writes (before ++ p :: after) comment (before.flatMap Piece.written ++ (p.written ++ back)))
    (hq : q.spelling ≠ .bare) (hafter : Writes after comment back) :
    Writes (before ++ q :: after) comment
      (before.flatMap Piece.written ++ (q.written ++ back)) := by
  have hq' : ∀ rest, q.EndsAt rest := fun _ hbare => absurd hbare hq
  induction before with
  | nil => exact .word (hq' back) hafter
  | cons r before ih =>
    rw [List.flatMap_cons, List.append_assoc] at h ⊢
    obtain ⟨rest, hrest, hr, hmore⟩ := Writes.uncons h
    obtain rfl := List.append_cancel_left hrest
    refine .word ?_ (ih hmore)
    -- What ends the word in front is the first character of what follows it.
    intro hbare
    cases before with
    | nil =>
      rcases q.opens with ⟨c, cs, hopens, hc⟩ | ⟨hbare', -⟩
      · exact stops_of_opens hopens hc back
      · exact absurd hbare' hq
    | cons s before =>
      have hstops := hr hbare
      rw [List.flatMap_cons, List.append_assoc] at hmore hstops ⊢
      obtain ⟨rest, hrest, hs, -⟩ := hmore.uncons
      obtain rfl := List.append_cancel_left hrest
      obtain ⟨c, cs, hopens, hc⟩ := Piece.opens_of_stops hs hstops
      exact stops_of_opens hopens hc _

end

/-- A line is read exactly if it is written word by word, and then it reads as its words and its
comment; it is refused exactly if it opens a string that nothing closes. A bare word can be
written as a string that says the same, and the line reads as before. -/
theorem a_line_reads_as_it_is_spelled (line : List Char) :
    (∀ words comment, ReadsAs line words comment ↔
      ∃ ps, Writes ps comment line ∧ ps.map Piece.word = words) ∧
    (∀ fault, lex line = .error fault ↔ BreaksOff fault line) ∧
    ∀ before p after comment, Writes (before ++ p :: after) comment line → p.spelling = .bare →
      ∃ back, line = before.flatMap Piece.written ++ (p.space ++ (p.value ++ back)) ∧
        ∀ spelling, spelling = .quoted ∨ spelling = .raw →
          (∃ text, Spells spelling p.value text) ∧
          ∀ text, Spells spelling p.value text → ∀ words comment, ReadsAs line words comment →
            ReadsAs (before.flatMap Piece.written ++ (p.space ++ (text ++ back))) words comment := by
  refine ⟨fun words comment => ⟨writes_of_readsAs, ?_⟩, fun fault => ⟨breaksOff_of_lex,
    fun hbreaks => lexFrom_of_breaksOff hbreaks 0⟩, ?_⟩
  · rintro ⟨ps, hwrites, rfl⟩
    exact lexFrom_of_writes hwrites 0
  · intro before p after comment hwrites hbare
    obtain ⟨back, rfl, -, hafter⟩ := hwrites.split
    have hspelled := p.spelled
    rw [hbare] at hspelled
    obtain ⟨htext, hallowed⟩ := allows_of_spells_bare hspelled
    refine ⟨back, by rw [Piece.written, htext, List.append_assoc], fun spelling hs =>
      ⟨exists_spells hallowed hs, ?_⟩⟩
    rintro text hspells words comment' ⟨l, hl, rfl, rfl⟩
    let q : Piece := ⟨p.space, spelling, p.value, text, p.blank, hspells⟩
    have hq : q.spelling ≠ .bare := by
      rcases hs with rfl | rfl <;> exact fun h => nomatch h
    obtain ⟨m, hm, hwords, hcomment⟩ := lexFrom_of_writes hwrites 0
    cases hl.symm.trans hm
    obtain ⟨m', hm', hwords', hcomment'⟩ := lexFrom_of_writes (hwrites.exchange hq hafter) 0
    refine ⟨m', ?_, ?_, hcomment'.trans hcomment.symm⟩
    · rw [← List.append_assoc p.space]
      exact hm'
    · rw [hwords', hwords]
      simp [q, Piece.word]

namespace Sample

/-- The text is read as a bare word. -/
def IsBare (value : List Char) : Prop := value ≠ [] ∧ bareRun value = (value, [])

theorem isBlank_of_mem_nil : ∀ c ∈ [], Text.isBlank c = true := List.forall_mem_nil _

theorem isBlank_of_mem_space : ∀ c ∈ [' '], Text.isBlank c = true := by
  intro c hc
  rw [List.mem_singleton.mp hc]
  decide

theorem isBare_require : IsBare "require".toList := ⟨by decide, by decide⟩

theorem isBare_path : IsBare "goyave.dev/goyave/v5".toList := ⟨by decide, by decide⟩

theorem isBare_version : IsBare "v5.0.0".toList := ⟨by decide, by decide⟩

/-- A bare word, with what stands in front of it. -/
def plain (space value : List Char) (hb : ∀ c ∈ space, Text.isBlank c = true)
    (h : IsBare value) : Piece where
  space := space
  spelling := .bare
  value := value
  text := value
  blank := hb
  spelled := .bare (allows_bare_iff.mpr h)

def requireWord : Piece := plain [] "require".toList isBlank_of_mem_nil isBare_require

def pathWord : Piece :=
  plain [' '] "goyave.dev/goyave/v5".toList isBlank_of_mem_space isBare_path

def versionWord : Piece := plain [' '] "v5.0.0".toList isBlank_of_mem_space isBare_version

def requireLine : List Char := "require goyave.dev/goyave/v5 v5.0.0// kept".toList

theorem writes_requireLine :
    Writes [requireWord, pathWord, versionWord] (some " kept".toList) requireLine := by
  have hrequire : requireWord.EndsAt " goyave.dev/goyave/v5 v5.0.0// kept".toList :=
    fun _ => .inr (.inl ⟨' ', _, rfl, by decide⟩)
  have hpath : pathWord.EndsAt " v5.0.0// kept".toList :=
    fun _ => .inr (.inl ⟨' ', _, rfl, by decide⟩)
  have hversion : versionWord.EndsAt "// kept".toList := fun _ => .inr (.inr ⟨rfl, by decide⟩)
  have hcomment : Writes [] (some " kept".toList) "// kept".toList :=
    @Writes.comment [] _ (by simp)
  exact .word hrequire (.word hpath (.word hversion hcomment))

/-- The path of what the shop requires can be written between quotes. -/
theorem the_require_of_the_shop_reads_as_it_is_spelled :
    ReadsAs requireLine ["require", "goyave.dev/goyave/v5", "v5.0.0"] (some " kept".toList) ∧
    ReadsAs "require \"goyave.dev/goyave/v5\" v5.0.0// kept".toList
      ["require", "goyave.dev/goyave/v5", "v5.0.0"] (some " kept".toList) := by
  obtain ⟨hreads, -, hrespelled⟩ := a_line_reads_as_it_is_spelled requireLine
  have hwords : ReadsAs requireLine ["require", "goyave.dev/goyave/v5", "v5.0.0"]
      (some " kept".toList) := (hreads _ _).mpr ⟨_, writes_requireLine, by decide⟩
  obtain ⟨back, hline, hstring⟩ := hrespelled [requireWord] pathWord [versionWord] _
    writes_requireLine rfl
  obtain rfl : back = " v5.0.0// kept".toList := by
    have hfront : requireLine = [requireWord].flatMap Piece.written ++
        (pathWord.space ++ (pathWord.value ++ " v5.0.0// kept".toList)) := by decide
    rw [hfront] at hline
    simpa using hline.symm
  have hspells := (quotes_escaped pathWord.value)
  exact ⟨hwords, (hstring .quoted (.inl rfl)).2 _ (.quoted hspells) _ _ hwords⟩

end Sample

end Graft.Manifest
