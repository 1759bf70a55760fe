-- The places of words in a manifest. A word opens or closes a block by what
-- it says and by its place in its line, however it is spelled, and every other
-- word is a verb or is governed by one, however it is spelled. So a string can
-- open or close a block, and a parenthesis can be the name of a module.
import Graft.Proofs.KnownVerbs

namespace Graft.Manifest

/-! ## Spellings of tokens -/

/-- A word between quotes of either kind. -/
def Token.IsString (t : Token) : Prop := t.spelling = .quoted ∨ t.spelling = .raw

/-- A parenthesis that stands for itself. -/
def Token.IsParen (t : Token) : Prop := t.spelling = .paren

instance (t : Token) : Decidable t.IsString :=
  inferInstanceAs (Decidable (t.spelling = .quoted ∨ t.spelling = .raw))

instance (t : Token) : Decidable t.IsParen := inferInstanceAs (Decidable (t.spelling = .paren))

/-- The tokens of a line are the words that it is written with, in their spellings. -/
theorem exists_pieces {line : List Char} {l : Line} (h : lex line = .ok l) :
    ∃ ps, Writes ps l.comment line ∧ l.tokens.map Token.form = ps.map Piece.form := by
  rcases writes_or_breaksOff line with ⟨ps, comment, hwrites⟩ | ⟨fault, hbreaks⟩
  · obtain ⟨l', hl', hforms, rfl⟩ := lexFrom_forms hwrites 0
    cases h.symm.trans hl'
    exact ⟨ps, hwrites, hforms⟩
  · cases h.symm.trans (lexFrom_of_breaksOff hbreaks 0)

theorem eq_of_spells_paren {value text : List Char} (h : Spells .paren value text) :
    value = ['('] ∨ value = [')'] := by
  cases h with
  | paren hc =>
    rcases hc with rfl | rfl
    · exact .inl rfl
    · exact .inr rfl

/-- A token that is spelled as a parenthesis says just that. -/
theorem word_of_isParen {line : List Char} {t : Token} (ht : t ∈ tokensOf line)
    (hp : t.IsParen) : t.word = "(" ∨ t.word = ")" := by
  unfold tokensOf at ht
  split at ht
  · rename_i l hl
    obtain ⟨ps, -, hforms⟩ := exists_pieces hl
    have hform : t.form ∈ ps.map Piece.form := hforms ▸ List.mem_map_of_mem ht
    obtain ⟨p, -, hp'⟩ := List.mem_map.mp hform
    obtain ⟨hspelling, hvalue⟩ := Prod.mk.inj hp'
    have hspelled := p.spelled
    rw [hspelling.trans hp, hvalue] at hspelled
    unfold Token.word
    rcases eq_of_spells_paren hspelled with hv | hv
    · exact .inl (by rw [hv])
    · exact .inr (by rw [hv])
  · cases ht

/-! ## Strings that open or close a block -/

/-- A string of the line says a parenthesis in the place of one that opens or closes a block. The
first argument is the verb of the block that is open in front of the line. -/
inductive StringDelimits : Option String → List Token → Prop
  | opens {v o : Token} (ho : o.word = "(") (hs : o.IsString) : StringDelimits none [v, o]
  | hollow {v o c : Token} (ho : o.word = "(") (hc : c.word = ")")
    (hs : o.IsString ∨ c.IsString) : StringDelimits none [v, o, c]
  | closes {verb : String} {c : Token} (hc : c.word = ")") (hs : c.IsString) :
    StringDelimits (some verb) [c]

theorem StringDelimits.exists_delimiter {block : Option String} {ts : List Token}
    (h : StringDelimits block ts) : ∃ t ∈ (roleIn block ts).delimiters, t.IsString := by
  cases h with
  | @opens v o ho hs => exact ⟨o, by simp [roleIn, roleOutside, Role.delimiters, ho], hs⟩
  | @hollow v o c ho hc hs =>
    rcases hs with hs | hs
    · exact ⟨o, by simp [roleIn, roleOutside, Role.delimiters, ho, hc], hs⟩
    · exact ⟨c, by simp [roleIn, roleOutside, Role.delimiters, ho, hc], hs⟩
  | @closes verb c hc hs => exact ⟨c, by simp [roleIn, roleInside, Role.delimiters, hc], hs⟩

theorem stringDelimits_of_outside {ts : List Token} {t : Token}
    (ht : t ∈ (roleOutside ts).delimiters) (hs : t.IsString) : StringDelimits none ts := by
  match ts with
  | [] => cases ht
  | [v] => cases ht
  | [v, o] =>
    by_cases ho : o.word = "("
    · have hto : t = o := by simpa [roleOutside, ho, Role.delimiters] using ht
      exact .opens ho (hto ▸ hs)
    · simp [roleOutside, ho, Role.delimiters] at ht
  | [v, o, c] =>
    by_cases hoc : o.word = "(" ∧ c.word = ")"
    · have htoc : t = o ∨ t = c := by simpa [roleOutside, hoc, Role.delimiters] using ht
      rcases htoc with rfl | rfl
      · exact .hollow hoc.1 hoc.2 (.inl hs)
      · exact .hollow hoc.1 hoc.2 (.inr hs)
    · simp [roleOutside, hoc, Role.delimiters] at ht
  | v :: t :: u :: w :: ts => cases ht

theorem stringDelimits_of_inside {verb : String} {ts : List Token} {t : Token}
    (ht : t ∈ (roleInside verb ts).delimiters) (hs : t.IsString) :
    StringDelimits (some verb) ts := by
  match ts with
  | [] => cases ht
  | [c] =>
    by_cases hc : c.word = ")"
    · have htc : t = c := by simpa [roleInside, hc, Role.delimiters] using ht
      exact .closes hc (htc ▸ hs)
    · simp [roleInside, hc, Role.delimiters] at ht
  | t :: u :: ts => cases ht

theorem stringDelimits_iff (block : Option String) (ts : List Token) :
    (∃ t ∈ (roleIn block ts).delimiters, t.IsString) ↔ StringDelimits block ts := by
  refine ⟨?_, StringDelimits.exists_delimiter⟩
  rintro ⟨t, ht, hs⟩
  cases block with
  | none => exact stringDelimits_of_outside ht hs
  | some verb => exact stringDelimits_of_inside ht hs

/-! ## Parentheses that are taken over -/

/-- The verbs whose words are taken over into the manifest. -/
def IsKept (verb : String) : Prop := verb = "module" ∨ verb = "go" ∨ verb = "require"

/-- A parenthesis of the line is governed by a verb whose words are taken over. The first argument
is the verb of the block that is open in front of the line. -/
inductive ParenKept : Option String → List Token → Prop
  /-- A parenthesis that closes is the module or the language version. -/
  | alone {v t : Token} (hv : v.word = "module" ∨ v.word = "go") (hp : t.IsParen)
    (ht : t.word = ")") : ParenKept none [v, t]
  | require {v t u : Token} (hv : v.word = "require") (hp : t.IsParen ∨ u.IsParen)
    (htu : ¬ (t.word = "(" ∧ u.word = ")")) : ParenKept none [v, t, u]
  /-- In a block it is one that opens. -/
  | entry {verb : String} {t : Token} (hv : verb = "module" ∨ verb = "go") (hp : t.IsParen)
    (ht : t.word = "(") : ParenKept (some verb) [t]
  | requireEntry {t u : Token} (hp : t.IsParen ∨ u.IsParen) : ParenKept (some "require") [t, u]

/-- How many words a verb governs whose words are taken over. -/
theorem args_of_apply {m m' : Manifest} {verb : String} {args : List Token}
    {comment : Option (List Char)} (h : apply m verb (args.map Token.word) comment = .ok m')
    (hk : IsKept verb) :
    (∃ t, args = [t] ∧ (verb = "module" ∨ verb = "go")) ∨
      ∃ t u, args = [t, u] ∧ verb = "require" := by
  rcases cases_of_apply h with ⟨hverb, name, hargs, -⟩ | ⟨hverb, version, hargs, -⟩ |
    ⟨hverb, name, version, hargs, -⟩ | ⟨hignored, -⟩
  · obtain ⟨t, rfl, -⟩ := List.map_eq_singleton_iff.mp hargs
    exact .inl ⟨t, rfl, .inl hverb⟩
  · obtain ⟨t, rfl, -⟩ := List.map_eq_singleton_iff.mp hargs
    exact .inl ⟨t, rfl, .inr hverb⟩
  · obtain ⟨t, ts, rfl, -, hts⟩ := List.map_eq_cons_iff.mp hargs
    obtain ⟨u, rfl, -⟩ := List.map_eq_singleton_iff.mp hts
    exact .inr ⟨t, u, rfl, hverb⟩
  · rcases hk with rfl | rfl | rfl <;> exact absurd hignored (by decide)

section

variable {block : Option String} {ts : List Token} {m m' : Manifest}
  {comment : Option (List Char)}

/-- What a line gives to a verb whose words are taken over. -/
def Keeps (block : Option String) (ts : List Token) (t : Token) : Prop :=
  ∃ verb args, (roleIn block ts).governed? = some (verb, args) ∧ IsKept verb ∧ t ∈ args

theorem ParenKept.exists_kept (h : ParenKept block ts) : ∃ t, Keeps block ts t ∧ t.IsParen := by
  cases h with
  | @alone v t hv hp ht =>
    have hg : (roleOutside [v, t]).governed? = some (v.word, [t]) :=
      governed_outside_iff.mpr ⟨v, rfl, rfl, by simp [ht], by simp⟩
    exact ⟨t, ⟨_, _, hg, hv.imp_right .inl, by simp⟩, hp⟩
  | @require v t u hv hp htu =>
    have hg : (roleOutside [v, t, u]).governed? = some ("require", [t, u]) :=
      governed_outside_iff.mpr ⟨v, rfl, hv, by simp, by simpa using htu⟩
    rcases hp with hp | hp
    · exact ⟨t, ⟨_, _, hg, .inr (.inr rfl), by simp⟩, hp⟩
    · exact ⟨u, ⟨_, _, hg, .inr (.inr rfl), by simp⟩, hp⟩
  | @entry verb t hv hp ht =>
    have hg : (roleInside verb [t]).governed? = some (verb, [t]) :=
      governed_inside_iff.mpr ⟨rfl, rfl, by simp, by simp [ht]⟩
    exact ⟨t, ⟨_, _, hg, hv.imp_right .inl, by simp⟩, hp⟩
  | @requireEntry t u hp =>
    have hg : (roleInside "require" [t, u]).governed? = some ("require", [t, u]) := rfl
    rcases hp with hp | hp
    · exact ⟨t, ⟨_, _, hg, .inr (.inr rfl), by simp⟩, hp⟩
    · exact ⟨u, ⟨_, _, hg, .inr (.inr rfl), by simp⟩, hp⟩

/-- In a line that is taken over, parentheses are kept in these places only. -/
theorem parenKept_of_keeps (hcarry : (roleIn block ts).carry m comment = .ok m')
    (hparens : ∀ t ∈ ts, t.IsParen → t.word = "(" ∨ t.word = ")") {t : Token}
    (h : Keeps block ts t) (hp : t.IsParen) : ParenKept block ts := by
  obtain ⟨verb, args, hg, hk, ht⟩ := h
  rw [Role.carry, hg] at hcarry
  have hargs := args_of_apply hcarry hk
  cases block with
  | none =>
    obtain ⟨v, rfl, rfl, hopen, hhollow⟩ := governed_outside_iff.mp hg
    rcases hargs with ⟨u, rfl, hverb⟩ | ⟨u, w, rfl, hverb⟩
    · obtain rfl := List.mem_singleton.mp ht
      have hword : t.word ≠ "(" := by simpa using hopen
      exact .alone hverb hp ((hparens t (by simp) hp).resolve_left hword)
    · have hnot : ¬ (u.word = "(" ∧ w.word = ")") := by simpa using hhollow
      have huw : t = u ∨ t = w := by simpa using ht
      rcases huw with rfl | rfl
      · exact .require hverb (.inl hp) hnot
      · exact .require hverb (.inr hp) hnot
  | some open_ =>
    obtain ⟨rfl, rfl, -, hclose⟩ := governed_inside_iff.mp hg
    rcases hargs with ⟨u, rfl, hverb⟩ | ⟨u, w, rfl, rfl⟩
    · obtain rfl := List.mem_singleton.mp ht
      have hword : t.word ≠ ")" := by simpa using hclose
      exact .entry hverb hp ((hparens t (by simp) hp).resolve_right hword)
    · have huw : t = u ∨ t = w := by simpa using ht
      rcases huw with rfl | rfl
      · exact .requireEntry (.inl hp)
      · exact .requireEntry (.inr hp)

end

/-! ## Every word has its place -/

/-- A word of a line opens or closes a block, or it is the verb in front, or a verb governs it. -/
inductive HasPlace (block : Option String) (ts : List Token) (t : Token) : Prop
  | delimiter (h : t ∈ (roleIn block ts).delimiters)
  | verb {more : List Token} (hb : block = none) (h : ts = t :: more)
  | governed {verb : String} {args : List Token}
    (hg : (roleIn block ts).governed? = some (verb, args)) (h : t ∈ args)

theorem hasPlace_outside {ts : List Token} {t : Token} (h : t ∈ ts) : HasPlace none ts t := by
  obtain ⟨v, args, rfl⟩ := List.exists_cons_of_ne_nil (List.ne_nil_of_mem h)
  rcases List.mem_cons.mp h with rfl | h
  · exact .verb rfl rfl
  by_cases hopen : args.map Token.word = ["("]
  · obtain ⟨o, rfl, ho⟩ := List.map_eq_singleton_iff.mp hopen
    exact .delimiter (by simpa [roleIn, roleOutside, ho, Role.delimiters] using h)
  by_cases hhollow : args.map Token.word = ["(", ")"]
  · obtain ⟨o, os, rfl, ho, hos⟩ := List.map_eq_cons_iff.mp hhollow
    obtain ⟨c, rfl, hc⟩ := List.map_eq_singleton_iff.mp hos
    exact .delimiter (by simpa [roleIn, roleOutside, ho, hc, Role.delimiters] using h)
  · exact .governed (governed_outside_iff.mpr ⟨v, rfl, rfl, hopen, hhollow⟩) h

theorem hasPlace_inside {verb : String} {ts : List Token} {t : Token} (h : t ∈ ts) :
    HasPlace (some verb) ts t := by
  by_cases hclose : ts.map Token.word = [")"]
  · obtain ⟨c, rfl, hc⟩ := List.map_eq_singleton_iff.mp hclose
    exact .delimiter (by simpa [roleIn, roleInside, hc, Role.delimiters] using h)
  · exact .governed (governed_inside_iff.mpr ⟨rfl, rfl, List.ne_nil_of_mem h, hclose⟩) h

theorem hasPlace_of_mem (block : Option String) {ts : List Token} {t : Token} (h : t ∈ ts) :
    HasPlace block ts t := by
  cases block with
  | none => exact hasPlace_outside h
  | some verb => exact hasPlace_inside h

/-! ## Manifests in other spellings -/

/-- The other line reads as the same words and the same comment. -/
def SaysSame (line other : List Char) : Prop :=
  ∀ words comment, ReadsAs line words comment → ReadsAs other words comment

section

variable {r r' : Reading} {number : Nat}

theorem step_of_saysSame {line other : List Char} (hsame : SaysSame line other)
    (h : r.step number line = .ok r') : r.step number other = .ok r' := by
  obtain ⟨l, hl, -⟩ := step_eq_ok_iff.mp h
  obtain ⟨l', hl', hwords, hcomment⟩ := hsame l.words l.comment ⟨l, hl, rfl, rfl⟩
  rw [step_of_lex hl] at h
  rw [step_of_lex hl', hwords, hcomment]
  exact h

theorem steps_of_saysSame {lines others : List (List Char)}
    (hsame : List.Forall₂ SaysSame lines others) (h : r.steps number lines = .ok r') :
    r.steps number others = .ok r' := by
  induction hsame generalizing r number with
  | nil => exact h
  | @cons line other lines others hline hlines ih =>
    rw [Reading.steps] at h
    cases hstep : r.step number line with
    | error fault =>
      rw [hstep] at h
      cases h
    | ok next =>
      rw [hstep] at h
      rw [steps_cons (step_of_saysSame hline hstep)]
      exact ih h

end

theorem parse_of_saysSame {path contents other : String} {m : Manifest}
    (h : parse path contents = .ok m)
    (hsame : List.Forall₂ SaysSame (linesOf contents) (linesOf other)) :
    parse path other = .ok m := by
  obtain ⟨r, hr, hend⟩ := parse_eq_ok_iff.mp h
  exact parse_eq_ok_iff.mpr ⟨r, steps_of_saysSame hsame hr, hend⟩

/-! ## The law -/

/-- How the words of a line are taken behind the first lines of a manifest. -/
structure TakenByPlace (path : String) (front : List (List Char)) (line : List Char) : Prop where
  /-- The tokens are the words that the line is written with, in their spellings. -/
  written : ∃ ps comment, Writes ps comment line ∧ (tokensOf line).map Token.form = ps.map Piece.form
  /-- The line is read, and it opens or closes a block exactly by its delimiters. -/
  read : ∃ r r', (Reading.start path).steps 1 front = .ok r ∧
    r.step (1 + front.length) line = .ok r' ∧ r.block.map Block.verb = openBehind front ∧
    r'.block.map Block.verb = (roleAt front line).behind (openBehind front)
  placed : ∀ t ∈ tokensOf line, HasPlace (openBehind front) (tokensOf line) t
  /-- A string opens or closes a block exactly if it says a parenthesis in the place of one. -/
  string : (∃ t ∈ (roleAt front line).delimiters, t.IsString) ↔
    StringDelimits (openBehind front) (tokensOf line)
  /-- A parenthesis is taken over exactly if it stands where none opens or closes a block. -/
  paren : (∃ t, Keeps (openBehind front) (tokensOf line) t ∧ t.IsParen) ↔
    ParenKept (openBehind front) (tokensOf line)

theorem takenByPlace {path contents : String} {m : Manifest} (h : parse path contents = .ok m)
    {front rest : List (List Char)} {line : List Char}
    (hlines : linesOf contents = front ++ line :: rest) : TakenByPlace path front line := by
  obtain ⟨r, r', hr, hstep, hopen⟩ := exists_reading h hlines
  obtain ⟨l, hl, hcarry, -⟩ := step_eq_ok_iff.mp hstep
  rw [hopen, ← tokensOf_of_lex hl] at hcarry
  obtain ⟨ps, hwrites, hforms⟩ := exists_pieces hl
  refine ⟨⟨ps, _, hwrites, by rw [tokensOf_of_lex hl, hforms]⟩, ⟨r, r', hr, hstep, hopen, ?_⟩,
    fun t => hasPlace_of_mem _, stringDelimits_iff _ _, ?_, ParenKept.exists_kept⟩
  · rw [behind_of_step hstep, hopen]
    rfl
  · rintro ⟨t, ht, hp⟩
    exact parenKept_of_keeps hcarry (fun t => word_of_isParen) ht hp

/-- A manifest that is read says what its directives say, and it says so in every spelling of its
words: a word is taken by its place and by what it says. So a string opens or closes a block where
it says a parenthesis in the place of one, and nowhere else; and a parenthesis is the module, the
language version, or part of what is required where it is the word for that and does not stand in
the place of one that opens or closes a block. -/
theorem words_are_taken_by_their_place {path contents : String} {m : Manifest}
    (h : parse path contents = .ok m) :
    (∃ ss, List.Forall₂ Said.Means (saidIn (linesOf contents)) ss ∧ m = ofStatements path ss) ∧
    (∀ other, List.Forall₂ SaysSame (linesOf contents) (linesOf other) →
      parse path other = .ok m) ∧
    ∀ front line rest, linesOf contents = front ++ line :: rest → TakenByPlace path front line :=
  ⟨exists_statements_of_parse h, fun _ => parse_of_saysSame h, fun _ _ _ => takenByPlace h⟩

namespace Sample

/-- A manifest with a block that a string opens, and with a parenthesis as what it requires. -/
def bracedText : String := "module \"(\"\n\tshop\n)\nrequire ) v1.0.0\n"

/-- The same words in other spellings. -/
def respelledText : String := "module (\n\x60shop\x60\n\")\"\n\"require\" \")\" v1.0.0"

def opensBraced : List Char := "module \"(\"".toList

def requiresParen : List Char := "require ) v1.0.0".toList

def bracedFront : List (List Char) := [opensBraced, "\tshop".toList, ")".toList]

theorem parse_bracedText :
    parse "go.mod" bracedText = .ok ⟨"go.mod", some "shop", none, [⟨")", "v1.0.0", false⟩]⟩ :=
  eq_ok_of_toOption (by decide +kernel)

theorem linesOf_bracedText : linesOf bracedText = bracedFront ++ [requiresParen] := by
  decide +kernel

/-- A string opens a block of the shop. -/
theorem stringDelimits_opensBraced : StringDelimits (openBehind []) (tokensOf opensBraced) := by
  have hts : tokensOf opensBraced = [⟨.bare, "module".toList, 0, 6⟩, ⟨.quoted, ['('], 7, 10⟩] := by
    decide +kernel
  rw [hts]
  exact .opens (by decide) (by decide)

/-- The shop requires a parenthesis. -/
theorem parenKept_requiresParen :
    ParenKept (openBehind bracedFront) (tokensOf requiresParen) := by
  have hopen : openBehind bracedFront = none := by decide +kernel
  have hts : tokensOf requiresParen = [⟨.bare, "require".toList, 0, 7⟩, ⟨.paren, [')'], 8, 9⟩,
      ⟨.bare, "v1.0.0".toList, 10, 16⟩] := by decide +kernel
  rw [hopen, hts]
  exact .require (by decide) (by decide) (by decide)

/-- Strings open blocks, and parentheses are taken over. -/
theorem the_shop_opens_a_block_with_a_string :
    (¬ ∀ contents m, parse "go.mod" contents = .ok m →
      ∀ front line rest, linesOf contents = front ++ line :: rest →
        ∀ t ∈ (roleAt front line).delimiters, ¬ t.IsString) ∧
    ¬ ∀ contents m, parse "go.mod" contents = .ok m →
      ∀ front line rest, linesOf contents = front ++ line :: rest →
        ∀ t, Keeps (openBehind front) (tokensOf line) t → ¬ t.IsParen := by
  constructor
  · intro hnever
    obtain ⟨t, ht, hs⟩ := stringDelimits_opensBraced.exists_delimiter
    exact hnever bracedText _ parse_bracedText [] opensBraced _ linesOf_bracedText t ht hs
  · intro hnever
    obtain ⟨t, ht, hp⟩ := parenKept_requiresParen.exists_kept
    exact hnever bracedText _ parse_bracedText bracedFront requiresParen [] linesOf_bracedText t ht hp

/-- The two lines can be read, as the same words and the same comment. -/
def sameWords (line other : List Char) : Bool :=
  match lex line, lex other with
  | .ok l, .ok l' => l.words = l'.words ∧ l.comment = l'.comment
  | _, _ => false

theorem saysSame_of_sameWords {line other : List Char} (h : sameWords line other = true) :
    SaysSame line other := by
  rintro words comment ⟨l, hl, rfl, rfl⟩
  unfold sameWords at h
  rw [hl] at h
  cases hl' : lex other with
  | error fault =>
    rw [hl'] at h
    cases h
  | ok l' =>
    rw [hl'] at h
    obtain ⟨hwords, hcomment⟩ := of_decide_eq_true h
    exact ⟨l', hl', hwords.symm, hcomment.symm⟩

/-- The manifest of the shop reads the same in other spellings, a string opens its block, and it
requires a parenthesis. -/
theorem the_words_of_the_shop_are_taken_by_their_place :
    parse "go.mod" respelledText = .ok ⟨"go.mod", some "shop", none, [⟨")", "v1.0.0", false⟩]⟩ ∧
    (∃ t ∈ (roleAt [] opensBraced).delimiters, t.IsString) ∧
    ∃ t, Keeps (openBehind bracedFront) (tokensOf requiresParen) t ∧ t.IsParen := by
  obtain ⟨-, hspelled, htaken⟩ := words_are_taken_by_their_place parse_bracedText
  refine ⟨hspelled respelledText ?_, ?_, ?_⟩
  · have hlines : linesOf respelledText = ["module (".toList, "\x60shop\x60".toList,
        "\")\"".toList, "\"require\" \")\" v1.0.0".toList] := by decide +kernel
    rw [linesOf_bracedText, hlines]
    have hsame : ∀ {line other : List Char}, sameWords line other = true → SaysSame line other :=
      saysSame_of_sameWords
    exact .cons (hsame (by decide +kernel)) (.cons (hsame (by decide +kernel))
      (.cons (hsame (by decide +kernel)) (.cons (hsame (by decide +kernel)) .nil)))
  · exact (htaken [] opensBraced _ linesOf_bracedText).string.mpr stringDelimits_opensBraced
  · exact (htaken bracedFront requiresParen [] linesOf_bracedText).paren.mpr parenKept_requiresParen

end Sample

end Graft.Manifest
