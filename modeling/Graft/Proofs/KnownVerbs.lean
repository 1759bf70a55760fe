-- The verbs of a manifest. A verb is looked at where it governs words: on a
-- line of its own, or in a block with an entry. There the reader knows it, or
-- the manifest is refused. The verb of a block without entries is not looked
-- at, and such a block says nothing, whatever its verb.
import Graft.Proofs.LineRoles

namespace Graft.Manifest

/-! ## Words of a line -/

/-- The line reads as these words. -/
def SaysWords (line : List Char) (words : List String) : Prop :=
  ∃ l, lex line = .ok l ∧ l.words = words

instance (line : List Char) (words : List String) : Decidable (SaysWords line words) :=
  match h : lex line with
  | .ok l => decidable_of_iff (l.words = words)
      ⟨fun hw => ⟨l, h, hw⟩, fun ⟨_, hl, hw⟩ => Except.ok.inj (h.symm.trans hl) ▸ hw⟩
  | .error _ => isFalse fun ⟨_, hl, _⟩ => nomatch h.symm.trans hl

theorem map_word_tokensOf {line : List Char} {words : List String} (h : SaysWords line words) :
    (tokensOf line).map Token.word = words := by
  obtain ⟨l, hl, rfl⟩ := h
  rw [tokensOf_of_lex hl, words_eq]

/-- The verb governs words of the line behind these lines: it stands in front of them, outside of
every block, or it is the verb of the block that is open there. -/
inductive Governs (front : List (List Char)) (line : List Char) (verb : String) : Prop
  | alone {args : List String} (houtside : openBehind front = none)
    (hwords : SaysWords line (verb :: args)) (hopen : args ≠ ["("]) (hhollow : args ≠ ["(", ")"])
  | entry {words : List String} (hinside : openBehind front = some verb)
    (hwords : SaysWords line words) (hne : words ≠ []) (hclose : words ≠ [")"])

/-- The lines are a block of the verb without entries. -/
inductive IsEmptyBlock (verb : String) : List (List Char) → Prop
  | hollow {line : List Char} (h : SaysWords line [verb, "(", ")"]) : IsEmptyBlock verb [line]
  | lines {opening closing : List Char} {inner : List (List Char)} (ho : Opens opening verb)
    (hi : ∀ line ∈ inner, SaysWords line []) (hc : Closes closing) :
    IsEmptyBlock verb (opening :: (inner ++ [closing]))

/-- The reader looks at a verb where it governs words. -/
theorem governed_of_governs {front : List (List Char)} {line : List Char} {verb : String}
    (h : Governs front line verb) :
    ∃ l args, lex line = .ok l ∧
      (roleIn (openBehind front) l.tokens).governed? = some (verb, args) := by
  cases h with
  | alone houtside hwords hopen hhollow =>
    obtain ⟨l, hl, hl'⟩ := hwords
    obtain ⟨v, args, hts, hv, rfl⟩ := List.map_eq_cons_iff.mp (words_eq l ▸ hl')
    refine ⟨l, args, hl, ?_⟩
    rw [houtside]
    exact governed_outside_iff.mpr ⟨v, hts, hv, hopen, hhollow⟩
  | entry hinside hwords hne hclose =>
    obtain ⟨l, hl, rfl⟩ := hwords
    refine ⟨l, l.tokens, hl, ?_⟩
    rw [hinside]
    exact governed_inside_iff.mpr ⟨rfl, rfl, fun hn => hne (by rw [words_eq, hn]; rfl), hclose⟩

/-! ## Blocks -/

/-- A block stays open until a line closes it. -/
theorem behind_inside (verb : String) (line : List Char) :
    (Closes line ∧ (roleIn (some verb) (tokensOf line)).behind (some verb) = none) ∨
      (¬ Closes line ∧ (roleIn (some verb) (tokensOf line)).behind (some verb) = some verb) := by
  have hcloses : Closes line ↔ (tokensOf line).map Token.word = [")"] := by
    constructor
    · exact map_word_tokensOf
    · intro h
      cases hl : lex line with
      | ok l => exact ⟨l, hl, by rw [words_eq, ← tokensOf_of_lex hl, h]⟩
      | error fault => simp [tokensOf, hl] at h
  rw [hcloses]
  match tokensOf line with
  | [] => simp [roleIn, roleInside, Role.behind]
  | [t] => by_cases ht : t.word = ")" <;> simp [roleIn, roleInside, Role.behind, ht]
  | t :: u :: ts => simp [roleIn, roleInside, Role.behind]

theorem behindFrom_of_not_closes {verb : String} {lines : List (List Char)}
    (h : ∀ line ∈ lines, ¬ Closes line) : behindFrom (some verb) lines = some verb := by
  induction lines with
  | nil => rfl
  | cons line lines ih =>
    obtain ⟨hline, hlines⟩ := List.forall_mem_cons.mp h
    rcases behind_inside verb line with ⟨hcloses, -⟩ | ⟨-, hstays⟩
    · exact absurd hcloses hline
    · rw [behindFrom, hstays, ih hlines]

/-- A block that is not open at the end was closed by the first line that could. -/
theorem exists_closing {verb : String} {lines : List (List Char)}
    (h : behindFrom (some verb) lines = none) :
    ∃ inner closing more, lines = inner ++ closing :: more ∧ Closes closing ∧
      ∀ line ∈ inner, ¬ Closes line := by
  induction lines with
  | nil => cases h
  | cons line lines ih =>
    rcases behind_inside verb line with ⟨hcloses, -⟩ | ⟨hline, hstays⟩
    · exact ⟨[], line, lines, rfl, hcloses, by simp⟩
    · rw [behindFrom, hstays] at h
      obtain ⟨inner, closing, more, rfl, hclosing, hinner⟩ := ih h
      exact ⟨line :: inner, closing, more, rfl, hclosing,
        List.forall_mem_cons.mpr ⟨hline, hinner⟩⟩

theorem behindFrom_opening {line : List Char} {verb : String} (h : Opens line verb)
    (lines : List (List Char)) :
    behindFrom none (line :: lines) = behindFrom (some verb) lines := by
  have hwords := map_word_tokensOf h
  obtain ⟨v, t, hts, hv, ht⟩ : ∃ v t, tokensOf line = [v, t] ∧ v.word = verb ∧ t.word = "(" := by
    match hts : tokensOf line with
    | [] => simp [hts] at hwords
    | [v] => simp [hts] at hwords
    | [v, t] => exact ⟨v, t, rfl, by simpa [hts] using hwords⟩
    | v :: t :: u :: ts => simp [hts] at hwords
  simp [behindFrom, hts, roleIn, roleOutside, ht, Role.behind, hv]

/-! ## Manifests that are read -/

section

variable {path contents : String} {m : Manifest} {front rest : List (List Char)}
  {line : List Char} {verb : String}

/-- A verb that governs words of a manifest is known. -/
theorem isKnown_of_governs (h : parse path contents = .ok m)
    (hlines : linesOf contents = front ++ line :: rest) (hg : Governs front line verb) :
    IsKnown verb := by
  obtain ⟨r, r', -, hstep, hopen⟩ := exists_reading h hlines
  obtain ⟨l, args, hl, hgoverned⟩ := governed_of_governs hg
  obtain ⟨l', hl', hcarry, -⟩ := step_eq_ok_iff.mp hstep
  cases hl.symm.trans hl'
  rw [hopen, Role.carry, hgoverned] at hcarry
  exact isKnown_of_apply hcarry

/-- Each line of a manifest that is read has words. -/
theorem exists_words (h : parse path contents = .ok m)
    (hlines : linesOf contents = front ++ line :: rest) : ∃ words, SaysWords line words := by
  obtain ⟨r, r', -, hstep, -⟩ := exists_reading h hlines
  obtain ⟨l, hl, -⟩ := step_eq_ok_iff.mp hstep
  exact ⟨l.words, l, hl, rfl⟩

/-- A block of a verb that is not known has no entries. -/
theorem isEmptyBlock_of_opens (h : parse path contents = .ok m)
    (hlines : linesOf contents = front ++ line :: rest) (houtside : openBehind front = none)
    (hopens : Opens line verb) (hunknown : ¬ IsKnown verb) :
    ∃ block more, line :: rest = block ++ more ∧ IsEmptyBlock verb block := by
  obtain ⟨last, hlast, hend, -⟩ := parse_eq_ok_iff.mp h
  have hbehind := behindFrom_of_steps hlast
  rw [hend, hlines, behindFrom_append] at hbehind
  change none = behindFrom (openBehind front) (line :: rest) at hbehind
  rw [houtside, behindFrom_opening hopens] at hbehind
  obtain ⟨inner, closing, more, rfl, hclosing, hinner⟩ := exists_closing hbehind.symm
  refine ⟨line :: (inner ++ [closing]), more, by simp, .lines hopens (fun entry hentry => ?_)
    hclosing⟩
  obtain ⟨before, after, rfl⟩ := List.append_of_mem hentry
  have hlines' : linesOf contents = (front ++ line :: before) ++ entry ::
      (after ++ closing :: more) := by
    rw [hlines]
    simp
  have hinside : openBehind (front ++ line :: before) = some verb := by
    have hopen : behindFrom (some verb) before = some verb :=
      behindFrom_of_not_closes fun later hlater => hinner later (by simp [hlater])
    rw [openBehind, behindFrom_append]
    change behindFrom (openBehind front) (line :: before) = some verb
    rw [houtside, behindFrom_opening hopens, hopen]
  obtain ⟨words, hwords⟩ := exists_words h hlines'
  by_cases hne : words = []
  · exact hne ▸ hwords
  · have hclose : words ≠ [")"] := by
      rintro rfl
      exact hinner entry hentry hwords
    exact absurd (isKnown_of_governs h hlines' (.entry hinside hwords hne hclose)) hunknown

end

/-! ## Manifests that are refused -/

/-- A verb that governs words and is not known is the fault of its line, if no line in front of it
has one. -/
theorem error_of_governs {path contents : String} {front rest : List (List Char)}
    {line : List Char} {verb : String} (hlines : linesOf contents = front ++ line :: rest)
    (hg : Governs front line verb) (hunknown : ¬ IsKnown verb) :
    ∃ n fault, parse path contents = .error (.malformed path n fault) ∧
      (n = front.length + 1 ∧ fault = .unknownDirective verb ∨
        n < front.length + 1 ∧ ∀ open_, fault ≠ .unterminatedBlock open_) := by
  cases hfront : (Reading.start path).steps 1 front with
  | error located =>
    obtain ⟨n, fault⟩ := located
    obtain ⟨before, refused, after, r, rfl, -, rfl, hrefused⟩ := steps_eq_error_iff.mp hfront
    refine ⟨1 + before.length, fault, ?_, .inr ⟨?_, ?_⟩⟩
    · refine parse_eq_error_iff.mpr (.inl ?_)
      rw [hlines, steps_append, hfront]
      rfl
    · rw [List.length_append, List.length_cons]
      omega
    · rintro open_ rfl
      exact step_ne_unterminatedBlock open_ hrefused
  | ok r =>
    obtain ⟨l, args, hl, hgoverned⟩ := governed_of_governs hg
    have hstep : r.step (1 + front.length) line = .error (.unknownDirective verb) := by
      have hopen : r.block.map Block.verb = openBehind front := behindFrom_of_steps hfront
      rw [step_eq_carry hl, hopen, Role.carry, hgoverned]
      dsimp only
      rw [apply_unknown hunknown]
      rfl
    refine ⟨1 + front.length, .unknownDirective verb, ?_, .inl ⟨Nat.add_comm _ _, rfl⟩⟩
    refine parse_eq_error_iff.mpr (.inl (steps_eq_error_iff.mpr ?_))
    exact ⟨front, line, rest, r, hlines, hfront, rfl, hstep⟩

/-! ## Blocks that say nothing -/

section

variable {r s r' : Reading} {n k : Nat} {lines : List (List Char)}

/-- The numbers of the lines do not matter to what is read from them. -/
theorem steps_renumbered (hm : r.manifest = s.manifest)
    (hb : r.block.map Block.verb = s.block.map Block.verb) (h : r.steps n lines = .ok r') :
    ∃ s', s.steps k lines = .ok s' ∧ s'.manifest = r'.manifest ∧
      s'.block.map Block.verb = r'.block.map Block.verb := by
  induction lines generalizing r s n k with
  | nil =>
    cases h
    exact ⟨s, rfl, hm.symm, hb.symm⟩
  | cons line lines ih =>
    rw [Reading.steps] at h
    cases hstep : r.step n line with
    | error fault =>
      rw [hstep] at h
      cases h
    | ok next =>
      rw [hstep] at h
      obtain ⟨l, hl, hcarry, hblock⟩ := step_eq_ok_iff.mp hstep
      let next' : Reading := ⟨next.manifest,
        (roleIn (s.block.map Block.verb) l.tokens).blockBehind k s.block⟩
      have hstep' : s.step k line = .ok next' :=
        step_eq_ok_iff.mpr ⟨l, hl, by rw [← hb, ← hm]; exact hcarry, rfl⟩
      have hverb : next.block.map Block.verb = next'.block.map Block.verb := by
        rw [hblock, Role.map_blockBehind, Role.map_blockBehind, hb]
      have hmanifest : next.manifest = next'.manifest := rfl
      obtain ⟨s', hs', hsame⟩ := ih hmanifest hverb h
      exact ⟨s', by rw [steps_cons hstep', hs'], hsame⟩

theorem step_of_saysWords {words : List String} {line : List Char} (h : SaysWords line words)
    (r : Reading) (number : Nat) : ∃ comment, r.step number line =
      match words, r.block with
      | [], _ => .ok r
      | words, some b => r.entry b words comment
      | words, none => r.directive number words comment := by
  obtain ⟨l, hl, rfl⟩ := h
  exact ⟨l.comment, step_of_lex hl r number⟩

theorem steps_silent (h : ∀ line ∈ lines, SaysWords line []) (r : Reading) (number : Nat) :
    r.steps number lines = .ok r := by
  induction lines generalizing number with
  | nil => rfl
  | cons line lines ih =>
    obtain ⟨hline, hlines⟩ := List.forall_mem_cons.mp h
    obtain ⟨comment, hstep⟩ := step_of_saysWords hline r number
    rw [steps_cons hstep, ih hlines]

/-- A block without entries leaves the manifest as it was. -/
theorem steps_emptyBlock {verb : String} {block : List (List Char)} (h : IsEmptyBlock verb block)
    (m : Manifest) (number : Nat) :
    (⟨m, none⟩ : Reading).steps number block = .ok ⟨m, none⟩ := by
  cases h with
  | hollow hwords =>
    obtain ⟨comment, hstep⟩ := step_of_saysWords hwords ⟨m, none⟩ number
    rw [steps_cons hstep]
    rfl
  | @lines opening closing inner hopens hinner hcloses =>
    obtain ⟨comment, hstep⟩ := step_of_saysWords hopens ⟨m, none⟩ number
    have hopened : (⟨m, none⟩ : Reading).step number opening = .ok ⟨m, some ⟨verb, number⟩⟩ := hstep
    obtain ⟨comment', hstep'⟩ := step_of_saysWords hcloses ⟨m, some ⟨verb, number⟩⟩
      (number + 1 + inner.length)
    have hclosed : (⟨m, some ⟨verb, number⟩⟩ : Reading).step (number + 1 + inner.length) closing =
        .ok ⟨m, none⟩ := hstep'
    rw [steps_cons hopened, steps_append, steps_silent hinner]
    change Reading.steps _ _ [closing] = _
    rw [steps_cons hclosed]
    rfl

/-- A manifest says the same with a block without entries in it and without the block. -/
theorem parse_emptyBlock {path contents other : String} {front block rest : List (List Char)}
    {verb : String} (hlines : linesOf contents = front ++ rest)
    (hother : linesOf other = front ++ (block ++ rest)) (houtside : openBehind front = none)
    (hblock : IsEmptyBlock verb block) (m : Manifest) :
    parse path other = .ok m ↔ parse path contents = .ok m := by
  rw [parse_eq_ok_iff, parse_eq_ok_iff, hlines, hother, steps_append, steps_append]
  cases hfront : (Reading.start path).steps 1 front with
  | error located => rfl
  | ok r =>
    have hfree : r.block = none := by
      have hopen : r.block.map Block.verb = openBehind front := behindFrom_of_steps hfront
      rw [houtside] at hopen
      exact Option.map_eq_none_iff.mp hopen
    obtain ⟨m', b⟩ := r
    obtain rfl : b = none := hfree
    have hskip : (⟨m', none⟩ : Reading).steps (1 + front.length) (block ++ rest) =
        (⟨m', none⟩ : Reading).steps (1 + front.length + block.length) rest := by
      rw [steps_append, steps_emptyBlock hblock]
      rfl
    have hnumber : ∀ n k, (∃ last, (⟨m', none⟩ : Reading).steps n rest = .ok last ∧
          last.block = none ∧ last.manifest = m) →
        ∃ last, (⟨m', none⟩ : Reading).steps k rest = .ok last ∧
          last.block = none ∧ last.manifest = m := by
      rintro n k ⟨last, hlast, hend, rfl⟩
      obtain ⟨last', hlast', hsame, hverb⟩ := steps_renumbered (k := k) rfl rfl hlast
      rw [hend] at hverb
      exact ⟨last', hlast', Option.map_eq_none_iff.mp hverb, hsame⟩
    change (∃ last, (⟨m', none⟩ : Reading).steps _ _ = _ ∧ _) ↔
      ∃ last, (⟨m', none⟩ : Reading).steps _ _ = _ ∧ _
    rw [hskip]
    exact ⟨hnumber _ _, hnumber _ _⟩

end

/-- In a manifest that is read, each verb that governs words is known, and so is each verb that a
line outside of every block opens with, unless the line is or opens a block without entries. A
verb that governs words and is not known is the fault of its line, if no line in front of it has a
fault. A block without entries is let through and says nothing, whatever its verb. -/
theorem the_verbs_that_govern_words_are_known (path contents : String) :
    (∀ m, parse path contents = .ok m →
      ∀ front line rest, linesOf contents = front ++ line :: rest →
        (∀ verb, Governs front line verb → IsKnown verb) ∧
        ∀ verb args, openBehind front = none → SaysWords line (verb :: args) →
          IsKnown verb ∨ ∃ block more, line :: rest = block ++ more ∧ IsEmptyBlock verb block) ∧
    (∀ front line rest verb, linesOf contents = front ++ line :: rest →
      Governs front line verb → ¬ IsKnown verb →
        ∃ n fault, parse path contents = .error (.malformed path n fault) ∧
          (n = front.length + 1 ∧ fault = .unknownDirective verb ∨
            n < front.length + 1 ∧ ∀ open_, fault ≠ .unterminatedBlock open_)) ∧
    ∀ other front block rest verb, linesOf contents = front ++ rest →
      linesOf other = front ++ (block ++ rest) → openBehind front = none →
      IsEmptyBlock verb block → ∀ m, parse path other = .ok m ↔ parse path contents = .ok m := by
  refine ⟨fun m h front line rest hlines => ⟨fun verb => isKnown_of_governs h hlines, ?_⟩,
    fun front line rest verb => error_of_governs,
    fun other front block rest verb => parse_emptyBlock⟩
  intro verb args houtside hwords
  by_cases hunknown : IsKnown verb
  · exact .inl hunknown
  right
  by_cases hhollow : args = ["(", ")"]
  · exact ⟨[line], rest, rfl, .hollow (hhollow ▸ hwords)⟩
  by_cases hopen : args = ["("]
  · subst hopen
    exact isEmptyBlock_of_opens h hlines houtside hwords hunknown
  · exact absurd (isKnown_of_governs h hlines (.alone houtside hwords hopen hhollow)) hunknown

namespace Sample

/-- A manifest with two blocks without entries, both of a verb that no manifest has. -/
def shippedText : String := "module shop\nship ()\nship (\n // nothing\n)\ngo 1.21\n"

def shippedLines : List (List Char) := ["ship (".toList, " // nothing".toList, ")".toList]

theorem parse_shippedText :
    parse "go.mod" shippedText = .ok ⟨"go.mod", some "shop", some "1.21", []⟩ :=
  eq_ok_of_toOption (by decide +kernel)

theorem isEmptyBlock_shippedLines : IsEmptyBlock "ship" shippedLines := by
  have hopens : Opens "ship (".toList "ship" := (by decide +kernel : SaysWords _ _)
  have hcloses : Closes ")".toList := (by decide +kernel : SaysWords _ _)
  have hinner : ∀ line ∈ [" // nothing".toList], SaysWords line [] := by decide +kernel
  exact .lines hopens hinner hcloses

/-- Not every verb of a manifest that is read is known. -/
theorem the_shop_is_shipped_in_empty_blocks :
    ¬ ∀ contents m, parse "go.mod" contents = .ok m →
      ∀ front line rest, linesOf contents = front ++ line :: rest → openBehind front = none →
        ∀ verb args, SaysWords line (verb :: args) → IsKnown verb := by
  intro hknown
  have hlines : linesOf shippedText = ["module shop".toList] ++ "ship ()".toList ::
      (shippedLines ++ ["go 1.21".toList]) := by decide +kernel
  have hship := hknown shippedText _ parse_shippedText _ _ _ hlines (by decide +kernel) "ship"
    ["(", ")"] (by decide +kernel)
  exact absurd hship (by decide)

/-- A manifest with an entry in a block of that verb. -/
def loadedText : String := "module shop\nship (\n\tnow\n)\n"

/-- The verb of the last line is known, the block in front of it can be left out, and a block with
an entry is refused. -/
theorem the_verbs_of_the_shop_are_known :
    IsKnown "go" ∧
    parse "go.mod" "module shop\nship ()\ngo 1.21\n" =
      .ok ⟨"go.mod", some "shop", some "1.21", []⟩ ∧
    ∃ n fault, parse "go.mod" loadedText = .error (.malformed "go.mod" n fault) ∧
      (n = 3 ∧ fault = .unknownDirective "ship" ∨
        n < 3 ∧ ∀ open_, fault ≠ .unterminatedBlock open_) := by
  have hshipped : linesOf shippedText =
      ["module shop".toList, "ship ()".toList] ++ (shippedLines ++ ["go 1.21".toList]) := by
    decide +kernel
  have hplain : linesOf "module shop\nship ()\ngo 1.21\n" =
      ["module shop".toList, "ship ()".toList] ++ ["go 1.21".toList] := by decide +kernel
  have hloaded : linesOf loadedText =
      ["module shop".toList, "ship (".toList] ++ "\tnow".toList :: [")".toList] := by decide +kernel
  refine ⟨?_, ?_, ?_⟩
  · have hwords : SaysWords "go 1.21".toList ["go", "1.21"] := by decide +kernel
    have hgoverns : Governs (["module shop".toList, "ship ()".toList] ++ shippedLines)
        "go 1.21".toList "go" := .alone (by decide +kernel) hwords (by decide) (by decide)
    exact ((the_verbs_that_govern_words_are_known "go.mod" shippedText).1 _ parse_shippedText
      _ _ [] hshipped).1 "go" hgoverns
  · have hskipped := (the_verbs_that_govern_words_are_known "go.mod"
      "module shop\nship ()\ngo 1.21\n").2.2 shippedText _ _ _ "ship" hplain hshipped
      (by decide +kernel) isEmptyBlock_shippedLines
    exact (hskipped _).mp parse_shippedText
  · have hwords : SaysWords "\tnow".toList ["now"] := by decide +kernel
    have hgoverns : Governs ["module shop".toList, "ship (".toList] "\tnow".toList "ship" :=
      .entry (by decide +kernel) hwords (by decide) (by decide)
    exact (the_verbs_that_govern_words_are_known "go.mod" loadedText).2.1 _ _ _ _ hloaded hgoverns
      (by decide)

end Sample

end Graft.Manifest
