-- What each line of a manifest is. By its words and by the block that is open
-- in front of it, a line is a directive, an entry of the block, the opening or
-- the closing of a block, a block without entries, or nothing. Only the
-- directives and the entries say something, and a manifest that is read says
-- what they say, in their order.
import Mathlib.Data.List.Forall2
import Graft.Proofs.ManifestFaults

namespace Graft.Manifest

/-! ## Roles -/

/-- What a token says, however it is spelled. -/
def Token.word (t : Token) : String := String.ofList t.value

theorem words_eq (l : Line) : l.words = l.tokens.map Token.word := rfl

/-- The tokens of a line. A line that cannot be read has none. -/
def tokensOf (line : List Char) : List Token :=
  match lex line with
  | .ok l => l.tokens
  | .error _ => []

/-- The comment of a line. -/
def commentOf (line : List Char) : Option (List Char) :=
  match lex line with
  | .ok l => l.comment
  | .error _ => none

theorem tokensOf_of_lex {line : List Char} {l : Line} (h : lex line = .ok l) :
    tokensOf line = l.tokens := by
  unfold tokensOf
  rw [h]

theorem commentOf_of_lex {line : List Char} {l : Line} (h : lex line = .ok l) :
    commentOf line = l.comment := by
  unfold commentOf
  rw [h]

/-- What a line is. -/
inductive Role
  | silent
  /-- A directive on a line of its own. -/
  | alone (verb : Token) (args : List Token)
  /-- A block without entries on one line. -/
  | hollow (verb opened closed : Token)
  | opening (verb opened : Token)
  /-- An entry of the block of the verb. -/
  | entry (verb : String) (args : List Token)
  | closing (closed : Token)
  deriving DecidableEq, Repr

/-- What a line with these tokens is outside of every block. -/
def roleOutside : List Token → Role
  | [] => .silent
  | [v] => .alone v []
  | [v, t] => if t.word = "(" then .opening v t else .alone v [t]
  | [v, t, u] => if t.word = "(" ∧ u.word = ")" then .hollow v t u else .alone v [t, u]
  | v :: t :: u :: w :: ts => .alone v (t :: u :: w :: ts)

/-- What a line with these tokens is inside a block of the verb. -/
def roleInside (verb : String) : List Token → Role
  | [] => .silent
  | [t] => if t.word = ")" then .closing t else .entry verb [t]
  | t :: u :: ts => .entry verb (t :: u :: ts)

/-- What a line with these tokens is, by the verb of the block that is open in front of it. -/
def roleIn : Option String → List Token → Role
  | none, ts => roleOutside ts
  | some verb, ts => roleInside verb ts

namespace Role

/-- The verb of the block that is open behind the line. -/
def behind (block : Option String) : Role → Option String
  | .opening v _ => some v.word
  | .closing _ => none
  | _ => block

/-- The block that is open behind the line with this number. -/
def blockBehind (number : Nat) (block : Option Block) : Role → Option Block
  | .opening v _ => some ⟨v.word, number⟩
  | .closing _ => none
  | _ => block

/-- The verb that governs the words of the line, and these words. -/
def governed? : Role → Option (String × List Token)
  | .alone v args => some (v.word, args)
  | .entry verb args => some (verb, args)
  | _ => none

/-- The tokens that open or close a block. -/
def delimiters : Role → List Token
  | .hollow _ o c => [o, c]
  | .opening _ o => [o]
  | .closing c => [c]
  | _ => []

/-- What becomes of a manifest by the line. -/
def carry (m : Manifest) (comment : Option (List Char)) (ρ : Role) : Except LineFault Manifest :=
  match ρ.governed? with
  | none => .ok m
  | some (verb, args) => apply m verb (args.map Token.word) comment

theorem map_blockBehind (number : Nat) (block : Option Block) (ρ : Role) :
    (ρ.blockBehind number block).map Block.verb = ρ.behind (block.map Block.verb) := by
  cases ρ <;> rfl

end Role

/-- Outside of every block the first word governs the others, unless they are the parentheses of a
block. -/
theorem governed_outside_iff {ts args : List Token} {verb : String} :
    (roleOutside ts).governed? = some (verb, args) ↔
      ∃ v, ts = v :: args ∧ v.word = verb ∧ args.map Token.word ≠ ["("] ∧
        args.map Token.word ≠ ["(", ")"] := by
  constructor
  · intro h
    match ts with
    | [] => cases h
    | [v] =>
      cases h
      exact ⟨v, rfl, rfl, by simp, by simp⟩
    | [v, t] =>
      by_cases ht : t.word = "("
      · simp [roleOutside, ht, Role.governed?] at h
      · have hg : v.word = verb ∧ [t] = args := by simpa [roleOutside, ht, Role.governed?] using h
        obtain ⟨rfl, rfl⟩ := hg
        exact ⟨v, rfl, rfl, by simpa using ht, by simp⟩
    | [v, t, u] =>
      by_cases htu : t.word = "(" ∧ u.word = ")"
      · simp [roleOutside, htu, Role.governed?] at h
      · have hg : v.word = verb ∧ [t, u] = args := by
          simpa [roleOutside, htu, Role.governed?] using h
        obtain ⟨rfl, rfl⟩ := hg
        exact ⟨v, rfl, rfl, by simp, by simpa using htu⟩
    | v :: t :: u :: w :: ts =>
      cases h
      exact ⟨v, rfl, rfl, by simp, by simp⟩
  · rintro ⟨v, rfl, rfl, hopen, hhollow⟩
    match args with
    | [] => rfl
    | [t] =>
      have ht : t.word ≠ "(" := by simpa using hopen
      simp [roleOutside, ht, Role.governed?]
    | [t, u] =>
      have htu : ¬ (t.word = "(" ∧ u.word = ")") := by simpa using hhollow
      simp [roleOutside, htu, Role.governed?]
    | t :: u :: w :: ts => rfl

/-- Inside a block its verb governs the words of a line, unless they close the block. -/
theorem governed_inside_iff {ts args : List Token} {verb open_ : String} :
    (roleInside open_ ts).governed? = some (verb, args) ↔
      verb = open_ ∧ ts = args ∧ args ≠ [] ∧ args.map Token.word ≠ [")"] := by
  match ts with
  | [] => simp only [roleInside, Role.governed?]; grind
  | [t] =>
    by_cases ht : t.word = ")"
    · simp only [roleInside, ht, Role.governed?]; grind
    · simp only [roleInside, ht, Role.governed?]; grind
  | t :: u :: ts => simp only [roleInside, Role.governed?]; grind

/-- The verb of the block that is open behind the lines. -/
def behindFrom : Option String → List (List Char) → Option String
  | block, [] => block
  | block, line :: lines => behindFrom ((roleIn block (tokensOf line)).behind block) lines

/-- The verb of the block that is open behind the first lines of a manifest. -/
def openBehind (front : List (List Char)) : Option String := behindFrom none front

/-- What a line is behind the first lines of a manifest. -/
def roleAt (front : List (List Char)) (line : List Char) : Role :=
  roleIn (openBehind front) (tokensOf line)

theorem behindFrom_append (block : Option String) (front more : List (List Char)) :
    behindFrom block (front ++ more) = behindFrom (behindFrom block front) more := by
  induction front generalizing block with
  | nil => rfl
  | cons line front ih => exact ih _

/-! ## How a line is read -/

section

variable {r r' : Reading} {number : Nat} {line : List Char} {l : Line}

theorem directive_eq (r : Reading) (number : Nat) (ts : List Token)
    (comment : Option (List Char)) :
    r.directive number (ts.map Token.word) comment =
      ((roleOutside ts).carry r.manifest comment).map fun m =>
        ⟨m, (roleOutside ts).blockBehind number r.block⟩ := by
  match ts with
  | [] => rfl
  | [v] => rfl
  | [v, t] =>
    by_cases ht : t.word = "("
    · simp [Reading.directive, roleOutside, ht, Role.carry, Role.governed?, Role.blockBehind,
        Except.map]
    · simp [Reading.directive, roleOutside, ht, Role.carry, Role.governed?, Role.blockBehind]
  | [v, t, u] =>
    by_cases htu : t.word = "(" ∧ u.word = ")"
    · simp [Reading.directive, roleOutside, htu, Role.carry, Role.governed?, Role.blockBehind,
        Except.map]
    · simp [Reading.directive, roleOutside, htu, Role.carry, Role.governed?, Role.blockBehind]
  | v :: t :: u :: w :: ts =>
    simp [Reading.directive, roleOutside, Role.carry, Role.governed?, Role.blockBehind]

theorem entry_eq (r : Reading) {b : Block} (hb : r.block = some b) (number : Nat) (t : Token)
    (ts : List Token) (comment : Option (List Char)) :
    r.entry b ((t :: ts).map Token.word) comment =
      ((roleInside b.verb (t :: ts)).carry r.manifest comment).map fun m =>
        ⟨m, (roleInside b.verb (t :: ts)).blockBehind number r.block⟩ := by
  cases ts with
  | nil =>
    by_cases ht : t.word = ")"
    · simp [Reading.entry, roleInside, ht, Role.carry, Role.governed?, Role.blockBehind,
        Except.map]
    · simp [Reading.entry, roleInside, ht, Role.carry, Role.governed?, Role.blockBehind, hb]
  | cons u ts =>
    simp [Reading.entry, roleInside, Role.carry, Role.governed?, Role.blockBehind, hb]

/-- A line that can be read does what its role says. -/
theorem step_eq_carry (hl : lex line = .ok l) (r : Reading) (number : Nat) :
    r.step number line =
      ((roleIn (r.block.map Block.verb) l.tokens).carry r.manifest l.comment).map fun m =>
        ⟨m, (roleIn (r.block.map Block.verb) l.tokens).blockBehind number r.block⟩ := by
  rw [step_of_lex hl, words_eq]
  obtain ⟨m, block⟩ := r
  cases block with
  | none =>
    have hdirective := directive_eq ⟨m, none⟩ number l.tokens l.comment
    cases hts : l.tokens with
    | nil => rfl
    | cons t ts =>
      rw [hts] at hdirective
      exact hdirective
  | some b =>
    cases l.tokens with
    | nil => rfl
    | cons t ts => exact entry_eq ⟨m, some b⟩ rfl number t ts l.comment

theorem step_of_unread {fault : LineFault} (hl : lex line = .error fault) (r : Reading)
    (number : Nat) : r.step number line = .error fault := by
  unfold Reading.step
  rw [hl]
  rfl

/-- A line is read exactly if the manifest takes over what it says. -/
theorem step_eq_ok_iff :
    r.step number line = .ok r' ↔ ∃ l, lex line = .ok l ∧
      (roleIn (r.block.map Block.verb) l.tokens).carry r.manifest l.comment = .ok r'.manifest ∧
      r'.block = (roleIn (r.block.map Block.verb) l.tokens).blockBehind number r.block := by
  cases hl : lex line with
  | error fault => simp [step_of_unread hl]
  | ok l =>
    rw [step_eq_carry hl]
    cases hm : (roleIn (r.block.map Block.verb) l.tokens).carry r.manifest l.comment with
    | error fault => simp [Except.map, hm]
    | ok m =>
      obtain ⟨m', block⟩ := r'
      simp [Except.map, hm, eq_comm]

theorem behind_of_step (h : r.step number line = .ok r') :
    r'.block.map Block.verb =
      (roleIn (r.block.map Block.verb) (tokensOf line)).behind (r.block.map Block.verb) := by
  obtain ⟨l, hl, -, hblock⟩ := step_eq_ok_iff.mp h
  rw [hblock, Role.map_blockBehind, tokensOf_of_lex hl]

/-- Reading lines keeps count of the block that is open. -/
theorem behindFrom_of_steps {lines : List (List Char)} (h : r.steps number lines = .ok r') :
    r'.block.map Block.verb = behindFrom (r.block.map Block.verb) lines := by
  induction lines generalizing r number with
  | nil =>
    cases h
    rfl
  | cons line lines ih =>
    rw [Reading.steps] at h
    cases hstep : r.step number line with
    | error fault =>
      rw [hstep] at h
      cases h
    | ok next =>
      rw [hstep] at h
      rw [ih h, behind_of_step hstep, behindFrom]

end

/-! ## What lines say -/

/-- What a line says: a verb and the words that it governs, with the comment behind them. -/
structure Said where
  verb : String
  args : List Token
  comment : Option (List Char)
  deriving DecidableEq, Repr

/-- What a line says, by the verb of the block that is open in front of it. -/
def said? (block : Option String) (line : List Char) : Option Said :=
  (roleIn block (tokensOf line)).governed?.map fun g => ⟨g.1, g.2, commentOf line⟩

/-- What the lines say, by the verb of the block that is open in front of them. -/
def saidFrom : Option String → List (List Char) → List Said
  | _, [] => []
  | block, line :: lines =>
    (said? block line).toList ++ saidFrom ((roleIn block (tokensOf line)).behind block) lines

/-- What the lines of a manifest say. -/
def saidIn (lines : List (List Char)) : List Said := saidFrom none lines

/-- What is said is this statement. -/
structure Said.Means (d : Said) (s : Statement) : Prop where
  verb : s.directive.verb.word = d.verb
  args : s.directive.args = d.args.map Token.word
  comment : s.comment = d.comment

/-- The verb is one that the reader knows. -/
def IsKnown (verb : String) : Prop :=
  verb = "module" ∨ verb = "go" ∨ verb = "require" ∨ verb ∈ ignoredVerbs

instance (verb : String) : Decidable (IsKnown verb) :=
  inferInstanceAs (Decidable (verb = "module" ∨ verb = "go" ∨ verb = "require" ∨
    verb ∈ ignoredVerbs))

theorem apply_unknown {verb : String} (h : ¬ IsKnown verb) (m : Manifest) (args : List String)
    (comment : Option (List Char)) : apply m verb args comment = .error (.unknownDirective verb) := by
  simp only [IsKnown, not_or] at h
  obtain ⟨hmodule, hgo, hrequire, hignored⟩ := h
  simp [apply, hmodule, hgo, hrequire, hignored]

theorem exists_ignored {verb : String} (h : verb ∈ ignoredVerbs) :
    ∃ i : Ignored, (Verb.ignored i).word = verb := by
  simp only [ignoredVerbs, List.mem_cons, List.not_mem_nil, or_false] at h
  rcases h with rfl | rfl | rfl | rfl | rfl | rfl | rfl
  · exact ⟨.replace, rfl⟩
  · exact ⟨.exclude, rfl⟩
  · exact ⟨.retract, rfl⟩
  · exact ⟨.toolchain, rfl⟩
  · exact ⟨.godebug, rfl⟩
  · exact ⟨.tool, rfl⟩
  · exact ⟨.ignore, rfl⟩

/-- What can become of a manifest by a directive. -/
theorem cases_of_apply {m m' : Manifest} {verb : String} {args : List String}
    {comment : Option (List Char)} (h : apply m verb args comment = .ok m') :
    (verb = "module" ∧ ∃ name, args = [name] ∧ m.moduleName = none ∧
        m' = { m with moduleName := some name }) ∨
      (verb = "go" ∧ ∃ version, args = [version] ∧ m' = { m with goVersion := some version }) ∨
      (verb = "require" ∧ ∃ name version, args = [name, version] ∧
        m' = { m with requires := m.requires ++ [⟨name, version, marksIndirect comment⟩] }) ∨
      (verb ∈ ignoredVerbs ∧ m' = m) := by
  unfold apply at h
  split at h
  · rename_i hverb
    split at h
    · rename_i name
      split at h
      · cases h
      · rename_i hnone
        cases h
        exact .inl ⟨beq_iff_eq.mp hverb, name, rfl, by simpa using hnone, rfl⟩
    · cases h
  split at h
  · rename_i hverb
    split at h
    · cases h
      exact .inr (.inl ⟨beq_iff_eq.mp hverb, _, rfl, rfl⟩)
    · cases h
  split at h
  · rename_i hverb
    split at h
    · cases h
      exact .inr (.inr (.inl ⟨beq_iff_eq.mp hverb, _, _, rfl, rfl⟩))
    · cases h
  split at h
  · rename_i hverb
    cases h
    exact .inr (.inr (.inr ⟨List.contains_iff_mem.mp hverb, rfl⟩))
  · cases h

theorem isKnown_of_apply {m m' : Manifest} {verb : String} {args : List String}
    {comment : Option (List Char)} (h : apply m verb args comment = .ok m') : IsKnown verb := by
  rcases cases_of_apply h with ⟨hverb, -⟩ | ⟨hverb, -⟩ | ⟨hverb, -⟩ | ⟨hverb, -⟩
  · exact .inl hverb
  · exact .inr (.inl hverb)
  · exact .inr (.inr (.inl hverb))
  · exact .inr (.inr (.inr hverb))

/-- What the reader takes over is a statement. -/
theorem exists_statement {path : String} {before : List Statement} {verb : String}
    {args : List Token} {comment : Option (List Char)} {m : Manifest}
    (h : apply (ofStatements path before) verb (args.map Token.word) comment = .ok m) :
    ∃ s, (Said.mk verb args comment).Means s ∧ m = ofStatements path (before ++ [s]) := by
  rcases cases_of_apply h with ⟨rfl, name, hargs, hnone, rfl⟩ | ⟨rfl, version, hargs, rfl⟩ |
    ⟨rfl, name, version, hargs, rfl⟩ | ⟨hignored, rfl⟩
  · have hfirst : before.filterMap Statement.module? = [] := by
      simpa [ofStatements] using hnone
    refine ⟨⟨.module name, comment⟩, ⟨rfl, hargs.symm, rfl⟩, ?_⟩
    simp [ofStatements, Statement.module?, Statement.goVersion?, Statement.require?, hfirst]
  · refine ⟨⟨.go version, comment⟩, ⟨rfl, hargs.symm, rfl⟩, ?_⟩
    simp [ofStatements, Statement.module?, Statement.goVersion?, Statement.require?]
  · refine ⟨⟨.require name version, comment⟩, ⟨rfl, hargs.symm, rfl⟩, ?_⟩
    simp [ofStatements, Statement.module?, Statement.goVersion?, Statement.require?,
      marksIndirect_eq]
  · obtain ⟨i, rfl⟩ := exists_ignored hignored
    refine ⟨⟨.ignored i (args.map Token.word), comment⟩, ⟨rfl, rfl, rfl⟩, ?_⟩
    simp [ofStatements, Statement.module?, Statement.goVersion?, Statement.require?]

/-- A line that is read adds what it says. -/
theorem exists_statements_of_step {path : String} {before : List Statement} {r r' : Reading}
    {number : Nat} {line : List Char} (hm : r.manifest = ofStatements path before)
    (h : r.step number line = .ok r') :
    ∃ ss, List.Forall₂ Said.Means (said? (r.block.map Block.verb) line).toList ss ∧
      r'.manifest = ofStatements path (before ++ ss) := by
  obtain ⟨l, hl, hcarry, -⟩ := step_eq_ok_iff.mp h
  unfold said?
  rw [tokensOf_of_lex hl, commentOf_of_lex hl]
  unfold Role.carry at hcarry
  cases hg : (roleIn (r.block.map Block.verb) l.tokens).governed? with
  | none =>
    rw [hg] at hcarry
    refine ⟨[], .nil, ?_⟩
    rw [← Except.ok.inj hcarry, hm, List.append_nil]
  | some g =>
    rw [hg, hm] at hcarry
    obtain ⟨s, hs, hm'⟩ := exists_statement hcarry
    exact ⟨[s], .cons hs .nil, hm'⟩

/-- Lines that are read add what they say, in their order. -/
theorem exists_statements_of_steps {path : String} {before : List Statement} {r r' : Reading}
    {number : Nat} {lines : List (List Char)} (hm : r.manifest = ofStatements path before)
    (h : r.steps number lines = .ok r') :
    ∃ ss, List.Forall₂ Said.Means (saidFrom (r.block.map Block.verb) lines) ss ∧
      r'.manifest = ofStatements path (before ++ ss) := by
  induction lines generalizing r number before with
  | nil =>
    cases h
    exact ⟨[], .nil, by rw [hm, List.append_nil]⟩
  | cons line lines ih =>
    rw [Reading.steps] at h
    cases hstep : r.step number line with
    | error fault =>
      rw [hstep] at h
      cases h
    | ok next =>
      rw [hstep] at h
      obtain ⟨ss, hss, hnext⟩ := exists_statements_of_step hm hstep
      obtain ⟨more, hmore, hr'⟩ := ih hnext h
      rw [behind_of_step hstep] at hmore
      exact ⟨ss ++ more, List.rel_append hss hmore, by rw [hr', List.append_assoc]⟩

/-! ## Whole manifests -/

/-- A manifest is read exactly if all its lines are and no block is open behind them. -/
theorem parse_eq_ok_iff {path contents : String} {m : Manifest} :
    parse path contents = .ok m ↔
      ∃ r, (Reading.start path).steps 1 (linesOf contents) = .ok r ∧ r.block = none ∧
        r.manifest = m := by
  have hparse : parse path contents = .ok m ↔ parseText path contents.toList = .ok m := by
    unfold parse
    cases parseText path contents.toList with
    | ok m' => simp
    | error located => simp
  rw [hparse]
  refine bind_eq_ok_iff.trans (exists_congr fun r => and_congr_right fun _ => ?_)
  unfold Reading.finish
  cases r.block with
  | none => simp
  | some b => simp

/-- Up to each line of a manifest that is read, the manifest says what the lines say. -/
theorem exists_reading {path contents : String} {m : Manifest}
    (h : parse path contents = .ok m) {front rest : List (List Char)} {line : List Char}
    (hlines : linesOf contents = front ++ line :: rest) :
    ∃ r r', (Reading.start path).steps 1 front = .ok r ∧ r.step (1 + front.length) line = .ok r' ∧
      r.block.map Block.verb = openBehind front := by
  obtain ⟨last, hlast, -, -⟩ := parse_eq_ok_iff.mp h
  obtain ⟨r, r', hr, hr'⟩ := exists_step_of_steps hlast hlines
  exact ⟨r, r', hr, hr', behindFrom_of_steps hr⟩

/-- A manifest that is read is what its lines say. -/
theorem exists_statements_of_parse {path contents : String} {m : Manifest}
    (h : parse path contents = .ok m) :
    ∃ ss, List.Forall₂ Said.Means (saidIn (linesOf contents)) ss ∧ m = ofStatements path ss := by
  obtain ⟨r, hr, -, rfl⟩ := parse_eq_ok_iff.mp h
  have hstart : (Reading.start path).manifest = ofStatements path [] := rfl
  exact exists_statements_of_steps hstart hr

end Graft.Manifest
