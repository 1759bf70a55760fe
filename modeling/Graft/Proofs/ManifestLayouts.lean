-- What a manifest says does not depend on how it is laid out: a directive on
-- a row of its own says the same as an entry of a block, and the reader
-- finds the module, the last language version and the required modules in
-- the order in which they are written.
import Graft.Proofs.ManifestRows

namespace Graft.Manifest

/-! ## Directives -/

/-- The directives that say nothing about the module, the language or what is required. -/
inductive Ignored
  | replace | exclude | retract | toolchain | godebug | tool | ignore
  deriving DecidableEq, Repr

/-- What a directive opens with. -/
inductive Verb
  | module | go | require
  | ignored (i : Ignored)
  deriving DecidableEq, Repr

def Verb.word : Verb → String
  | .module => "module"
  | .go => "go"
  | .require => "require"
  | .ignored .replace => "replace"
  | .ignored .exclude => "exclude"
  | .ignored .retract => "retract"
  | .ignored .toolchain => "toolchain"
  | .ignored .godebug => "godebug"
  | .ignored .tool => "tool"
  | .ignored .ignore => "ignore"

inductive Directive
  | module (path : String)
  | go (version : String)
  | require (path version : String)
  | ignored (verb : Ignored) (args : List String)
  deriving DecidableEq, Repr

def Directive.verb : Directive → Verb
  | .module _ => .module
  | .go _ => .go
  | .require _ _ => .require
  | .ignored i _ => .ignored i

def Directive.args : Directive → List String
  | .module path => [path]
  | .go version => [version]
  | .require path version => [path, version]
  | .ignored _ args => args

/-- A directive with the comment behind it. -/
structure Statement where
  directive : Directive
  comment : Option (List Char)
  deriving DecidableEq, Repr

namespace Statement

def module? (s : Statement) : Option String :=
  match s.directive with
  | .module path => some path
  | _ => none

def goVersion? (s : Statement) : Option String :=
  match s.directive with
  | .go version => some version
  | _ => none

def require? (s : Statement) : Option Require :=
  match s.directive with
  | .require path version => some ⟨path, version, saysIndirect s.comment⟩
  | _ => none

end Statement

/-- What statements say: the module, the last language version, and what is required in its
order. -/
def ofStatements (path : String) (ss : List Statement) : Manifest where
  path := path
  moduleName := (ss.filterMap Statement.module?).head?
  goVersion := (ss.filterMap Statement.goVersion?).getLast?
  requires := ss.filterMap Statement.require?

/-- At most one of the statements names the module. -/
def NamesOneModule (ss : List Statement) : Prop := (ss.filterMap Statement.module?).length ≤ 1

instance (ss : List Statement) : Decidable (NamesOneModule ss) :=
  inferInstanceAs (Decidable ((ss.filterMap Statement.module?).length ≤ 1))

theorem NamesOneModule.of_append {xs ys : List Statement} (h : NamesOneModule (xs ++ ys)) :
    NamesOneModule xs := by
  unfold NamesOneModule at h ⊢
  rw [List.filterMap_append, List.length_append] at h
  omega

/-! ## Layouts -/

/-- The rows lay out the statements. The first argument is the verb of the block that is
open before them. -/
inductive LaidOut : Option Verb → List Statement → List Row → Prop
  | nil : LaidOut none [] []
  /-- A row without words, in a block or outside. -/
  | silent {verb : Option Verb} {ss : List Statement} {row : Row} {rows : List Row} :
    row.words = [] → LaidOut verb ss rows → LaidOut verb ss (row :: rows)
  /-- A directive on a row of its own. -/
  | alone {s : Statement} {ss : List Statement} {row : Row} {rows : List Row} :
    row.words = s.directive.verb.word :: s.directive.args → row.comment = s.comment →
    LaidOut none ss rows → LaidOut none (s :: ss) (row :: rows)
  | opening {verb : Verb} {ss : List Statement} {row : Row} {rows : List Row} :
    row.words = [verb.word, "("] → LaidOut (some verb) ss rows → LaidOut none ss (row :: rows)
  /-- A directive as an entry of a block of its verb. -/
  | entry {verb : Verb} {s : Statement} {ss : List Statement} {row : Row} {rows : List Row} :
    s.directive.verb = verb → s.directive.args ≠ [] → row.words = s.directive.args →
    row.comment = s.comment → LaidOut (some verb) ss rows →
    LaidOut (some verb) (s :: ss) (row :: rows)
  | closing {verb : Verb} {ss : List Statement} {row : Row} {rows : List Row} :
    row.words = [")"] → LaidOut none ss rows → LaidOut (some verb) ss (row :: rows)
  /-- A block without entries on one row. -/
  | hollow {verb : Verb} {ss : List Statement} {row : Row} {rows : List Row} :
    row.words = [verb.word, "(", ")"] → LaidOut none ss rows → LaidOut none ss (row :: rows)

/-- Words can be written on one row, in quotes if nothing else will do. -/
theorem exists_row {words : List String} (h : ∀ w ∈ words, '\n' ∉ w.toList)
    (comment : Option Comment) :
    ∃ r : Row, r.words = words ∧ r.comment = comment.map Comment.chars ∧ r.IsApart := by
  induction words with
  | nil => exact ⟨.ending ⟨[], by simp, by simp⟩ comment, rfl, rfl, trivial⟩
  | cons w words ih =>
    obtain ⟨hw, hwords⟩ := List.forall_mem_cons.1 h
    obtain ⟨r, hr, hc, hapart⟩ := ih hwords
    let quoted : Word := ⟨.quoted, w.toList, trivial, hw⟩
    have hclear : r.ClearOf quoted := by
      cases r with
      | ending space comment =>
        cases comment with
        | none => trivial
        | some comment => exact fun _ hs => by cases hs
      | word space v rest => exact fun _ hs => by cases hs
    refine ⟨.word ⟨[], by simp, by simp⟩ quoted r, ?_, hc, hclear, hapart⟩
    rw [Row.words, hr, String.ofList_toList]

/-- Statements can be laid out, unless an argument or a comment breaks the line. -/
theorem exists_layout {ss : List Statement}
    (hargs : ∀ s ∈ ss, ∀ a ∈ s.directive.args, '\n' ∉ a.toList)
    (hcomments : ∀ s ∈ ss, ∀ c ∈ s.comment, '\n' ∉ c) :
    ∃ rows : List Row, LaidOut none ss rows ∧ ∀ r ∈ rows, r.IsApart := by
  induction ss with
  | nil => exact ⟨[], .nil, by simp⟩
  | cons s ss ih =>
    obtain ⟨ha, hargs⟩ := List.forall_mem_cons.1 hargs
    obtain ⟨hc, hcomments⟩ := List.forall_mem_cons.1 hcomments
    obtain ⟨rows, hlaid, hapart⟩ := ih hargs hcomments
    obtain ⟨comment, hcomment⟩ : ∃ c : Option Comment, c.map Comment.chars = s.comment := by
      cases hs : s.comment with
      | none => exact ⟨none, rfl⟩
      | some c => exact ⟨some ⟨c, hc c hs⟩, rfl⟩
    have hverb : '\n' ∉ s.directive.verb.word.toList := by
      cases s.directive.verb with
      | ignored i => cases i <;> decide
      | _ => decide
    obtain ⟨r, hwords, hrc, hr⟩ := exists_row (List.forall_mem_cons.2 ⟨hverb, ha⟩) comment
    exact ⟨r :: rows, .alone hwords (hrc.trans hcomment) hlaid,
      List.forall_mem_cons.2 ⟨hr, hapart⟩⟩

/-! ## Taking statements over -/

/-- Every directive is taken over, unless it names the module a second time. -/
theorem apply_ofStatements (path : String) {before : List Statement} {s : Statement}
    {comment : Option (List Char)} (hc : marksIndirect comment = saysIndirect s.comment)
    (hm : NamesOneModule (before ++ [s])) :
    apply (ofStatements path before) s.directive.verb.word s.directive.args comment =
      .ok (ofStatements path (before ++ [s])) := by
  obtain ⟨directive, written⟩ := s
  cases directive with
  | module name =>
    have hnone : before.filterMap Statement.module? = [] := by
      simpa [NamesOneModule, Statement.module?] using hm
    simp [apply, ofStatements, Directive.verb, Directive.args, Verb.word, Statement.module?,
      Statement.goVersion?, Statement.require?, hnone]
  | go version =>
    simp [apply, ofStatements, Directive.verb, Directive.args, Verb.word, Statement.module?,
      Statement.goVersion?, Statement.require?]
  | require name version =>
    simp [apply, ofStatements, Directive.verb, Directive.args, Verb.word, Statement.module?,
      Statement.goVersion?, Statement.require?, hc]
  | ignored i args =>
    have hsame : ofStatements path (before ++ [⟨.ignored i args, written⟩]) =
        ofStatements path before := by
      simp [ofStatements, Statement.module?, Statement.goVersion?, Statement.require?]
    rw [hsame]
    cases i <;> simp [apply, Directive.verb, Verb.word, ignoredVerbs]

/-! ## Rows one after the other -/

/-- A line reads by the words of its row, in a block or outside. -/
theorem step_of_readsFrom {row : Row} {line : List Char} (h : row.ReadsFrom line) (r : Reading)
    (number : Nat) :
    ∃ comment, marksIndirect comment = saysIndirect row.comment ∧
      r.step number line =
        match row.words, r.block with
        | [], _ => .ok r
        | words, some b => r.entry b words comment
        | words, none => r.directive number words comment := by
  obtain ⟨l, hl, hwords, hcomment⟩ := h
  refine ⟨l.comment, hcomment, ?_⟩
  rw [← hwords]
  unfold Reading.step
  rw [hl]
  rfl

/-- No argument can be taken for the parenthesis of a block. -/
def Directive.IsPlain (d : Directive) : Prop := ∀ a ∈ d.args, a ≠ "(" ∧ a ≠ ")"

instance (d : Directive) : Decidable d.IsPlain :=
  inferInstanceAs (Decidable (∀ a ∈ d.args, a ≠ "(" ∧ a ≠ ")"))

section
variable {row : Row} {line : List Char} {verb : Verb} {s : Statement} {before : List Statement}

theorem step_silent (h : row.ReadsFrom line) (hw : row.words = []) (r : Reading) (number : Nat) :
    r.step number line = .ok r := by
  obtain ⟨comment, -, hstep⟩ := step_of_readsFrom h r number
  rw [hstep, hw]

theorem step_opening (h : row.ReadsFrom line) (hw : row.words = [verb.word, "("])
    (m : Manifest) (number : Nat) :
    (⟨m, none⟩ : Reading).step number line = .ok ⟨m, some ⟨verb.word, number⟩⟩ := by
  obtain ⟨comment, -, hstep⟩ := step_of_readsFrom h ⟨m, none⟩ number
  rw [hstep, hw]
  rfl

theorem step_hollow (h : row.ReadsFrom line) (hw : row.words = [verb.word, "(", ")"])
    (m : Manifest) (number : Nat) : (⟨m, none⟩ : Reading).step number line = .ok ⟨m, none⟩ := by
  obtain ⟨comment, -, hstep⟩ := step_of_readsFrom h ⟨m, none⟩ number
  rw [hstep, hw]
  rfl

theorem step_closing (h : row.ReadsFrom line) (hw : row.words = [")"])
    (m : Manifest) (b : Block) (number : Nat) :
    (⟨m, some b⟩ : Reading).step number line = .ok ⟨m, none⟩ := by
  obtain ⟨comment, -, hstep⟩ := step_of_readsFrom h ⟨m, some b⟩ number
  rw [hstep, hw]
  rfl

/-- A directive on a row of its own is taken over. -/
theorem step_alone (h : row.ReadsFrom line)
    (hw : row.words = s.directive.verb.word :: s.directive.args) (hc : row.comment = s.comment)
    (hs : s.directive.IsPlain) (path : String)
    (hm : NamesOneModule (before ++ [s])) (number : Nat) :
    (⟨ofStatements path before, none⟩ : Reading).step number line =
      .ok ⟨ofStatements path (before ++ [s]), none⟩ := by
  obtain ⟨comment, hcomment, hstep⟩ :=
    step_of_readsFrom h ⟨ofStatements path before, none⟩ number
  have hopen : s.directive.args ≠ ["("] := fun he => (hs "(" (by simp [he])).1 rfl
  have hhollow : s.directive.args ≠ ["(", ")"] := fun he => (hs "(" (by simp [he])).1 rfl
  rw [hstep, hw]
  dsimp only [Reading.directive]
  rw [if_neg (by simpa using hopen), if_neg (by simpa using hhollow),
    apply_ofStatements path (hc ▸ hcomment) hm]
  rfl

/-- An entry of a block is taken over. -/
theorem step_entry (h : row.ReadsFrom line) (hne : s.directive.args ≠ [])
    (hw : row.words = s.directive.args) (hc : row.comment = s.comment)
    (hs : s.directive.IsPlain) (path : String)
    (hm : NamesOneModule (before ++ [s])) {b : Block}
    (hb : b.verb = s.directive.verb.word) (number : Nat) :
    (⟨ofStatements path before, some b⟩ : Reading).step number line =
      .ok ⟨ofStatements path (before ++ [s]), some b⟩ := by
  obtain ⟨comment, hcomment, hstep⟩ :=
    step_of_readsFrom h ⟨ofStatements path before, some b⟩ number
  have hclose : s.directive.args ≠ [")"] := fun he => (hs ")" (by simp [he])).2 rfl
  obtain ⟨a, as, ha⟩ := List.exists_cons_of_ne_nil hne
  rw [hstep, hw, ha]
  dsimp only [Reading.entry]
  rw [← ha, hb, if_neg (by simpa using hclose), apply_ofStatements path (hc ▸ hcomment) hm]
  rfl

end

/-! ## All rows -/

theorem steps_cons {r r' : Reading} {number : Nat} {line : List Char}
    (h : r.step number line = .ok r') (lines : List (List Char)) :
    r.steps number (line :: lines) = r'.steps (number + 1) lines := by
  rw [Reading.steps, h]

/-- An empty line at the end says nothing. -/
theorem steps_concat_nil (r : Reading) (number : Nat) (lines : List (List Char)) :
    r.steps number (lines ++ [[]]) = r.steps number lines := by
  induction lines generalizing r number with
  | nil =>
    have hstep : r.step number [] = .ok r := by
      unfold Reading.step lex
      rw [lexFrom.eq_def]
      rfl
    exact steps_cons hstep []
  | cons line lines ih =>
    rw [List.cons_append, Reading.steps, Reading.steps]
    cases r.step number line with
    | error fault => rfl
    | ok r' => exact ih r' (number + 1)

/-- The first of the rows has a first line, and the other rows have the other lines. -/
theorem exists_first_line {row : Row} {rows : List Row} {written : List (Row × List Char)}
    (hrows : written.map Prod.fst = row :: rows) (hread : ∀ r ∈ written, r.1.ReadsFrom r.2) :
    ∃ (line : List Char) (more : List (Row × List Char)), row.ReadsFrom line ∧
      written.map Prod.snd = line :: more.map Prod.snd ∧
      more.map Prod.fst = rows ∧ ∀ r ∈ more, r.1.ReadsFrom r.2 := by
  obtain ⟨⟨row, line⟩, more, rfl, rfl, hmore⟩ := List.map_eq_cons_iff.1 hrows
  obtain ⟨hline, hread⟩ := List.forall_mem_cons.1 hread
  exact ⟨line, more, hline, rfl, hmore, hread⟩

/-- What is read from rows that lay out statements is what the statements say. -/
theorem LaidOut.steps {verb : Option Verb} {ss : List Statement} {rows : List Row}
    (h : LaidOut verb ss rows) (path : String) {written : List (Row × List Char)}
    (hrows : written.map Prod.fst = rows) (hread : ∀ r ∈ written, r.1.ReadsFrom r.2)
    (hplain : ∀ s ∈ ss, s.directive.IsPlain) {before : List Statement}
    (hm : NamesOneModule (before ++ ss)) {block : Option Block}
    (hb : block.map Block.verb = verb.map Verb.word) (number : Nat) :
    Reading.steps ⟨ofStatements path before, block⟩ number (written.map Prod.snd) =
      .ok ⟨ofStatements path (before ++ ss), none⟩ := by
  induction h generalizing written before block number with
  | nil =>
    obtain rfl := List.map_eq_nil_iff.1 hrows
    obtain rfl := Option.map_eq_none_iff.1 hb
    rw [List.append_nil]
    rfl
  | silent hw hrest ih =>
    obtain ⟨line, more, hline, hlines, hrows', hread'⟩ := exists_first_line hrows hread
    rw [hlines, steps_cons (step_silent hline hw _ number)]
    exact ih hrows' hread' hplain hm hb _
  | @alone s ss _ _ hw hc hrest ih =>
    obtain ⟨line, more, hline, hlines, hrows', hread'⟩ := exists_first_line hrows hread
    obtain ⟨hs, hplain⟩ := List.forall_mem_cons.1 hplain
    obtain rfl := Option.map_eq_none_iff.1 hb
    rw [List.append_cons] at hm ⊢
    rw [hlines, steps_cons (step_alone hline hw hc hs path hm.of_append number)]
    exact ih hrows' hread' hplain hm rfl _
  | opening hw hrest ih =>
    obtain ⟨line, more, hline, hlines, hrows', hread'⟩ := exists_first_line hrows hread
    obtain rfl := Option.map_eq_none_iff.1 hb
    rw [hlines, steps_cons (step_opening hline hw _ number)]
    exact ih hrows' hread' hplain hm rfl _
  | @entry verb s ss _ _ hv hne hw hc hrest ih =>
    obtain ⟨line, more, hline, hlines, hrows', hread'⟩ := exists_first_line hrows hread
    obtain ⟨hs, hplain⟩ := List.forall_mem_cons.1 hplain
    obtain ⟨b, rfl, hverb⟩ := Option.map_eq_some_iff.1 hb
    rw [← hv] at hverb
    rw [List.append_cons] at hm ⊢
    rw [hlines, steps_cons (step_entry hline hne hw hc hs path hm.of_append hverb number)]
    exact ih hrows' hread' hplain hm hb _
  | closing hw hrest ih =>
    obtain ⟨line, more, hline, hlines, hrows', hread'⟩ := exists_first_line hrows hread
    obtain ⟨b, rfl, -⟩ := Option.map_eq_some_iff.1 hb
    rw [hlines, steps_cons (step_closing hline hw _ b number)]
    exact ih hrows' hread' hplain hm rfl _
  | hollow hw hrest ih =>
    obtain ⟨line, more, hline, hlines, hrows', hread'⟩ := exists_first_line hrows hread
    obtain rfl := Option.map_eq_none_iff.1 hb
    rw [hlines, steps_cons (step_hollow hline hw _ number)]
    exact ih hrows' hread' hplain hm rfl _

/-- The lines of a page read as what its rows say. -/
theorem steps_page (path : String) {ss : List Statement} {p : Page} (hm : NamesOneModule ss)
    (hplain : ∀ s ∈ ss, s.directive.IsPlain) (hlaid : LaidOut none ss p.allRows)
    (hapart : ∀ r ∈ p.allRows, r.IsApart) :
    Reading.steps ⟨empty path, none⟩ 1 (Text.lines p.text) = .ok ⟨ofStatements path ss, none⟩ := by
  have hread : ∀ r ∈ p.written, r.1.ReadsFrom r.2 :=
    fun _ hr => Page.readsFrom_of_mem_written hapart hr
  have hm' : NamesOneModule ([] ++ ss) := hm
  have hb : (none : Option Block).map Block.verb = (none : Option Verb).map Verb.word := rfl
  have hsteps := hlaid.steps path p.fst_written hread hplain hm' hb 1
  rw [← p.lines_text] at hsteps
  split at hsteps
  · rw [steps_concat_nil] at hsteps
    exact hsteps
  · rw [List.append_nil] at hsteps
    exact hsteps

/-- However statements are laid out, they are read, and the manifest says what they say. -/
theorem every_layout_reads_as_its_statements (path : String) {ss : List Statement} {p : Page}
    (hm : NamesOneModule ss) (hplain : ∀ s ∈ ss, s.directive.IsPlain)
    (hlaid : LaidOut none ss p.allRows) (hapart : ∀ r ∈ p.allRows, r.IsApart) :
    parse path (String.ofList p.text) = .ok (ofStatements path ss) := by
  have hsteps := steps_page path hm hplain hlaid hapart
  unfold parse parseText
  rw [String.toList_ofList, hsteps]
  rfl

namespace Sample

def bare (value : List Char) (h : value ≠ [] ∧ bareRun value = (value, [])) : Word where
  spelling := .bare
  value := value
  allowed := allows_bare_iff.2 h
  unbroken hn := by cases (allows_bare_iff.2 h).2.1 _ hn

def opened : Word := ⟨.paren, ['('], .inl rfl, by decide⟩

def closed : Word := ⟨.paren, [')'], .inr rfl, by decide⟩

def noSpace : Space := ⟨[], by simp, by decide⟩

def gap : Space := ⟨[' '], by simp [Text.isBlank], by decide⟩

def tab : Space := ⟨['\t'], by simp [Text.isBlank], by decide⟩

/-- The manifest of the shop, with a quoted module, a block and a last row without an end. -/
def shopPage : Page where
  rows :=
    [(.word noSpace (bare "module".toList (by decide))
        (.word gap ⟨.quoted, "shop app".toList, trivial, by decide⟩
          (.ending noSpace none)), .crlf),
     (.ending noSpace none, .lf),
     (.word noSpace (bare "go".toList (by decide))
        (.word gap (bare "1.20".toList (by decide))
          (.ending gap (some ⟨" the oldest".toList, by decide⟩))), .lf),
     (.word noSpace (bare "require".toList (by decide))
        (.word noSpace opened (.ending noSpace none)), .crlf),
     (.word tab (bare "goyave.dev/goyave/v5".toList (by decide))
        (.word gap ⟨.raw, "v5.0.0".toList, by simp [Spelling.Allows], by decide⟩
          (.ending noSpace (some ⟨"indirect; kept".toList, by decide⟩))), .lf),
     (.word noSpace closed (.ending gap none), .lf),
     (.word noSpace (bare "tool".toList (by decide))
        (.word noSpace opened (.word noSpace closed (.ending noSpace none))), .lf)]
  last :=
    .word noSpace (bare "go".toList (by decide))
      (.word gap (bare "1.22".toList (by decide)) (.ending noSpace none))

def shopStatements : List Statement :=
  [⟨.module "shop app", none⟩, ⟨.go "1.20", some " the oldest".toList⟩,
    ⟨.require "goyave.dev/goyave/v5" "v5.0.0", some "indirect; kept".toList⟩, ⟨.go "1.22", none⟩]

def shopText : String :=
  "module \"shop app\"\r\n" ++ "\n" ++ "go 1.20 // the oldest\n" ++ "require(\r\n" ++
    "\tgoyave.dev/goyave/v5 \x60v5.0.0\x60//indirect; kept\n" ++ ") \n" ++ "tool()\n" ++
    "go 1.22"

theorem text_shopPage : String.ofList shopPage.text = shopText := by decide

theorem laidOut_shopPage : LaidOut none shopStatements shopPage.allRows := by
  refine .alone rfl rfl (.silent rfl (.alone rfl rfl ?_))
  refine @LaidOut.opening .require _ _ _ rfl (.entry rfl (by decide) rfl rfl ?_)
  exact .closing rfl (@LaidOut.hollow (.ignored .tool) _ _ _ rfl (.alone rfl rfl .nil))

theorem the_manifest_of_the_shop_reads_as_its_statements :
    parse "go.mod" shopText =
      .ok ⟨"go.mod", some "shop app", some "1.22",
        [⟨"goyave.dev/goyave/v5", "v5.0.0", true⟩]⟩ := by
  have hread := every_layout_reads_as_its_statements "go.mod"
    (by decide : NamesOneModule shopStatements) (by decide) laidOut_shopPage (by decide)
  rw [← text_shopPage, hread]
  exact congrArg Except.ok (by decide)

end Sample

end Graft.Manifest
