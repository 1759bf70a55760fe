-- The blocks of the four stubs that are injected. The functions of the stubs
-- are read around the calls in them, whatever names and paths are filled in,
-- as long as these can stand in Go source where they are filled in.
import Graft.Proofs.StubSources

namespace Graft

open Go

/-! ## Functions of statements -/

namespace Go

/-- The outline of a function up to the brace of its body: two brackets and a result. -/
def isHeader (gs : List Outline) : Bool :=
  match gs with
  | word :: name :: header =>
    word == (.keyword .funcWord, true) && name == (.name, false) && isSignature 60 2 header &&
      header.getLast? == some (.mark .braceOpen, false)
  | _ => false

theorem head?_of_isHeader {gs : List Outline} (h : isHeader gs = true) :
    gs.head? = some (.keyword .funcWord, true) := by
  unfold isHeader at h
  split at h
  · simp only [Bool.and_eq_true, beq_iff_eq] at h
    rw [List.head?_cons, h.1.1.1]
  · cases h

theorem refuses_at_brace :
    refuses 110 ⟨true, true⟩ (.part .statement) [(.mark .braceClose, false)] = true := by
  decide

/-- The glyphs are read as statements, each on a line of its own, and state this. -/
def AreStatements (es : List (List Glyph × Gist)) : Prop :=
  ∀ e ∈ es, ∀ xs : List Item, xs.map Item.glyph = e.1 →
    IsEntry 110 ⟨true, true⟩ (.part .statement) (· ∈ lineWords) xs e.2

/-- A first statement, and others on lines of their own up to the brace of a body. -/
theorem reads_statements {first close : List Glyph} {es : List (List Glyph × Gist)}
    {xs : List Item}
    (hfirst : leavesNext 110 (.part .statement) (first.map Glyph.outline) = true)
    (hes : AreStatements es) (hclose : close.map Glyph.outline = [(.mark .braceClose, true)])
    (hx : xs.map Item.glyph = first ++ es.flatMap Prod.fst ++ close) :
    ∃ body brace, xs = body ++ [brace] ∧ brace.token.sort = .mark .braceClose ∧
      ∀ rest, ∃ ss, Reads (116 + es.length) ⟨true, true⟩ (.part .statementList)
        (body ++ brace :: rest) (some (ss, brace.unlined :: rest)) ∧
        States (.all (es.map Prod.snd)) ss := by
  obtain ⟨body, bs, rfl, hbody, hbs⟩ := List.map_eq_append_iff.mp hx
  obtain ⟨ys, zs, rfl, hys, hzs⟩ := List.map_eq_append_iff.mp hbody
  obtain ⟨ds, rfl, rfl, hds⟩ := parted_of_glyphs hzs
  obtain ⟨brace, rfl, hbrace⟩ :=
    List.map_eq_singleton_iff.mp ((outlines_of_glyphs hbs).trans hclose)
  refine ⟨_, brace, rfl, sort_of_outline hbrace, fun rest => ?_⟩
  have hends : brace.unlined.outline = (.mark .braceClose, false) := by
    rw [← sort_of_outline hbrace]
    rfl
  have hopens : Opens (· ∈ lineWords) (brace :: rest) := by
    refine ⟨brace, rest, rfl, opensLine_of_outline hbrace, ?_⟩
    rw [sort_of_outline hbrace]
    decide
  have hentries : ∀ e ∈ ds.map fun e => (e.1, e.2.2),
      IsEntry 110 ⟨true, true⟩ (.part .statement) (· ∈ lineWords) e.1 e.2 := by
    intro e he
    obtain ⟨entry, hentry, rfl⟩ := List.mem_map.mp he
    exact hes entry.2 (List.mem_map_of_mem hentry) entry.1 (hds entry hentry)
  obtain ⟨ts, hmany, hts⟩ :=
    readsMany_entries hentries hopens (reads_refused refuses_at_brace hends rest) (by omega)
  obtain ⟨ss, hread, hss⟩ :=
    reads_of_leavesNext (outlines_of_glyphs hys) hfirst (opens_entries hentries hopens)
  have hlist := (reads_entries (hread.mono (by omega)) hmany (opensLine_of_outline hbrace)
    (by omega)).part (p := .statementList)
  simp only [List.flatMap_map, List.length_map, List.map_map] at hlist hts ⊢
  refine ⟨_, ?_, hts.after hss⟩
  rw [List.append_assoc]
  exact hlist.mono (by omega)

/-- A function of statements is one declaration, and states what they state. -/
theorem isDeclaration_statements {next : Class} {header first close : List Glyph}
    {es : List (List Glyph × Gist)} {xs : List Item}
    (hheader : isHeader (header.map Glyph.outline) = true)
    (hfirst : leavesNext 110 (.part .statement) (first.map Glyph.outline) = true)
    (hes : AreStatements es) (hclose : close.map Glyph.outline = [(.mark .braceClose, true)])
    (hx : xs.map Item.glyph = header ++ (first ++ es.flatMap Prod.fst ++ close)) :
    IsDeclaration (146 + es.length) next (unlinedHead xs) (.all (es.map Prod.snd)) := by
  obtain ⟨hs, bs, rfl, hhs, hbs⟩ := List.map_eq_append_iff.mp hx
  obtain ⟨body, close, rfl, hbrace, hbody⟩ := reads_statements hfirst hes hclose hbs
  rw [← outlines_of_glyphs hhs] at hheader
  unfold isHeader at hheader
  split at hheader
  · next word name header hhead =>
    obtain ⟨w, hs, rfl, rfl, hhs⟩ := List.map_eq_cons_iff.mp hhead
    obtain ⟨m, hs, rfl, rfl, rfl⟩ := List.map_eq_cons_iff.mp hhs
    simp only [Bool.and_eq_true, beq_iff_eq] at hheader
    obtain ⟨⟨⟨hword, hname⟩, hsignature⟩, hlast⟩ := hheader
    obtain ⟨ys, hys⟩ := List.getLast?_eq_some_iff.mp hlast
    obtain ⟨front, bs, rfl, rfl, hbs⟩ := List.map_eq_append_iff.mp hys
    obtain ⟨brace, rfl, hopens⟩ := List.map_eq_singleton_iff.mp hbs
    have hunlined : w.unlined.outline = (.keyword .funcWord, false) := by
      rw [← sort_of_outline hword]
      rfl
    have hnamed : canName [] m.token.sort = true := by
      rw [sort_of_outline hname]
      rfl
    have hfunction : IsDeclaration _ next _ _ := isDeclaration_function hunlined hnamed hsignature
      hopens hbody hbrace (by omega)
    have hitems : unlinedHead (w :: m :: (front ++ [brace]) ++ (body ++ [close])) =
        w.unlined :: m :: (front ++ brace :: (body ++ [close])) := by simp [unlinedHead]
    rw [hitems]
    exact hfunction.mono (by omega)
  · cases hheader

end Go

namespace Stub

/-! ## The blocks of the stubs -/

namespace Content

/-- The items for each block of the layout. -/
def imports : Content → List Item
  | whole _ => []
  | filling imports _ _ => imports

def symbols : Content → List Item
  | whole _ => []
  | filling _ symbols _ => symbols

def body : Content → List Item
  | whole _ => []
  | filling _ _ body => body

end Content

section Imports

variable {d : Data} {p : Param}

theorem isWritable_named {name path : String} (hn : IsWord name.toList) (hp : IsImportPath path) :
    (Import.mk (some name) path).IsWritable where
  name _ h := by
    cases h
    exact hn
  path := hp

/-- The names that the stubs give to what they import. -/
theorem isWord_ownName :
    ∀ name ∈ ["_", "gyvconfig", "gyvdatabase", "gyvgoyave", "gyvopenapi3"],
      IsWord name.toList := by
  decide

/-- The paths, and the ends of paths, that the stubs themselves state. -/
theorem isImportPath_ownPath :
    ∀ path ∈ ["", "/config", "/database", "goyave.dev/openapi3"], IsImportPath path := by
  decide

/-- The line of an import whose path opens with a parameter. -/
theorem seen_importAt {lead name more tail : String} (hp : d.Gives [p])
    (hpath : IsImportPath (d.shown p)) (hname : IsWord name.toList) (hmore : IsImportPath more)
    (hlead : lead.toList = '\t' :: (name.toList ++ [' ', '"']))
    (htail : tail.toList = more.toList ++ ['"']) :
    Seen d noBlocks [.line [.text lead, .hole p, .text tail]]
      (lineGlyphs (Import.mk (some name) (d.shown p ++ more)).line) := by
  refine seen_import (isWritable_named hname (hpath.append hmore)) ?_
  have hline := ((lineIs_nil (d := d) "").text tail).hole hp |>.text lead
  simpa [hlead, htail, Import.display] using hline

/-- The line of an import whose path is a parameter. -/
theorem seen_importOf {lead name : String} (hp : d.Gives [p]) (hpath : IsImportPath (d.shown p))
    (hname : IsWord name.toList) (hlead : lead.toList = '\t' :: (name.toList ++ [' ', '"'])) :
    Seen d noBlocks [.line [.text lead, .hole p, .text "\""]]
      (lineGlyphs (Import.mk (some name) (d.shown p)).line) := by
  have hline : Seen d noBlocks [.line [.text lead, .hole p, .text "\""]]
      (lineGlyphs (Import.mk (some name) (d.shown p ++ "")).line) :=
    seen_importAt hp hpath hname (isImportPath_ownPath _ (by simp)) hlead (by simp)
  rwa [String.append_empty] at hline

/-- The imports of the settings and of the database. -/
def databaseImports (d : Data) : List Import :=
  [⟨some "gyvconfig", d.shown .goyaveImportPath ++ "/config"⟩,
   ⟨some "gyvdatabase", d.shown .goyaveImportPath ++ "/database"⟩]

theorem seen_config (hp : d.Gives [.goyaveImportPath])
    (hpath : IsImportPath (d.shown .goyaveImportPath)) :
    Seen d noBlocks [.line [.text "\tgyvconfig \"", .hole .goyaveImportPath, .text "/config\""]]
      (lineGlyphs (Import.mk (some "gyvconfig") (d.shown .goyaveImportPath ++ "/config")).line) :=
  seen_importAt hp hpath (isWord_ownName _ (by simp)) (isImportPath_ownPath _ (by simp)) (by simp)
    (by simp)

theorem seen_database (hp : d.Gives [.goyaveImportPath])
    (hpath : IsImportPath (d.shown .goyaveImportPath)) :
    Seen d noBlocks [.line [.text "\tgyvdatabase \"", .hole .goyaveImportPath, .text "/database\""]]
      (lineGlyphs (Import.mk (some "gyvdatabase")
        (d.shown .goyaveImportPath ++ "/database")).line) :=
  seen_importAt hp hpath (isWord_ownName _ (by simp)) (isImportPath_ownPath _ (by simp)) (by simp)
    (by simp)

/-- A line that is repeated for each entry, as a call of a function of a package. -/
theorem seen_calls (hp : d.Gives [.seederPackage, .seeders])
    (hpackage : IsIdentifier (d.shown .seederPackage))
    (hseeders : ∀ e ∈ d.entries .seeders, IsIdentifier e) :
    Seen d noBlocks [.each .seeders [.text "\t", .hole .seederPackage, .text ".", .entry, .text "()"]]
      ((d.entries .seeders).flatMap (selectedGlyphs (d.shown .seederPackage))) := by
  have hlines : ∀ e ∈ d.entries .seeders,
      LineIs d e [.text "\t", .hole .seederPackage, .text ".", .entry, .text "()"]
        (spelled (selectedLine (d.shown .seederPackage) e)) := by
    intro e he
    have hline := ((((lineIs_nil (d := d) e).text "()").entry).text ".").hole (p := .seederPackage)
      (hp.mono (by simp)) |>.text "\t"
    simpa [selectedLine, Lexeme.word, Lexeme.dot, Lexeme.opening, Lexeme.closing] using hline
  have hcut : ∀ e ∈ d.entries .seeders, areCut (selectedLine (d.shown .seederPackage) e) = true :=
    fun e he => areCut_selectedLine hpackage (hseeders e he)
  have hseen : Seen d noBlocks _ _ := .each (hp.mono (by simp)) hlines hcut
  have hglyphs := List.map_congr_left fun e he =>
    lineGlyphs_selectedLine hpackage (hseeders e he)
  rwa [List.flatMap_def, hglyphs, ← List.flatMap_def] at hseen

end Imports

/-- The entries of the stubs in the table of symbols. -/
theorem symbol_sections :
    ∀ c ∈ [Injection.migrate, Injection.seed, Injection.clear, Injection.openapi],
      IsSection c.symbols [] (· == tableEntry) := by
  intro c hc
  simp only [List.mem_cons, List.not_mem_nil, or_false] at hc
  rcases hc with rfl | rfl | rfl | rfl
  all_goals
    apply Exists.intro
    apply And.intro
    · simp only [Content.symbols, Injection.migrate, Injection.seed, Injection.clear,
        Injection.openapi]
      repeat first | apply Written.nil | apply Written.own
    · decide +kernel

/-- The functions of the stubs for models. -/
theorem model_sections : ∀ c ∈ [Injection.migrate, Injection.clear],
    IsSection c.body [] (isDeclaration 250 (.keyword .funcWord) (.keyword .funcWord)) := by
  intro c hc
  simp only [List.mem_cons, List.not_mem_nil, or_false] at hc
  rcases hc with rfl | rfl
  all_goals
    apply Exists.intro
    apply And.intro
    · simp only [Content.body, Injection.migrate, Injection.clear]
      repeat first | apply Written.nil | apply Written.blank | apply Written.own
    · decide +kernel

/-- The function of the seed stub around its calls. -/
theorem seed_sections :
    IsSection (Injection.seed.body.take 3) [] isHeader ∧
      IsSection ((Injection.seed.body.drop 3).take 3) [] (leavesNext 110 (.part .statement)) ∧
      IsSection ((Injection.seed.body.drop 6).take 2) [] (isPlainEntry 110 (.part .statement)) ∧
      IsSection ((Injection.seed.body.drop 9).take 1) [] (isPlainEntry 110 (.part .statement)) ∧
      IsSection (Injection.seed.body.drop 10) [] (· == [(.mark .braceClose, true)]) := by
  refine ⟨?_, ?_, ?_, ?_, ?_⟩
  all_goals
    apply Exists.intro
    apply And.intro
    · simp only [Content.body, Injection.seed, List.drop_succ_cons, List.drop_zero,
        List.take_succ_cons, List.take_zero]
      repeat first | apply Written.nil | apply Written.blank | apply Written.own
    · decide +kernel

/-- The function of the stub for the routes around its calls. -/
theorem openapi_sections :
    IsSection (Injection.openapi.body.take 3) [] isHeader ∧
      IsSection ((Injection.openapi.body.drop 3).take 4) [] (leavesNext 110 (.part .statement)) ∧
      IsSection ((Injection.openapi.body.drop 7).take 1) [] (isPlainEntry 110 (.part .statement)) ∧
      IsSection ((Injection.openapi.body.drop 9).take 2) [] (isPlainEntry 110 (.part .statement)) ∧
      IsSection ((Injection.openapi.body.drop 11).take 1) []
        (isPlainEntry 110 (.part .statement)) ∧
      IsSection (Injection.openapi.body.drop 12) [] (· == [(.mark .braceClose, true)]) := by
  refine ⟨?_, ?_, ?_, ?_, ?_, ?_⟩
  all_goals
    apply Exists.intro
    apply And.intro
    · simp only [Content.body, Injection.openapi, List.drop_succ_cons, List.drop_zero,
        List.take_succ_cons, List.take_zero]
      repeat first | apply Written.nil | apply Written.blank | apply Written.own
    · decide +kernel

section Blocks

variable {d : Data}

/-- The imports of the settings and of the database, and one more. -/
theorem seen_databaseImports {i : Import} {pieces : List Piece} (hp : d.Gives [.goyaveImportPath])
    (hpath : IsImportPath (d.shown .goyaveImportPath))
    (h : Seen d noBlocks [.line pieces] (lineGlyphs i.line)) :
    Seen d noBlocks
      [.line [.text "\tgyvconfig \"", .hole .goyaveImportPath, .text "/config\""],
       .line [.text "\tgyvdatabase \"", .hole .goyaveImportPath, .text "/database\""],
       .line pieces] (importGlyphs (databaseImports d ++ [i])) := by
  have hall := (seen_config hp hpath).append
    ((seen_database hp hpath).append h)
  simpa [importGlyphs, databaseImports] using hall

theorem isWritable_databaseImports (hpath : IsImportPath (d.shown .goyaveImportPath)) :
    ∀ i ∈ databaseImports d, i.IsWritable := by
  simp only [databaseImports, List.forall_mem_cons, List.not_mem_nil, false_implies, implies_true,
    and_true]
  exact ⟨isWritable_named (isWord_ownName _ (by simp))
      (hpath.append (isImportPath_ownPath _ (by simp))),
    isWritable_named (isWord_ownName _ (by simp)) (hpath.append (isImportPath_ownPath _ (by simp)))⟩

/-! ## Stubs for models -/

/-- The values for models can be written. -/
structure Data.NamesModels (d : Data) : Prop where
  gives : d.Gives [.goyaveImportPath, .modelImportPath]
  framework : IsImportPath (d.shown .goyaveImportPath)
  models : IsImportPath (d.shown .modelImportPath)

/-- What the stubs for models import. -/
def modelImports (d : Data) : List Import :=
  databaseImports d ++ [⟨some "_", d.shown .modelImportPath⟩]

theorem blocksRead_models (h : d.NamesModels) {c : Content}
    (hc : c ∈ [Injection.migrate, Injection.clear]) :
    BlocksRead d c.imports c.symbols c.body (modelImports d) [] where
  imports := by
    have hseen : Seen d noBlocks [.line [.text "\t_ \"", .hole .modelImportPath, .text "\""]]
        (lineGlyphs (Import.mk (some "_") (d.shown .modelImportPath)).line) :=
      seen_importOf (h.gives.mono (by simp)) h.models (isWord_ownName _ (by simp)) (by simp)
    have hall := seen_databaseImports (h.gives.mono (by simp)) h.framework hseen
    simp only [List.mem_cons, List.not_mem_nil, or_false] at hc
    rcases hc with rfl | rfl
    · exact hall
    · exact hall
  writable := by
    intro i hi
    rcases List.mem_append.mp hi with hi | hi
    · exact isWritable_databaseImports h.framework i hi
    · rw [List.mem_singleton.mp hi]
      exact isWritable_named (isWord_ownName _ (by simp)) h.models
  few := by simp [modelImports, databaseImports]
  symbols := symbol_sections c <| by
    simp only [List.mem_cons, List.not_mem_nil, or_false] at hc ⊢
    rcases hc with rfl | rfl
    · exact .inl rfl
    · exact .inr (.inr (.inl rfl))
  body := by
    obtain ⟨gs, hseen, hgs⟩ := (model_sections c hc).seen_closed d noBlocks
    exact ⟨gs, 250, hseen, head?_of_isDeclaration hgs, by omega,
      fun xs hx => isDeclaration_of_glyphs hgs hx⟩

/-! ## The stub for seeders -/

/-- The values for seeders can be written: the package and its functions have names. -/
structure Data.NamesSeeders (d : Data) : Prop where
  gives : d.Gives [.goyaveImportPath, .seederImportPath, .seederPackage, .seeders]
  framework : IsImportPath (d.shown .goyaveImportPath)
  path : IsImportPath (d.shown .seederImportPath)
  package : IsIdentifier (d.shown .seederPackage)
  seeders : ∀ s ∈ d.entries .seeders, IsIdentifier s

/-- What the stub for seeders imports. -/
def seederImports (d : Data) : List Import :=
  databaseImports d ++ [⟨some (d.shown .seederPackage), d.shown .seederImportPath⟩]

/-- The calls of the seeders. -/
def seederCalls (d : Data) : List Site :=
  (d.entries .seeders).map fun s => (.selector (.ident (d.shown .seederPackage)) s, [])

/-- The import whose name and path are parameters. -/
theorem seen_seederImport (h : d.NamesSeeders) :
    Seen d noBlocks
      [.line [.text "\t", .hole .seederPackage, .text " \"", .hole .seederImportPath, .text "\""]]
      (lineGlyphs (Import.mk (some (d.shown .seederPackage)) (d.shown .seederImportPath)).line) := by
  refine seen_import (isWritable_named h.package.1 h.path) ?_
  have hline := (((lineIs_nil (d := d) "").text "\"").hole (p := .seederImportPath)
    (h.gives.mono (by simp)) |>.text " \"").hole (p := .seederPackage)
    (h.gives.mono (by simp)) |>.text "\t"
  simpa [Import.display] using hline

/-- Statements stand on lines, so they are not empty. -/
theorem length_le_flatMap {es : List (List Glyph × Gist)} (h : AreStatements es) :
    es.length ≤ (es.flatMap Prod.fst).length := by
  induction es with
  | nil => exact Nat.le_refl 0
  | cons e es ih =>
    have hrest := ih fun e' he' => h e' (List.mem_cons_of_mem e he')
    have hfirst : 0 < e.1.length := by
      refine List.length_pos_iff.mpr fun hempty => ?_
      obtain ⟨i, is, hnone, -⟩ := (h e List.mem_cons_self [] hempty.symm).opens
      cases hnone
    rw [List.flatMap_cons, List.length_append, List.length_cons]
    omega

/-- A function of statements is read whatever it is filled with. -/
theorem isFunction_of_statements {items : List Item} {calls : List Site}
    {header first close : List Glyph} {es : List (List Glyph × Gist)}
    (hseen : Seen d noBlocks items (header ++ (first ++ es.flatMap Prod.fst ++ close)))
    (hheader : isHeader (header.map Glyph.outline) = true)
    (hfirst : leavesNext 110 (.part .statement) (first.map Glyph.outline) = true)
    (hes : AreStatements es) (hclose : close.map Glyph.outline = [(.mark .braceClose, true)])
    (hcalls : Gist.all (es.map Prod.snd) = ⟨[], calls⟩) : IsFunction d items calls := by
  have hlength := length_le_flatMap hes
  refine ⟨_, 146 + es.length, hseen, ?_, ?_, fun xs hx => ?_⟩
  · rw [List.map_append, List.head?_append, head?_of_isHeader hheader]
    rfl
  · simp only [List.length_append]
    omega
  · rw [← hcalls]
    exact isDeclaration_statements hheader hfirst hes hclose hx

theorem all_calls (sites : List Site) : Gist.all (sites.map fun c => ⟨[], [c]⟩) = ⟨[], sites⟩ := by
  induction sites with
  | nil => rfl
  | cons c sites ih =>
    rw [List.map_cons, ← Gist.all_pair, ih]
    simp [Gist.all]

/-- Calls between two other statements. -/
theorem all_around (sites : List Site) :
    Gist.all (.none :: (sites.map fun c => ⟨[], [c]⟩) ++ [.none]) = ⟨[], sites⟩ := by
  have hcalls := all_calls sites
  simp only [Gist.all, Gist.none, Gist.mk.injEq] at hcalls ⊢
  simpa using hcalls

theorem seed_body : Injection.seed.body = Injection.seed.body.take 3 ++
    ((Injection.seed.body.drop 3).take 3 ++ ((Injection.seed.body.drop 6).take 2 ++
      ([.each .seeders [.text "\t", .hole .seederPackage, .text ".", .entry, .text "()"]] ++
        ((Injection.seed.body.drop 9).take 1 ++ Injection.seed.body.drop 10)))) := rfl

/-- The function of the stub for seeders calls them one after the other. -/
theorem isFunction_seeders (h : d.NamesSeeders) :
    IsFunction d Injection.seed.body (seederCalls d) := by
  obtain ⟨hheader, hfirst, hdefer, hreturn, hclose⟩ := seed_sections
  obtain ⟨header, hseenHeader, hheader⟩ := hheader.seen_closed d noBlocks
  obtain ⟨first, hseenFirst, hfirst⟩ := hfirst.seen_closed d noBlocks
  obtain ⟨gs₁, hseen₁, hgs₁⟩ := hdefer.seen_closed d noBlocks
  obtain ⟨gs₂, hseen₂, hgs₂⟩ := hreturn.seen_closed d noBlocks
  obtain ⟨close, hseenClose, hclose⟩ := hclose.seen_closed d noBlocks
  have hseen := seen_calls (h.gives.mono (by simp)) h.package h.seeders
  have hes : AreStatements ((gs₁, .none) :: ((d.entries .seeders).map fun s =>
      (selectedGlyphs (d.shown .seederPackage) s,
        Gist.mk [] [(.selector (.ident (d.shown .seederPackage)) s, [])])) ++
      [(gs₂, .none)]) := by
    intro e he xs hx
    simp only [List.mem_append, List.mem_cons, List.not_mem_nil, or_false, List.mem_map] at he
    rcases he with (rfl | ⟨s, -, rfl⟩) | rfl
    · exact isEntry_of_isPlainEntry (outlines_of_glyphs hx) hgs₁
    · exact isEntry_selected hx
    · exact isEntry_of_isPlainEntry (outlines_of_glyphs hx) hgs₂
  refine isFunction_of_statements ?_ hheader hfirst hes (eq_of_beq hclose) ?_
  · have hall := hseenHeader.append (hseenFirst.append (hseen₁.append (hseen.append
      (hseen₂.append hseenClose))))
    rw [seed_body]
    simpa [List.flatMap_map] using hall
  · rw [seederCalls, ← all_around]
    simp [Function.comp_def]

theorem blocksRead_seeders (h : d.NamesSeeders) :
    BlocksRead d Injection.seed.imports Injection.seed.symbols Injection.seed.body
      (seederImports d) (seederCalls d) where
  imports := seen_databaseImports (h.gives.mono (by simp)) h.framework (seen_seederImport h)
  writable := by
    intro i hi
    rcases List.mem_append.mp hi with hi | hi
    · exact isWritable_databaseImports h.framework i hi
    · rw [List.mem_singleton.mp hi]
      exact isWritable_named h.package.1 h.path
  few := by simp [seederImports, databaseImports]
  symbols := symbol_sections _ (by simp)
  body := isFunction_seeders h

/-! ## The stub for the routes -/

/-- The import that a parameter stands for: none if it is not set, or the one that it shows. -/
inductive ShowsImport (d : Data) (p : Param) : List Import → Prop
  | none {v : Value} (hv : d.get? p = some v) (hset : v.isSet = false) : ShowsImport d p []
  | one {v : Value} {i : Import} (hv : d.get? p = some v) (hset : v.isSet = true)
    (hi : i.IsWritable) (hshown : v.shown = i.display) : ShowsImport d p [i]

/-- The values for the routes can be written: the function that takes the router is one of the
four expressions for it, over names, and its import is given or not. -/
structure Data.NamesRoutes (d : Data) (given : List Import) : Prop where
  gives : d.Gives [.goyaveImportPath, .routeRegistrer]
  framework : IsImportPath (d.shown .goyaveImportPath)
  registrer : ∃ r : Registrer, r.IsNamed ∧ r.expr.display = d.shown .routeRegistrer
  given : ShowsImport d .routeRegistrerImport given

/-- What the stub for the routes imports. -/
def routeImports (d : Data) (given : List Import) : List Import :=
  ⟨some "gyvgoyave", d.shown .goyaveImportPath⟩ ::
    ⟨some "gyvconfig", d.shown .goyaveImportPath ++ "/config"⟩ ::
      ⟨some "gyvopenapi3", "goyave.dev/openapi3"⟩ :: given

theorem ShowsImport.writable {p : Param} {given : List Import} (h : ShowsImport d p given) :
    ∀ i ∈ given, i.IsWritable := by
  cases h with
  | none => exact fun _ hi => nomatch hi
  | one hv hset hi hshown => exact fun j hj => List.mem_singleton.mp hj ▸ hi

/-- The line of an import that may not be given. -/
theorem ShowsImport.seen {p : Param} {given : List Import} (h : ShowsImport d p given) :
    Seen d noBlocks [.whenSet p [.text "\t", .hole p]] (importGlyphs given) := by
  cases h with
  | none hv hset => exact .unset hv hset _
  | @one v i hv hset hi hshown =>
    have hp : d.Gives [p] := fun q hq => ⟨v, List.mem_singleton.mp hq ▸ hv⟩
    have hline := ((lineIs_nil (d := d) "").hole hp).text "\t"
    have hspelled : LineIs d "" [.text "\t", .hole p] (spelled i.line) := by
      rw [Import.spelled_line]
      simpa [Data.shown, hv, hshown] using hline
    have hseen : Seen d noBlocks _ _ := .whenSet hv hset hspelled (Import.areCut_line hi)
    simpa [importGlyphs] using hseen

theorem openapi_body : Injection.openapi.body = Injection.openapi.body.take 3 ++
    ((Injection.openapi.body.drop 3).take 4 ++ ((Injection.openapi.body.drop 7).take 1 ++
      ([.line [.text "\t", .hole .routeRegistrer, .text "(router)"]] ++
        ((Injection.openapi.body.drop 9).take 2 ++ ((Injection.openapi.body.drop 11).take 1 ++
          Injection.openapi.body.drop 12))))) := rfl

/-- The function of the stub for the routes calls the function that takes the router. -/
theorem isFunction_routes {r : Registrer} (hr : r.IsNamed) (hp : d.Gives [.routeRegistrer])
    (hshown : r.expr.display = d.shown .routeRegistrer) :
    IsFunction d Injection.openapi.body [(r.expr, [.ident "router"])] := by
  obtain ⟨hheader, hfirst, hrouter, hspec, hreturn, hclose⟩ := openapi_sections
  obtain ⟨header, hseenHeader, hheader⟩ := hheader.seen_closed d noBlocks
  obtain ⟨first, hseenFirst, hfirst⟩ := hfirst.seen_closed d noBlocks
  obtain ⟨gs₁, hseen₁, hgs₁⟩ := hrouter.seen_closed d noBlocks
  obtain ⟨gs₂, hseen₂, hgs₂⟩ := hspec.seen_closed d noBlocks
  obtain ⟨gs₃, hseen₃, hgs₃⟩ := hreturn.seen_closed d noBlocks
  obtain ⟨close, hseenClose, hclose⟩ := hclose.seen_closed d noBlocks
  have hseen : Seen d noBlocks [.line [.text "\t", .hole .routeRegistrer, .text "(router)"]]
      r.glyphs := by
    rw [← Registrer.lineGlyphs_line hr]
    refine .line ?_ (Registrer.areCut_line hr)
    rw [Registrer.spelled_line, hshown]
    simpa using (((lineIs_nil (d := d) "").text "(router)").hole hp).text "\t"
  have hes : AreStatements [(gs₁, .none), (r.glyphs, ⟨[], [(r.expr, [.ident "router"])]⟩),
      (gs₂, .none), (gs₃, .none)] := by
    intro e he xs hx
    simp only [List.mem_cons, List.not_mem_nil, or_false] at he
    rcases he with rfl | rfl | rfl | rfl
    · exact isEntry_of_isPlainEntry (outlines_of_glyphs hx) hgs₁
    · exact Registrer.isEntry hx
    · exact isEntry_of_isPlainEntry (outlines_of_glyphs hx) hgs₂
    · exact isEntry_of_isPlainEntry (outlines_of_glyphs hx) hgs₃
  refine isFunction_of_statements ?_ hheader hfirst hes (eq_of_beq hclose)
    (by simp [Gist.all, Gist.none])
  have hall := hseenHeader.append (hseenFirst.append (hseen₁.append (hseen.append
    (hseen₂.append (hseen₃.append hseenClose)))))
  rw [openapi_body]
  simpa using hall

/-- The imports of the framework, of the settings and of what describes routes, and one that may
not be given. -/
theorem seen_routeImports {given : List Import} (hp : d.Gives [.goyaveImportPath])
    (hpath : IsImportPath (d.shown .goyaveImportPath))
    (hgiven : ShowsImport d .routeRegistrerImport given) :
    Seen d noBlocks Injection.openapi.imports (importGlyphs (routeImports d given)) := by
  have hframework : Seen d noBlocks
      [.line [.text "\tgyvgoyave \"", .hole .goyaveImportPath, .text "\""]]
      (lineGlyphs (Import.mk (some "gyvgoyave") (d.shown .goyaveImportPath)).line) :=
    seen_importOf hp hpath (isWord_ownName _ (by simp)) (by simp)
  have hown : Seen d noBlocks [say "\tgyvopenapi3 \"goyave.dev/openapi3\""]
      (lineGlyphs (Import.mk (some "gyvopenapi3") "goyave.dev/openapi3").line) := by
    refine seen_import (isWritable_named (isWord_ownName _ (by simp))
      (isImportPath_ownPath _ (by simp))) ?_
    have hline := (lineIs_nil (d := d) "").text "\tgyvopenapi3 \"goyave.dev/openapi3\""
    simpa [Import.display] using hline
  have hall := hframework.append ((seen_config hp hpath).append (hown.append hgiven.seen))
  simpa [importGlyphs, routeImports, Content.imports, Injection.openapi] using hall

theorem blocksRead_routes {given : List Import} (h : d.NamesRoutes given) :
    ∃ callee : Expr, callee.display = d.shown .routeRegistrer ∧
      BlocksRead d Injection.openapi.imports Injection.openapi.symbols Injection.openapi.body
        (routeImports d given) [(callee, [.ident "router"])] := by
  obtain ⟨r, hr, hshown⟩ := h.registrer
  have hgiven : given.length ≤ 1 := by
    cases h.given <;> simp
  refine ⟨r.expr, hshown, ?_, ?_, ?_, ?_, ?_⟩
  · exact seen_routeImports (h.gives.mono (by simp)) h.framework h.given
  · simp only [routeImports, List.forall_mem_cons]
    exact ⟨isWritable_named (isWord_ownName _ (by simp)) h.framework,
      isWritable_named (isWord_ownName _ (by simp))
        (h.framework.append (isImportPath_ownPath _ (by simp))),
      isWritable_named (isWord_ownName _ (by simp)) (isImportPath_ownPath _ (by simp)),
      h.given.writable⟩
  · simp only [routeImports, List.length_cons]
    omega
  · exact symbol_sections _ (by simp)
  · exact isFunction_routes hr (h.gives.mono (by simp)) hshown

end Blocks
end Stub

end Graft
