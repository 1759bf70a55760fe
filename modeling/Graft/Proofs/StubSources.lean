-- The sources that are injected, as they are read. A stub fills the blocks of
-- the layout with its imports, its entry in the table of symbols and its
-- functions; the text is a source of the main package whose imports are those
-- of the layout, of the stub and of its parameters, and whose calls are the
-- ones that the parameters ask for.
import Graft.Proofs.LayoutSections
import Graft.Proofs.Templates

namespace Graft

open Go

namespace Stub

/-! ## The layout around the blocks of a stub -/

/-- The parameters that the layout uses itself. -/
def runtimeParams : List Param := [.symbolEnv, .resultEnv, .listSymbol]

/-- What a source states, seen from outside: its package, its imports, and some of its calls in
their order. -/
structure SourceStates (s : Source) (imports : List Import) (calls : List Site) : Prop where
  package : s.packageName = some "main"
  imports : s.imports = imports
  calls : calls.Sublist (s.calls.map fun c => (c.callee, c.args))

section Layout

variable {d : Data} {block : Block → Except Undefined String}

/-- The layout opens with a remark. -/
theorem layoutPart_first : ∃ inside, layoutPart 0 1 = [say (String.ofList ('/' :: '/' :: inside))] ∧
    areCut [Lexeme.remark inside] = true := by
  apply Exists.intro
  apply And.intro
  · simp only [layoutPart, layout, List.drop_zero, List.take_succ_cons, List.take_zero]
    rfl
  · decide

theorem filledBy_remark (d : Data) (block : Block → Except Undefined String) :
    ∃ inside, FilledBy d block (layoutPart 0 1) [[Lexeme.remark inside]] ∧
      areCut [Lexeme.remark inside] = true := by
  obtain ⟨inside, hfirst, hcut⟩ := layoutPart_first
  refine ⟨inside, ?_, hcut⟩
  rw [hfirst]
  refine FilledBy.line ?_
  have hline := (lineIs_nil (d := d) "").text (String.ofList ('/' :: '/' :: inside))
  simpa [Lexeme.remark] using hline

/-- A line that holds an import and nothing else. -/
theorem seen_import {i : Import} {pieces : List Piece} (hi : i.IsWritable)
    (h : LineIs d "" pieces ('\t' :: i.display.toList)) :
    Seen d block [.line pieces] (lineGlyphs i.line) :=
  .line (by rwa [Import.spelled_line]) (Import.areCut_line hi)

/-- What is seen of imports. -/
def importGlyphs (is : List Import) : List Glyph := is.flatMap fun i => lineGlyphs i.line

theorem isWritable_runtimeImports : ∀ i ∈ runtimeImports, i.IsWritable := by
  have hnames : ∀ i ∈ runtimeImports, ∀ name ∈ i.name, IsWord name.toList := by decide
  have hpaths : ∀ i ∈ runtimeImports, IsImportPath i.path := by decide
  exact fun i hi => ⟨fun name hname => hnames i hi name hname, hpaths i hi⟩

theorem seen_saidImports {is : List Import} (hi : ∀ i ∈ is, i.IsWritable) :
    Seen d block (is.map fun i => say ("\t" ++ i.display)) (importGlyphs is) := by
  induction is with
  | nil => exact seen_nil
  | cons i is ih =>
    refine .cons (seen_import (hi i List.mem_cons_self) ?_)
      (ih fun j hj => hi j (List.mem_cons_of_mem i hj))
    simpa using (lineIs_nil (d := d) "").text ("\t" ++ i.display)

theorem seen_runtimeImports : Seen d block (layoutPart 6 4) (importGlyphs runtimeImports) :=
  seen_saidImports isWritable_runtimeImports

/-- The package clause of the layout. -/
def packageLine : List Lexeme := [.word [] "package".toList, .word [' '] "main".toList]

def packageGlyphs : List Glyph :=
  [⟨.keyword .packageWord, true, "package".toList⟩, nameGlyph false "main"]

theorem packageLine_facts : areCut packageLine = true ∧ lineGlyphs packageLine = packageGlyphs ∧
    spelled packageLine = "package main".toList := by
  decide

theorem seen_packageClause : Seen d block (layoutPart 3 1) packageGlyphs := by
  obtain ⟨hcut, hglyphs, hspelled⟩ := packageLine_facts
  rw [← hglyphs]
  have hline : LineIs d "" [.text "package main"] (spelled packageLine) := by
    rw [hspelled]
    simpa using (lineIs_nil (d := d) "").text "package main"
  exact .line hline hcut

/-- The items are read as a function that makes these calls in their order. -/
def IsFunction (d : Data) (items : List Item) (calls : List Site) : Prop :=
  ∃ gs n, Seen d noBlocks items gs ∧
    (gs.map Glyph.outline).head? = some (.keyword .funcWord, true) ∧ n ≤ 300 + gs.length ∧
    ∀ xs : List Go.Item, xs.map Item.glyph = gs →
      IsDeclaration n (.keyword .funcWord) (unlinedHead xs) ⟨[], calls⟩

/-- A stub that fills the layout, as it is read: imports, an entry of the table, and a function
with these calls. -/
structure BlocksRead (d : Data) (imports symbols body : List Item) (own : List Import)
    (calls : List Site) : Prop where
  imports : Seen d noBlocks imports (importGlyphs own)
  writable : ∀ i ∈ own, i.IsWritable
  few : own.length ≤ 100
  symbols : IsSection symbols [] (· == tableEntry)
  body : IsFunction d body calls

/-- The functions of the layout are read to the end of the file. -/
theorem seen_layoutFunctions (block : Block → Except Undefined String) (hd : d.Gives runtimeParams)
    (hp : ∀ p ∈ runtimeParams, (d.shown p).toList.all isPlain = true) :
    ∃ gs, Seen d block (layout.drop 23) gs ∧
      ∀ n, 250 ≤ n → ReadToEnd n (.keyword .funcWord) (gs ++ [endGlyph]) .none := by
  have hmore : ∀ ps : List Param, (∀ p ∈ ps, p ∈ runtimeParams) →
      d.Gives ps ∧ ∀ p ∈ ps, (d.shown p).toList.all isPlain = true :=
    fun ps hps => ⟨hd.mono hps, fun p hq => hp p (hps p hq)⟩
  obtain ⟨hinit, hinvoke, hmessage⟩ := function_sections
  obtain ⟨hd₁, hp₁⟩ := hmore [.symbolEnv, .resultEnv] (by decide)
  obtain ⟨hd₂, hp₂⟩ := hmore [.listSymbol] (by decide)
  obtain ⟨gs₁, hseen₁, hgs₁⟩ := hinit.seen d block hd₁ hp₁
  obtain ⟨gs₂, hseen₂, hgs₂⟩ := hinvoke.seen d block hd₂ hp₂
  obtain ⟨gs₃, hseen₃, hgs₃⟩ := hmessage.seen_closed d block
  refine ⟨gs₁ ++ (gs₂ ++ gs₃), ?_, fun n hn => ?_⟩
  · rw [layout_functions]
    exact hseen₁.append (hseen₂.append hseen₃)
  · rw [List.append_assoc, List.append_assoc]
    exact .declaration hgs₁ (.declaration hgs₂ (.declaration hgs₃ readToEnd_last hn) hn) hn

/-- The table of symbols around the entry of a stub is one declaration. -/
theorem seen_table (block : Block → Except Undefined String) {symbols : List Item} {stub : String}
    {line : Nat}
    (h : IsSection symbols [] (· == tableEntry))
    (hb : block .symbols = fillItems d stub noBlocks line symbols) :
    ∃ gs, Seen d block (layoutPart 19 1 ++ ([.slot .symbols] ++ layoutPart 21 1)) gs ∧
      isDeclaration 150 (.keyword .varWord) (.keyword .funcWord) (gs.map Glyph.outline) = true := by
  obtain ⟨-, -, -, -, hopening, hclosing⟩ := layout_sections
  obtain ⟨gs₁, hseen₁, hgs₁⟩ := hopening.seen_closed d block
  obtain ⟨gs₂, hseen₂, hgs₂⟩ := h.seen_closed d noBlocks
  obtain ⟨gs₃, hseen₃, hgs₃⟩ := hclosing.seen_closed d block
  refine ⟨gs₁ ++ (gs₂ ++ gs₃), hseen₁.append ((hseen₂.slot hb).append hseen₃), ?_⟩
  rw [List.map_append, List.map_append, eq_of_beq hgs₁, eq_of_beq hgs₂, eq_of_beq hgs₃]
  exact isDeclaration_table

/-- The import declaration around the imports of a stub. -/
theorem seen_imports (block : Block → Except Undefined String) {imports : List Item}
    {own : List Import} {stub : String} {line : Nat}
    (h : Seen d noBlocks imports (importGlyphs own))
    (hb : block .imports = fillItems d stub noBlocks line imports) :
    ∃ opening closing, Seen d block (layoutPart 4 2 ++ (layoutPart 6 4 ++ ([.slot .imports] ++
        layoutPart 11 2))) (opening ++ importGlyphs (runtimeImports ++ own) ++ closing) ∧
      opening.map Glyph.outline = [(.keyword .importWord, true), (.mark .parenOpen, false)] ∧
      closing.map Glyph.outline = [(.mark .parenClose, true)] := by
  obtain ⟨-, hopening, hclosing, -⟩ := layout_sections
  obtain ⟨gs₁, hseen₁, hgs₁⟩ := hopening.seen_closed d block
  obtain ⟨gs₂, hseen₂, hgs₂⟩ := hclosing.seen_closed d block
  refine ⟨gs₁, gs₂, ?_, eq_of_beq hgs₁, eq_of_beq hgs₂⟩
  have hall : gs₁ ++ importGlyphs (runtimeImports ++ own) ++ gs₂ =
      gs₁ ++ (importGlyphs runtimeImports ++ (importGlyphs own ++ gs₂)) := by
    simp [importGlyphs]
  rw [hall]
  exact hseen₁.append (seen_runtimeImports.append ((h.slot hb).append hseen₂))

/-- The layout up to its functions is seen as declarations in front of those. -/
theorem seen_front {imports symbols body : List Item} {own : List Import} {calls : List Site}
    (h : BlocksRead d imports symbols body own calls) (stub : String) :
    ∃ gs n, Seen d (fillBlock d stub imports symbols body) (layoutPart 1 22)
        (packageGlyphs ++ gs) ∧ 250 ≤ n ∧ n ≤ 390 * (gs.length + 1) ∧
      ∀ gs', ReadToEnd n (.keyword .funcWord) gs' .none →
        ReadToEnd n (.keyword .importWord) (gs ++ gs') ⟨runtimeImports ++ own, calls⟩ := by
  obtain ⟨hremark, -, -, htype, -, -⟩ := layout_sections
  obtain ⟨gs₀, hseen₀, hgs₀⟩ := hremark.seen_closed d
    (fillBlock d stub imports symbols body)
  obtain ⟨opening, closing, hseenImports, hopening, hclosing⟩ := seen_imports
    (fillBlock d stub imports symbols body) h.imports rfl
  obtain ⟨gs₁, hseen₁, hgs₁⟩ := htype.seen_closed d
    (fillBlock d stub imports symbols body)
  obtain ⟨gs₂, hseen₂, hgs₂⟩ := seen_table (fillBlock d stub imports symbols body)
    h.symbols rfl
  obtain ⟨gs₃, m, hseen₃, hhead, hm, hfunctions⟩ := h.body
  have hempty : gs₀ = [] := List.map_eq_nil_iff.mp (eq_of_beq hgs₀)
  have hwritable : ∀ i ∈ runtimeImports ++ own, i.IsWritable := by
    intro i hi
    exact (List.mem_append.mp hi).elim (isWritable_runtimeImports i) (h.writable i)
  have hfew := h.few
  refine ⟨opening ++ importGlyphs (runtimeImports ++ own) ++ closing ++
    (gs₁ ++ (gs₂ ++ gs₃)), 300 + gs₃.length, ?_, by omega, ?_, fun gs' hgs' => ?_⟩
  · rw [layout_front]
    have hall := hseen₀.append (seen_packageClause.append (hseenImports.append
      (hseen₁.append (hseen₂.append (hseen₃.slot (b := .body) rfl)))))
    simpa [hempty] using hall
  · simp only [List.length_append]
    omega
  · have hbody := ReadToEnd.cons hhead (fun xs hx => (hfunctions xs hx).mono hm) hgs'
    have hmany : 50 + (runtimeImports.tail ++ own).length ≤ 300 + gs₃.length := by
      rw [List.length_append, show runtimeImports.tail.length = 3 from rfl]
      omega
    have hfile := ReadToEnd.imports (i := ⟨some "gyvbase64", "encoding/base64"⟩) hopening hclosing
      hwritable (.declaration hgs₁ (.declaration hgs₂ hbody (by omega)) (by omega)) hmany
    have hgist : Gist.all [⟨runtimeImports ++ own, []⟩, .all [⟨[], calls⟩, .none]] =
        ⟨runtimeImports ++ own, calls⟩ := by simp [Gist.all, Gist.none]
    rw [← hgist, List.append_assoc (opening ++ importGlyphs (runtimeImports ++ own) ++ closing),
      List.append_assoc gs₁, List.append_assoc gs₂]
    exact hfile

/-- The layout around the blocks of a stub is seen as a file that is read to its end. -/
theorem seen_layout {imports symbols body : List Item} {own : List Import} {calls : List Site}
    (h : BlocksRead d imports symbols body own calls) (hd : d.Gives runtimeParams)
    (hp : ∀ p ∈ runtimeParams, (d.shown p).toList.all isPlain = true) (stub : String) :
    ∃ gs n, Seen d (fillBlock d stub imports symbols body) (layout.drop 1) (packageGlyphs ++ gs) ∧
      100 ≤ n ∧ n ≤ 390 * (gs.length + 1) ∧
      ReadToEnd n (.keyword .importWord) (gs ++ [endGlyph]) ⟨runtimeImports ++ own, calls⟩ := by
  obtain ⟨gs, n, hseen, hn, hdepth, hread⟩ := seen_front h stub
  obtain ⟨gs', hseen', hgs'⟩ := seen_layoutFunctions (fillBlock d stub imports symbols body) hd hp
  refine ⟨gs ++ gs', n, ?_, by omega, ?_, ?_⟩
  · rw [drop_layout 1 22, ← List.append_assoc]
    exact hseen.append hseen'
  · rw [List.length_append]
    omega
  · rw [List.append_assoc]
    exact hread _ (hgs' n hn)

/-- A stub that fills the layout gives a source of the main package with the imports of the layout
in front of its own, and with its calls. -/
theorem fill_reads {e : Page} {imports symbols body : List Item} {own : List Import}
    {calls : List Site} (he : e.content = .filling imports symbols body)
    (h : BlocksRead d imports symbols body own calls) (hd : d.Gives runtimeParams)
    (hp : ∀ p ∈ runtimeParams, (d.shown p).toList.all isPlain = true) (path : String) :
    ∃ text s, e.fill d = .ok text ∧ Go.Source.parse path text = .ok s ∧
      SourceStates s (runtimeImports ++ own) calls := by
  obtain ⟨gs, n, hseen, hn, hdepth, hread⟩ := seen_layout h hd hp e.name
  obtain ⟨lines, hfilled, hcut, hlines⟩ := hseen
  obtain ⟨inside, hremark, hremarkCut⟩ := filledBy_remark d
    (fillBlock d e.name imports symbols body)
  obtain ⟨text, htext, hpaged⟩ := (hremark.append hfilled) layoutName 1
  have hcutAll : ∀ ls ∈ [Lexeme.remark inside] :: lines, areCut ls = true := by
    intro ls hls
    rcases List.mem_cons.mp hls with rfl | hls
    · exact hremarkCut
    · exact hcut ls hls
  have hglyphs := glyphs_items hcutAll
  rw [hlines, List.append_assoc] at hglyphs
  obtain ⟨ws, rest, hitems, hws, hrest⟩ := List.map_eq_append_iff.mp hglyphs
  obtain ⟨word, ws, rfl, hword, hws⟩ := List.map_eq_cons_iff.mp hws
  obtain ⟨name, rfl, hname⟩ := List.map_eq_singleton_iff.mp hws
  have hlength : rest.length = gs.length + 1 := by
    rw [← List.length_map (f := Item.glyph), hrest, List.length_append, List.length_singleton]
  have hnamed : canName [] name.token.sort = true := by
    rw [show name.token.sort = .name from congrArg Glyph.sort hname]
    rfl
  have hall : items (tokens (paged ([Lexeme.remark inside] :: lines))) = word :: name :: rest :=
    hitems
  obtain ⟨ss, trailing, hparse, hstates⟩ := parse_of_declarations hall
    (congrArg Glyph.sort hword) hnamed (opens_of_head hrest hread.opens).any
    (hread.reads rest hrest) hn (by omega)
  have hclause : States .none [packageShape word name] := states_none rfl
  rw [show paged ([Lexeme.remark inside] :: lines) = text.toList from hpaged.symm] at hparse
  refine ⟨text, ⟨path, sourceTree (packageShape word name :: ss) trailing⟩, ?_, ?_, ?_⟩
  · unfold Page.fill
    rw [he]
    exact htext
  · unfold Go.Source.parse
    rw [hparse]
    rfl
  · have hall := hstates.after hclause
    refine ⟨?_, ?_, ?_⟩
    · refine (packageName_sourceTree word name ss trailing).trans ?_
      rw [show name.token.text = "main".toList from congrArg Glyph.text hname,
        String.ofList_toList]
    · exact (imports_sourceTree _ trailing).trans hall.imports
    · have hsites := sites_sourceTree (packageShape word name :: ss) trailing
      exact hsites ▸ hall.calls

end Layout

end Stub

end Graft
