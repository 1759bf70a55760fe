-- Injected sources that are refused. A text is filled into a stub letter for
-- letter, so a value that stops the string around it leaves a quote that is
-- never closed, and the whole text is refused.
import Graft.Proofs.InjectedSources
import Graft.Proofs.UnfinishedTokens

namespace Graft

open Go Stub

namespace Stub

/-! ## How a filled text opens -/

section Opening

variable {d : Data} {block : Block → Except Undefined String} {items items' : List Item}
  {cs : List Char}

/-- The items are filled with a text that opens so. -/
def OpensAs (d : Data) (block : Block → Except Undefined String) (items : List Item)
    (cs : List Char) : Prop :=
  ∀ stub line, ∃ s rest, fillItems d stub block line items = .ok s ∧ s.toList = cs ++ rest

theorem OpensAs.more (h : OpensAs d block items cs)
    (h' : ∀ stub line, ∃ s, fillItems d stub block line items' = .ok s) :
    OpensAs d block (items ++ items') cs := by
  intro stub line
  obtain ⟨s, rest, hs, hopens⟩ := h stub line
  obtain ⟨t, ht⟩ := h' stub (line + heights items)
  refine ⟨s ++ t, rest ++ t.toList, fillItems_append stub hs ht, ?_⟩
  rw [String.toList_append, hopens, List.append_assoc]

theorem OpensAs.behind {lines : List (List Lexeme)} (h : FilledBy d block items lines)
    (h' : OpensAs d block items' cs) : OpensAs d block (items ++ items') (paged lines ++ cs) := by
  intro stub line
  obtain ⟨s, hs, hlines⟩ := h stub line
  obtain ⟨t, rest, ht, hopens⟩ := h' stub (line + heights items)
  refine ⟨s ++ t, rest, fillItems_append stub hs ht, ?_⟩
  rw [String.toList_append, hlines, hopens, List.append_assoc]

theorem OpensAs.slot {b : Block} {stub : String} {line : Nat} (h : OpensAs d noBlocks items cs)
    (hb : block b = fillItems d stub noBlocks line items) : OpensAs d block [.slot b] cs := by
  intro stub' line'
  obtain ⟨s, rest, hs, hopens⟩ := h stub line
  refine ⟨s, rest, ?_, hopens⟩
  unfold fillItems Item.fill
  dsimp only
  rw [hb, hs]
  change Except.ok (s ++ "") = _
  rw [String.append_empty]

/-- A line with a parameter in a string. -/
theorem opensAs_line {before after : String} {p : Param} (hp : d.Gives [p]) :
    OpensAs d block [.line [.text before, .hole p, .text after]]
      (before.toList ++ (d.shown p).toList) := by
  intro stub line
  obtain ⟨s, hs, hline⟩ := (((lineIs_nil (d := d) "").text after).hole hp |>.text before) ⟨stub, line⟩
  refine ⟨endLine s ++ "", after.toList ++ ['\n'], ?_, ?_⟩
  · unfold fillItems Item.fill
    dsimp only
    rw [hs]
    rfl
  · rw [String.append_empty, toList_endLine, hline]
    simp

end Opening

/-! ## Strings that are stopped -/

variable {d : Data}

/-- The text is cut into lexemes up to a quote at its end. -/
def opensString (before : List Char) : Bool :=
  let front := cut before.dropLast
  let gap := gapBehind before.dropLast
  areCut (front ++ [Lexeme.string gap []]) && spelled front ++ gap ++ ['"'] == before

/-- A task gets a text that is refused where a value stops the string around it. -/
theorem refused_of_stopped {t : Task} {imports symbols body front items : List Item}
    {lines : List (List Lexeme)} {before : List Char} {p : Param}
    (hcontent : t.stub.content = .filling imports symbols body)
    (hfront : FilledBy d (fillBlock d t.stub.name imports symbols body) front lines)
    (hcut : ∀ ls ∈ lines, areCut ls = true) (hbefore : opensString before = true)
    (hstop : IsStopped (d.shown p).toList)
    (hopens : OpensAs d (fillBlock d t.stub.name imports symbols body) items
      (before ++ (d.shown p).toList))
    (hlayout : layout = layoutPart 0 1 ++ front ++ items) (path : String) :
    ∃ text place, render t.stub.name d = .ok text ∧ Source.parse path text = .error place := by
  obtain ⟨inside, hremark, hremarkCut⟩ := filledBy_remark d
    (fillBlock d t.stub.name imports symbols body)
  obtain ⟨text, rest, htext, hlist⟩ := hopens.behind (hremark.append hfront) layoutName 1
  simp only [opensString, Bool.and_eq_true, beq_iff_eq] at hbefore
  obtain ⟨hline, hbefore⟩ := hbefore
  have hlines : ∀ ls ∈ [Lexeme.remark inside] :: lines, areCut ls = true := by
    intro ls hls
    rcases List.mem_cons.mp hls with rfl | hls
    · exact hremarkCut
    · exact hcut ls hls
  obtain ⟨place, hplace⟩ := parse_of_stopped hlines hline (hstop.append rest)
  refine ⟨text, place, render_of_fill t.stub_mem ?_, ?_⟩
  · unfold Page.fill
    rw [hcontent, hlayout]
    exact htext
  · have hparse : Go.parse text.toList = .error place := by
      rw [hlist, ← hplace]
      congr 1
      conv_lhs => rw [← hbefore]
      simp
    unfold Source.parse
    rw [hparse]
    rfl

/-- What a task gives to its stub fills all parts of the layout. -/
theorem fillItems_of_gives {t : Task} {imports symbols body items : List Item}
    (hd : d.Gives t.params) (huses : ∀ q ∈ paramsAround imports symbols body, q ∈ t.params)
    (hitems : ∀ i ∈ items, i ∈ layout) (name stub : String) (line : Nat) :
    ∃ s, fillItems d stub (fillBlock d name imports symbols body) line items = .ok s := by
  have hgives := hd.mono huses
  refine fillItems_ok stub (hgives.mono fun q hq => ?_) (fillBlock_ok hgives name) line
  obtain ⟨i, hi, hqi⟩ := List.mem_flatMap.mp hq
  unfold paramsAround
  simp only [List.flatMap_append, List.mem_append]
  exact .inl (.inl (.inl (List.mem_flatMap.mpr ⟨i, hitems i hi, hqi⟩)))

/-- The first line of each stub imports a package of the framework. -/
theorem framework_first (t : Task) : ∃ before after others symbols body,
    t.stub.content = .filling
      (.line [.text (String.ofList before), .hole .goyaveImportPath, .text after] :: others)
      symbols body ∧ opensString before = true := by
  cases t
  all_goals
    refine ⟨_, _, _, _, _, rfl, ?_⟩
    decide +kernel

/-- The lines of the layout between the functions of the stub and the variable of the symbol. -/
theorem section_before_symbol : IsSection (layoutPart 23 6) [] fun _ => true := by
  apply Exists.intro
  apply And.intro
  · simp only [layoutPart, layout, List.drop_succ_cons, List.drop_zero, List.take_succ_cons,
      List.take_zero]
    repeat first | apply Written.nil | apply Written.blank | apply Written.own
  · decide +kernel

theorem layout_symbol : ∃ before after, opensString before = true ∧ layout.drop 29 =
    [.line [.text (String.ofList before), .hole .symbolEnv, .text after]] ++ layout.drop 30 := by
  refine ⟨_, _, ?_, rfl⟩
  decide +kernel

/-- A task whose framework path stops the string around it gets a text that is refused. -/
theorem refused_of_stopped_framework {t : Task} (hd : d.Gives t.params)
    (hstop : IsStopped (d.shown .goyaveImportPath).toList) (path : String) :
    ∃ text place, render t.stub.name d = .ok text ∧ Source.parse path text = .error place := by
  obtain ⟨before, after, others, symbols, body, hcontent, hbefore⟩ := framework_first t
  obtain ⟨_, _, _, hcontent', huses⟩ := t.content_uses
  obtain ⟨rfl, rfl, rfl⟩ := Content.filling.inj (hcontent.symm.trans hcontent')
  have hgives : d.Gives [.goyaveImportPath] := by
    intro q hq
    rw [List.mem_singleton.mp hq]
    exact hd _ (huses _ (by simp [paramsAround, Item.params, paramsOf, Piece.params]))
  have hothers : ∀ stub line, ∃ s, fillItems d stub noBlocks line others = .ok s := by
    intro stub line
    refine fillItems_ok stub (hd.mono fun q hq => huses q ?_) (fun _ => ⟨"", rfl⟩) line
    simp only [paramsAround, List.flatMap_append, List.flatMap_cons, List.mem_append]
    exact .inl (.inl (.inr (.inr hq)))
  obtain ⟨hremark, himport, -⟩ := layout_sections
  obtain ⟨_, hseenRemark, -⟩ := hremark.seen_closed d (fillBlock d t.stub.name _ symbols body)
  obtain ⟨_, hseenImport, -⟩ := himport.seen_closed d (fillBlock d t.stub.name _ symbols body)
  obtain ⟨lines, hfront, hcut, -⟩ := hseenRemark.append
    (seen_packageClause.append (hseenImport.append seen_runtimeImports))
  have hline : OpensAs d noBlocks
      ([.line [.text (String.ofList before), .hole .goyaveImportPath, .text after]] ++ others)
      (before ++ (d.shown .goyaveImportPath).toList) :=
    (String.toList_ofList (l := before) ▸ opensAs_line hgives).more hothers
  have hslot : OpensAs d (fillBlock d t.stub.name _ symbols body)
      ([.slot .imports] ++ layout.drop 11) (before ++ (d.shown .goyaveImportPath).toList) :=
    (hline.slot rfl).more
      (fillItems_of_gives hd huses (fun _ hi => List.mem_of_mem_drop hi) t.stub.name)
  exact refused_of_stopped hcontent hfront hcut hbefore hstop hslot rfl path

/-- A task whose variable for the symbol stops the string around it gets a text that is refused,
even where everything else can be written. -/
theorem refused_of_stopped_variable {t : Task} {c : Content} {own : List Import}
    {calls : List Site} (hc : t.stub.content = .filling c.imports c.symbols c.body)
    (h : BlocksRead d c.imports c.symbols c.body own calls) (hd : d.Gives t.params)
    (hstop : IsStopped (d.shown .symbolEnv).toList) (path : String) :
    ∃ text place, render t.stub.name d = .ok text ∧ Source.parse path text = .error place := by
  obtain ⟨_, _, _, hcontent, huses⟩ := t.content_uses
  obtain ⟨rfl, rfl, rfl⟩ := Content.filling.inj (hc.symm.trans hcontent)
  obtain ⟨before, after, hbefore, hsymbol⟩ := layout_symbol
  have hgives : d.Gives [.symbolEnv] := by
    intro q hq
    rw [List.mem_singleton.mp hq]
    refine hd _ (huses _ ?_)
    simp only [paramsAround, List.flatMap_append, List.mem_append]
    exact .inl (.inl (.inl (by decide)))
  obtain ⟨_, _, hseenFront, -⟩ := seen_front h t.stub.name
  obtain ⟨_, hseen, -⟩ := section_before_symbol.seen_closed d
    (fillBlock d t.stub.name c.imports c.symbols c.body)
  obtain ⟨lines, hfront, hcut, -⟩ := hseenFront.append hseen
  have hopens : OpensAs d (fillBlock d t.stub.name c.imports c.symbols c.body) (layout.drop 29)
      (before ++ (d.shown .symbolEnv).toList) := by
    rw [hsymbol]
    exact (String.toList_ofList (l := before) ▸ opensAs_line hgives).more
      (fillItems_of_gives hd huses (fun _ hi => List.mem_of_mem_drop hi) t.stub.name)
  exact refused_of_stopped hc hfront hcut hbefore hstop hopens rfl path

end Stub

/-! ## The shop -/

namespace Sample

/-- The paths of packages hold none of the characters that a quoted path must not hold. -/
def pathsAreQuotable (d : Data) : Bool :=
  [Param.goyaveImportPath, .modelImportPath, .seederImportPath].all fun p =>
    (d.shown p).toList.all fun c => !(['"', '\x60', '\\', '\n'].contains c)

/-- The values of the shop with a null character in the path of the framework. -/
def nullValues : Data := values "goyave.dev/goyave\x00" Artifact.symbolVariable

/-- The values of the shop with a line end in the variable for the symbol. -/
def brokenValues : Data := values "goyave.dev/goyave/v5" "GYV\nSYMBOL"

theorem isStopped_values : IsStopped (nullValues.shown .goyaveImportPath).toList ∧
    IsStopped (brokenValues.shown .symbolEnv).toList := by
  have hnull : "goyave.dev/goyave\x00".toList = "goyave.dev/goyave".toList ++ [null] := by
    decide
  have hbroken : "GYV\nSYMBOL".toList = "GYV".toList ++ '\n' :: "SYMBOL".toList := by
    decide
  constructor
  · change IsStopped "goyave.dev/goyave\x00".toList
    rw [hnull]
    exact (IsStopped.stop (by decide) []).behind (by decide)
  · change IsStopped "GYV\nSYMBOL".toList
    rw [hbroken]
    exact (IsStopped.stop (by decide) _).behind (by decide)

/-- Quotable paths, names and a known expression for the routes do not make a source that can be
read: a null character in a path stops its string, and a line end in a text of the layout does. -/
theorem a_null_or_a_line_end_leaves_a_source_unread :
    (pathsAreQuotable nullValues = true ∧ IsIdentifier (nullValues.shown .seederPackage) ∧
      (∀ s ∈ nullValues.entries .seeders, IsIdentifier s) ∧
      (∃ r : Registrer, r.IsNamed ∧ r.expr.display = nullValues.shown .routeRegistrer) ∧
      ShowsImport nullValues .routeRegistrerImport [⟨none, "shop/http/routes"⟩] ∧
      ∃ text place, render Task.migrate.stub.name nullValues = .ok text ∧
        Source.parse "/shop/main.go" text = .error place) ∧
    pathsAreQuotable brokenValues = true ∧ IsIdentifier (brokenValues.shown .seederPackage) ∧
      (∀ s ∈ brokenValues.entries .seeders, IsIdentifier s) ∧
      (∃ r : Registrer, r.IsNamed ∧ r.expr.display = brokenValues.shown .routeRegistrer) ∧
      ShowsImport brokenValues .routeRegistrerImport [⟨none, "shop/http/routes"⟩] ∧
      ∃ text place, render Task.migrate.stub.name brokenValues = .ok text ∧
        Source.parse "/shop/main.go" text = .error place := by
  obtain ⟨hnull, hbroken⟩ := isStopped_values
  obtain ⟨hpackage, hseeders, hregistrer, himport⟩ :=
    names_values "goyave.dev/goyave\x00" Artifact.symbolVariable
  obtain ⟨hpackage', hseeders', hregistrer', himport'⟩ :=
    names_values "goyave.dev/goyave/v5" "GYV\nSYMBOL"
  have hgives := gives_values "goyave.dev/goyave\x00" Artifact.symbolVariable
  have hgives' := gives_values "goyave.dev/goyave/v5" "GYV\nSYMBOL"
  refine ⟨⟨by decide, hpackage, hseeders, hregistrer, himport, ?_⟩,
    by decide, hpackage', hseeders', hregistrer', himport', ?_⟩
  · exact refused_of_stopped_framework (hgives.mono (by decide)) hnull _
  · have hpath : ∀ p ∈ [Param.goyaveImportPath, .modelImportPath],
        IsImportPath (brokenValues.shown p) := by decide
    have hmodels : brokenValues.NamesModels :=
      ⟨hgives'.mono (by decide), hpath _ (by decide), hpath _ (by decide)⟩
    exact refused_of_stopped_variable (c := Injection.migrate) rfl
      (blocksRead_models hmodels (by simp)) (hgives'.mono (by decide)) hbroken _

end Sample

end Graft
