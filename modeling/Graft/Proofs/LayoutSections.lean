-- The shared layout by its sections. Each section is a declaration, or opens or
-- closes one, and it is seen the same whatever plain texts stand in its
-- strings. So a file over the layout is read declaration by declaration, and
-- what is known of one section holds for every file.
import Graft.Proofs.WrittenNames

namespace Graft

open Go

/-! ## Sections of a stub -/

namespace Go

theorem outlines_string (ended : Bool) (as bs : List Lexeme) (gap inside inside' : List Char) :
    (glyphsFrom ended (as ++ Lexeme.string gap inside :: bs)).map Glyph.outline =
      (glyphsFrom ended (as ++ Lexeme.string gap inside' :: bs)).map Glyph.outline := by
  induction as generalizing ended with
  | nil => rfl
  | cons a as ih =>
    rw [List.cons_append, List.cons_append, glyphsFrom, glyphsFrom]
    split
    · exact ih _
    · rw [List.map_cons, List.map_cons, ih]

end Go

namespace Stub

/-- What the grammar sees of a row, whatever stands in its string. -/
def Row.outlines (r : Row) : List Outline :=
  (lineGlyphs (r.lexemes fun _ => [])).map Glyph.outline

theorem Row.outlines_lexemes (value : Param → List Char) (r : Row) :
    (lineGlyphs (r.lexemes value)).map Glyph.outline = r.outlines := by
  cases r with
  | own cs => rfl
  | around before p after => exact outlines_string true _ _ _ _ _

/-- The items are lines around these parameters, and the outlines pass the check. -/
def IsSection (items : List Item) (ps : List Param) (check : List Outline → Bool) : Prop :=
  ∃ rows, Written items rows ∧ (rows.all Row.isCut && rows.flatMap Row.params == ps &&
    check (rows.flatMap Row.outlines)) = true

variable {d : Data} {block : Block → Except Undefined String}

/-- The items are filled with lines that are cut into lexemes and seen as these glyphs. -/
def Seen (d : Data) (block : Block → Except Undefined String) (items : List Item)
    (gs : List Glyph) : Prop :=
  ∃ lines, FilledBy d block items lines ∧ (∀ ls ∈ lines, areCut ls = true) ∧
    lines.flatMap lineGlyphs = gs

/-- What the items of a section are filled with is seen as the section is. -/
theorem IsSection.seen (d : Data) (block : Block → Except Undefined String) {items : List Item}
    {ps : List Param} {check : List Outline → Bool}
    (h : IsSection items ps check) (hd : d.Gives ps)
    (hp : ∀ p ∈ ps, (d.shown p).toList.all isPlain = true) :
    ∃ gs, Seen d block items gs ∧ check (gs.map Glyph.outline) = true := by
  obtain ⟨rows, hwritten, h⟩ := h
  simp only [Bool.and_eq_true, beq_iff_eq] at h
  obtain ⟨⟨hcut, rfl⟩, hcheck⟩ := h
  refine ⟨_, ⟨_, hwritten.filledBy hcut hd, ?_, rfl⟩, ?_⟩
  · intro ls hls
    obtain ⟨r, hr, rfl⟩ := List.mem_map.mp hls
    exact Row.areCut_lexemes (List.all_eq_true.mp hcut r hr)
      fun p hpr => hp p (List.mem_flatMap.mpr ⟨r, hr, hpr⟩)
  · rw [List.flatMap_map, List.map_flatMap]
    simp only [Row.outlines_lexemes]
    exact hcheck

theorem IsSection.seen_closed (d : Data) (block : Block → Except Undefined String)
    {items : List Item} {check : List Outline → Bool} (h : IsSection items [] check) :
    ∃ gs, Seen d block items gs ∧ check (gs.map Glyph.outline) = true :=
  h.seen d block (fun _ hp => nomatch hp) fun _ hp => nomatch hp

section Seen

variable {items items' : List Item} {gs gs' : List Glyph} {pieces : List Piece} {p : Param}

theorem seen_nil : Seen d block [] [] := ⟨[], filledBy_nil, by simp, rfl⟩

theorem Seen.append (h : Seen d block items gs) (h' : Seen d block items' gs') :
    Seen d block (items ++ items') (gs ++ gs') := by
  obtain ⟨lines, hfilled, hcut, rfl⟩ := h
  obtain ⟨lines', hfilled', hcut', rfl⟩ := h'
  refine ⟨lines ++ lines', hfilled.append hfilled', ?_, List.flatMap_append⟩
  intro ls hls
  exact (List.mem_append.mp hls).elim (hcut ls) (hcut' ls)

/-- An item in front of others. -/
theorem Seen.cons {item : Item} (h : Seen d block [item] gs) (h' : Seen d block items gs') :
    Seen d block (item :: items) (gs ++ gs') := h.append h'

theorem Seen.line {ls : List Lexeme} (h : LineIs d "" pieces (spelled ls)) (hcut : areCut ls = true) :
    Seen d block [.line pieces] (lineGlyphs ls) :=
  ⟨[ls], .line h, by simpa using hcut, by simp⟩

theorem Seen.whenSet {v : Value} {ls : List Lexeme} (hv : d.get? p = some v) (hset : v.isSet = true)
    (h : LineIs d "" pieces (spelled ls)) (hcut : areCut ls = true) :
    Seen d block [.whenSet p pieces] (lineGlyphs ls) :=
  ⟨[ls], .whenSet hv hset h, by simpa using hcut, by simp⟩

theorem Seen.unset {v : Value} (hv : d.get? p = some v) (hset : v.isSet = false)
    (pieces : List Piece) : Seen d block [.whenSet p pieces] [] :=
  ⟨[], .unset hv hset pieces, by simp, rfl⟩

theorem Seen.each {ls : String → List Lexeme} (hp : d.Gives [p])
    (h : ∀ e ∈ d.entries p, LineIs d e pieces (spelled (ls e)))
    (hcut : ∀ e ∈ d.entries p, areCut (ls e) = true) :
    Seen d block [.each p pieces] ((d.entries p).flatMap fun e => lineGlyphs (ls e)) := by
  refine ⟨_, .each hp h, ?_, List.flatMap_map ..⟩
  intro line hline
  obtain ⟨e, he, rfl⟩ := List.mem_map.mp hline
  exact hcut e he

/-- A slot is filled with what its block is filled with. -/
theorem Seen.slot {b : Block} {stub : String} {line : Nat} (h : Seen d noBlocks items gs)
    (hb : block b = fillItems d stub noBlocks line items) : Seen d block [.slot b] gs := by
  obtain ⟨lines, hfilled, hcut, hgs⟩ := h
  obtain ⟨s, hs, hlines⟩ := hfilled stub line
  exact ⟨lines, .slot (hb.trans hs) hlines, hcut, hgs⟩

end Seen

end Stub

/-! ## Glyphs to the end of a file -/

namespace Go

/-- The glyphs open with the class at the beginning of a line, and items that are seen so are
read as declarations to the end of the file. -/
structure ReadToEnd (n : Nat) (first : Class) (gs : List Glyph) (g : Gist) : Prop where
  opens : (gs.map Glyph.outline).head? = some (first, true)
  reads : ∀ xs : List Item, xs.map Item.glyph = gs → AreDeclarations n xs g

theorem opens_of_head {first : Class} {xs : List Item} {gs : List Glyph}
    (hx : xs.map Item.glyph = gs) (h : (gs.map Glyph.outline).head? = some (first, true)) :
    Opens (· = first) xs := by
  rw [← outlines_of_glyphs hx] at h
  cases xs with
  | nil => cases h
  | cons i is =>
    rw [List.map_cons, List.head?_cons, Option.some.injEq] at h
    exact ⟨i, is, rfl, opensLine_of_outline h, sort_of_outline h⟩

theorem Opens.any {classes : Class → Prop} {xs : List Item} (h : Opens classes xs) :
    Opens (fun _ => True) xs := by
  obtain ⟨i, is, rfl, hline, -⟩ := h
  exact ⟨i, is, rfl, hline, trivial⟩

section

variable {n m : Nat} {first next : Class} {gs gs' : List Glyph} {g h : Gist}

theorem readToEnd_last : ReadToEnd n .ending [endGlyph] .none where
  opens := rfl
  reads xs hx := by
    obtain ⟨i, rfl, hi⟩ := List.map_eq_singleton_iff.mp hx
    exact .last (congrArg Glyph.sort hi)

/-- A declaration in front of others. -/
theorem ReadToEnd.cons (ho : (gs.map Glyph.outline).head? = some (first, true))
    (hx : ∀ xs : List Item, xs.map Item.glyph = gs → IsDeclaration n next (unlinedHead xs) g)
    (hrest : ReadToEnd n next gs' h) : ReadToEnd n first (gs ++ gs') (.all [g, h]) where
  opens := by
    rw [List.map_append, List.head?_append, ho]
    rfl
  reads xs hxs := by
    obtain ⟨xs₁, xs₂, rfl, hx₁, hx₂⟩ := List.map_eq_append_iff.mp hxs
    exact .cons (opens_of_head hx₁ ho).any (hx xs₁ hx₁) (opens_of_head hx₂ hrest.opens)
      (hrest.reads xs₂ hx₂)

/-- The outline opens with the class and is one declaration without imports, before a line that
opens with the next class. -/
def isDeclaration (n : Nat) (first next : Class) (gs : List Outline) : Bool :=
  gs.head? == some (first, true) &&
    leaves n ⟨true, true⟩ declared (unlinedOutlines gs ++ [(next, true)]) gs.length true

theorem isDeclaration_of_glyphs (hg : isDeclaration n first next (gs.map Glyph.outline) = true)
    {xs : List Item} (hx : xs.map Item.glyph = gs) :
    IsDeclaration n next (unlinedHead xs) .none := by
  simp only [isDeclaration, Bool.and_eq_true] at hg
  have houtlines : (unlinedHead xs).map Item.outline = unlinedOutlines (gs.map Glyph.outline) := by
    rw [outlines_unlinedHead, outlines_of_glyphs hx]
  have hlength : (unlinedOutlines (gs.map Glyph.outline)).length = (gs.map Glyph.outline).length := by
    rw [← houtlines, List.length_map, length_unlinedHead, ← hx, List.length_map, List.length_map]
  exact isDeclaration_of_leaves houtlines (hlength ▸ hg.2)

theorem head?_of_isDeclaration {gs : List Outline} (hg : isDeclaration n first next gs = true) :
    gs.head? = some (first, true) := by
  simp only [isDeclaration, Bool.and_eq_true, beq_iff_eq] at hg
  exact hg.1

theorem ReadToEnd.declaration (hg : isDeclaration m first next (gs.map Glyph.outline) = true)
    (hrest : ReadToEnd n next gs' h) (hn : m ≤ n) : ReadToEnd n first (gs ++ gs') h := by
  have hall : Gist.all [.none, h] = h := by simp [Gist.all, Gist.none]
  rw [← hall]
  exact .cons (head?_of_isDeclaration hg) (fun xs hx => (isDeclaration_of_glyphs hg hx).mono hn) hrest

/-- Items that are seen as parts one after the other are parted in the same way. -/
theorem parted_of_glyphs {β : Type} {f : β → List Glyph} {bs : List β} {xs : List Item}
    (h : xs.map Item.glyph = bs.flatMap f) :
    ∃ es : List (List Item × β), es.map Prod.snd = bs ∧ es.flatMap Prod.fst = xs ∧
      ∀ e ∈ es, e.1.map Item.glyph = f e.2 := by
  induction bs generalizing xs with
  | nil =>
    rw [List.flatMap_nil, List.map_eq_nil_iff] at h
    exact ⟨[], rfl, h.symm, by simp⟩
  | cons b bs ih =>
    rw [List.flatMap_cons] at h
    obtain ⟨xs₁, xs₂, rfl, h₁, h₂⟩ := List.map_eq_append_iff.mp h
    obtain ⟨es, rfl, rfl, hes⟩ := ih h₂
    refine ⟨(xs₁, b) :: es, rfl, rfl, ?_⟩
    simpa [h₁] using hes

theorem all_imports (is : List Import) : Gist.all (is.map fun i => ⟨[i], []⟩) = ⟨is, []⟩ := by
  induction is with
  | nil => rfl
  | cons i is ih =>
    rw [List.map_cons, ← Gist.all_pair, ih]
    simp [Gist.all]

/-- A list of imports in front of declarations. -/
theorem ReadToEnd.imports {i : Import} {is : List Import} {opening closing : List Glyph}
    (hopening : opening.map Glyph.outline = [(.keyword .importWord, true), (.mark .parenOpen, false)])
    (hclosing : closing.map Glyph.outline = [(.mark .parenClose, true)])
    (hi : ∀ j ∈ i :: is, j.IsWritable) (hrest : ReadToEnd n next gs' h)
    (hn : 50 + is.length ≤ n) :
    ReadToEnd n (.keyword .importWord)
      (opening ++ (i :: is).flatMap (fun j => lineGlyphs j.line) ++ closing ++ gs')
      (.all [⟨i :: is, []⟩, h]) := by
  refine .cons ?_ (fun xs hx => ?_) hrest
  · rw [List.map_append, List.map_append, hopening]
    rfl
  rw [List.flatMap_cons] at hx
  obtain ⟨xs', zs, rfl, hspecs, hzs⟩ := List.map_eq_append_iff.mp hx
  obtain ⟨ws, ys', rfl, hws, hspecs⟩ := List.map_eq_append_iff.mp hspecs
  obtain ⟨ys, more, rfl, hys, hmore⟩ := List.map_eq_append_iff.mp hspecs
  obtain ⟨es, rfl, rfl, hes⟩ := parted_of_glyphs hmore
  obtain ⟨word, ws, rfl, hword, hws⟩ :=
    List.map_eq_cons_iff.mp ((outlines_of_glyphs hws).trans hopening)
  obtain ⟨paren, rfl, hparen⟩ := List.map_eq_singleton_iff.mp hws
  obtain ⟨close, rfl, hclose⟩ :=
    List.map_eq_singleton_iff.mp ((outlines_of_glyphs hzs).trans hclosing)
  have hunlined : word.unlined.outline = (.keyword .importWord, false) := by
    rw [← sort_of_outline hword]
    rfl
  have hentries : ∀ e ∈ es.map fun e => (e.1, Gist.mk [e.2] []),
      IsEntry 20 ⟨true, true⟩ Rule.importSpec (fun _ => True) e.1 e.2 := by
    intro e he
    obtain ⟨e, he', rfl⟩ := List.mem_map.mp he
    obtain ⟨hspec, hopens⟩ := Import.isSpec_of_glyphs (hes e he')
    exact isEntry_spec hspec (hi e.2 (List.mem_cons_of_mem _ (List.mem_map_of_mem he'))).path hopens
      (by omega)
  have hdeclaration : IsDeclaration _ next _ _ := isDeclaration_imports hunlined hparen
    (Import.isSpec_of_glyphs hys).1 (hi i List.mem_cons_self).path hentries hclose
  have hgist : Gist.all (⟨[i], []⟩ :: (es.map fun e => (e.1, Gist.mk [e.2] [])).map Prod.snd) =
      ⟨i :: es.map Prod.snd, []⟩ := by
    rw [← all_imports (i :: es.map Prod.snd), List.map_cons, List.map_map, List.map_map]
    rfl
  have hitems : unlinedHead ([word, paren] ++ (ys ++ es.flatMap Prod.fst) ++ [close]) =
      word.unlined :: paren :: (ys ++ (es.flatMap Prod.fst ++ [close])) := by
    simp [unlinedHead]
  rw [hgist, List.flatMap_map, List.length_map] at hdeclaration
  rw [List.length_map] at hn
  rw [hitems]
  exact hdeclaration.mono hn

end

end Go

/-! ## The sections of the layout -/

namespace Stub

/-- So many lines of the layout, from the line behind the first ones. -/
def layoutPart (start count : Nat) : List Item := (layout.drop start).take count

/-- What the layout imports itself. -/
def runtimeImports : List Import :=
  [⟨some "gyvbase64", "encoding/base64"⟩, ⟨some "gyvjson", "encoding/json"⟩,
   ⟨some "gyvfmt", "fmt"⟩, ⟨some "gyvos", "os"⟩]

theorem drop_layout (start count : Nat) :
    layout.drop start = layoutPart start count ++ layout.drop (start + count) := by
  rw [layoutPart, ← List.drop_drop, List.take_append_drop]

/-- The functions of the layout. -/
theorem layout_functions :
    layout.drop 23 = layoutPart 23 22 ++ (layoutPart 45 33 ++ layout.drop 78) := by
  rw [drop_layout 23 22, drop_layout 45 33]

/-- The layout between its first remark and its functions: another remark, the package, the
imports around those of the stub, the type of the answer, the table of symbols around the entry of
the stub, and the functions of the stub. -/
theorem layout_front :
    layoutPart 1 22 = layoutPart 1 2 ++ (layoutPart 3 1 ++ (layoutPart 4 2 ++ (layoutPart 6 4 ++
      ([.slot .imports] ++ (layoutPart 11 2 ++ (layoutPart 13 6 ++ (layoutPart 19 1 ++
      ([.slot .symbols] ++ (layoutPart 21 1 ++ [.slot .body]))))))))) := rfl

/-- How the table of symbols opens, an entry of it, and how it closes. -/
def tableOpening : List Outline :=
  [(.keyword .varWord, true), (.name, false), (.mark .assign, false), (.keyword .mapWord, false),
   (.mark .bracketOpen, false), (.name, false), (.mark .bracketClose, false),
   (.keyword .interfaceWord, false), (.mark .braceOpen, false), (.mark .braceClose, false),
   (.mark .braceOpen, false)]

def tableEntry : List Outline :=
  [(.string, true), (.mark .colon, false), (.name, false), (.mark .comma, false)]

def tableClosing : List Outline := [(.mark .braceClose, true)]

theorem isDeclaration_table :
    isDeclaration 150 (.keyword .varWord) (.keyword .funcWord)
      (tableOpening ++ tableEntry ++ tableClosing) = true := by
  decide

/-- The sections of the layout around its imports and around the blocks. -/
theorem layout_sections :
    IsSection (layoutPart 1 2) [] (· == []) ∧
      IsSection (layoutPart 4 2) [] (· == [(.keyword .importWord, true), (.mark .parenOpen, false)]) ∧
      IsSection (layoutPart 11 2) [] (· == [(.mark .parenClose, true)]) ∧
      IsSection (layoutPart 13 6) [] (isDeclaration 150 (.keyword .typeWord) (.keyword .varWord)) ∧
      IsSection (layoutPart 19 1) [] (· == tableOpening) ∧
      IsSection (layoutPart 21 1) [] (· == tableClosing) := by
  refine ⟨?_, ?_, ?_, ?_, ?_, ?_⟩
  all_goals
    apply Exists.intro
    apply And.intro
    · simp only [layoutPart, layout, List.drop_succ_cons, List.drop_zero, List.take_succ_cons,
        List.take_zero]
      repeat first | apply Written.nil | apply Written.blank | apply Written.own
    · decide +kernel

/-- The sections behind the functions of the stub. -/
theorem function_sections :
    IsSection (layoutPart 23 22) [.symbolEnv, .resultEnv]
        (isDeclaration 250 (.keyword .funcWord) (.keyword .funcWord)) ∧
      IsSection (layoutPart 45 33) [.listSymbol]
        (isDeclaration 250 (.keyword .funcWord) (.keyword .funcWord)) ∧
      IsSection (layout.drop 78) [] (isDeclaration 250 (.keyword .funcWord) .ending) := by
  refine ⟨?_, ?_, ?_⟩
  all_goals
    apply Exists.intro
    apply And.intro
    · simp only [layoutPart, layout, List.drop_succ_cons, List.drop_zero, List.take_succ_cons,
        List.take_zero]
      repeat
        first | apply Written.nil | apply Written.blank | apply Written.own | apply Written.around
    · decide +kernel

end Stub

end Graft
