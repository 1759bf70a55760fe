-- Pages are read as what they are. The source of a page is a template of
-- bands, if its texts open no tags, and the template that is read of it has
-- the nodes of its items in order.
import Graft.Proofs.Pages
import Graft.Proofs.TemplateReading

namespace Graft.Stub

open Template

/-! ## Pages as bands -/

def Piece.bit : Piece → Bit
  | .text s => .text s.toList
  | .hole p => .hole (.name p.key)
  | .entry => .hole (.name Param.entry.key)

/-- A line with a statement of names. -/
def statementBand (names : List String) : Band := .statements (names.map .name) []

def lineBand (pieces : List Piece) : Band := .line (pieces.map Piece.bit)

def Item.bands : Item → List Band
  | .line pieces => [lineBand pieces]
  | .each p pieces =>
    [statementBand ["for", Param.entry.key, "in", p.key], lineBand pieces, statementBand ["endfor"]]
  | .whenSet p pieces => [statementBand ["if", p.key], lineBand pieces, statementBand ["endif"]]
  | .slot b => [.statements [.name "block", .name b.name] [[.name "endblock"]]]

def fillingBands (b : Block) (items : List Item) : List Band :=
  statementBand ["block", b.name] :: items.flatMap Item.bands ++ [statementBand ["endblock"]]

def extendsBand : Band := .statements [.name "extends", .text layoutName] []

def Content.bands : Content → List Band
  | .whole items => items.flatMap Item.bands
  | .filling imports symbols body =>
    extendsBand :: (fillingBands .imports imports ++ fillingBands .symbols symbols ++
      fillingBands .body body)

theorem length_bands (i : Item) : i.bands.length = i.height := by cases i <;> rfl

theorem length_flatMap_bands (items : List Item) :
    (items.flatMap Item.bands).length = heights items := by
  induction items with
  | nil => rfl
  | cons i is ih => rw [List.flatMap_cons, List.length_append, length_bands, ih, heights]

/-! ## Spelling -/

/-- The characters of lines, each with its end. -/
def charsOf (lines : List String) : List Char := lines.flatMap fun l => l.toList ++ ['\n']

theorem charsOf_append (as bs : List String) : charsOf (as ++ bs) = charsOf as ++ charsOf bs :=
  List.flatMap_append

theorem toList_source (e : Entry) : e.source.toList = charsOf e.lines := by
  rw [Entry.source, String.toList_join, List.flatMap_map]
  simp only [String.toList_append]
  rfl

theorem toList_tag (mark closing : String) (words : List String) :
    (tag mark words closing).toList =
      mark.toList ++ (words.flatMap fun w => ' ' :: w.toList) ++ ' ' :: closing.toList := by
  simp [tag, String.toList_append, String.toList_join, List.flatMap_map]

theorem toList_statementTag (words : List String) :
    (statementTag words).toList = spelledTag .statement (words.map .name) := by
  rw [statementTag, toList_tag]
  simp [spelledTag, spelledWords, List.flatMap_map, Word.spelled, Mark.opening, Mark.closing]

theorem toList_holeTag (word : String) : (holeTag word).toList = spelledTag .hole [.name word] := by
  rw [holeTag, toList_tag]
  simp [spelledTag, spelledWords, Word.spelled, Mark.opening, Mark.closing]

theorem Piece.toList_spelled (p : Piece) : p.spelled.toList = p.bit.spelled := by
  cases p with
  | text s => rfl
  | hole p => exact toList_holeTag p.key
  | entry => exact toList_holeTag Param.entry.key

theorem toList_spelledLine (pieces : List Piece) :
    (spelledLine pieces).toList = (pieces.map Piece.bit).flatMap Bit.spelled := by
  induction pieces with
  | nil => rfl
  | cons p ps ih =>
    rw [List.map_cons, List.flatMap_cons, ← ih, ← p.toList_spelled]
    cases ps with
    | nil => rw [spelledLine, spelledLine, String.toList_empty, List.append_nil]
    | cons q qs => exact String.toList_append

theorem spelled_lineBand (pieces : List Piece) :
    (lineBand pieces).spelled = charsOf [spelledLine pieces] := by
  simp [lineBand, Band.spelled, charsOf, toList_spelledLine]

theorem spelled_statementBand (names : List String) :
    (statementBand names).spelled = charsOf [statementTag names] := by
  simp [statementBand, Band.spelled, charsOf, toList_statementTag]

theorem Item.spelled_bands (i : Item) : i.bands.flatMap Band.spelled = charsOf i.lines := by
  cases i with
  | line pieces => simp [bands, lines, spelled_lineBand]
  | each p pieces => simp [bands, lines, spelled_lineBand, spelled_statementBand, charsOf]
  | whenSet p pieces => simp [bands, lines, spelled_lineBand, spelled_statementBand, charsOf]
  | slot b =>
    simp [bands, lines, Band.spelled, charsOf, String.toList_append, toList_statementTag]

theorem spelled_flatMap_bands (items : List Item) :
    (items.flatMap Item.bands).flatMap Band.spelled = charsOf (items.flatMap Item.lines) := by
  induction items with
  | nil => rfl
  | cons i is ih =>
    rw [List.flatMap_cons, List.flatMap_cons, List.flatMap_append, charsOf_append, ih,
      i.spelled_bands]

theorem spelled_fillingBands (b : Block) (items : List Item) :
    (fillingBands b items).flatMap Band.spelled = charsOf (fillingLines b items) := by
  rw [fillingBands, fillingLines, List.flatMap_append, charsOf_append, List.flatMap_cons,
    spelled_flatMap_bands, spelled_statementBand]
  simp [charsOf, spelled_statementBand]

theorem spelled_extendsBand :
    extendsBand.spelled = charsOf [statementTag ["extends", "\"" ++ layoutName ++ "\""]] := by
  simp [extendsBand, Band.spelled, charsOf, statementTag, toList_tag, spelledTag, spelledWords,
    Word.spelled, Mark.opening, Mark.closing]

/-- The lines of a page are its bands as they are spelled. -/
theorem Content.spelled_bands (c : Content) : c.bands.flatMap Band.spelled = charsOf c.lines := by
  cases c with
  | whole items => exact spelled_flatMap_bands items
  | filling imports symbols body =>
    rw [bands, lines, List.flatMap_cons, List.flatMap_append, List.flatMap_append,
      spelled_fillingBands, spelled_fillingBands, spelled_fillingBands, spelled_extendsBand,
      ← charsOf_append, ← charsOf_append, ← charsOf_append]
    rfl

/-! ## Pages that are spelled plainly -/

/-- The text stands in one line and opens no tag in front of `next`. -/
def IsPlainText (next : Char) (s : String) : Prop :=
  '\n' ∉ s.toList ∧ isQuiet next s.toList = true

/-- The key of the parameter is a name, and it is not the one of an entry. -/
structure Param.IsName (p : Param) : Prop where
  clean : (Word.name p.key).IsClean
  free : reserved.contains p.key = false
  other : p ≠ .entry

def ArePlain : List Piece → Prop
  | [] => True
  | .text s :: ps => IsPlainText (if ps.isEmpty then '\n' else '\x7b') s ∧ ArePlain ps
  | .hole p :: ps => p.IsName ∧ ArePlain ps
  | .entry :: ps => ArePlain ps

def Item.IsPlain : Item → Prop
  | .line pieces => ArePlain pieces ∧ .entry ∉ pieces
  | .each p pieces => p.IsName ∧ ArePlain pieces
  | .whenSet p pieces => p.IsName ∧ ArePlain pieces ∧ .entry ∉ pieces
  | .slot _ => True

/-- The names of the blocks whose places are among the items. -/
def slotsOf (items : List Item) : List String :=
  items.filterMap fun | .slot b => some b.name | _ => none

def Content.IsPlain : Content → Prop
  | .whole items => (∀ i ∈ items, i.IsPlain) ∧ (slotsOf items).Nodup
  | .filling imports symbols body =>
    ∀ items ∈ [imports, symbols, body], (∀ i ∈ items, i.IsPlain) ∧ slotsOf items = []

theorem Param.entry_clean : (Word.name Param.entry.key).IsClean := by decide

theorem areClean_bits {pieces : List Piece} (h : ArePlain pieces) :
    AreClean (pieces.map Piece.bit) := by
  induction pieces with
  | nil => trivial
  | cons p ps ih =>
    cases p with
    | text s =>
      obtain ⟨⟨hends, hquiet⟩, hps⟩ := h
      exact ⟨hends, by simpa using hquiet, ih hps⟩
    | hole p => exact ⟨h.1.clean, ih h.2⟩
    | entry => exact ⟨Param.entry_clean, ih h⟩

theorem isClean_statementBand {names : List String} (h : ∀ s ∈ names, (Word.name s).IsClean) :
    (statementBand names).IsClean := by
  intro ws hws w hw
  rw [List.mem_singleton.mp hws] at hw
  obtain ⟨s, hs, rfl⟩ := List.mem_map.mp hw
  exact h s hs

theorem Block.name_clean (b : Block) : (Word.name b.name).IsClean := by
  cases b <;> decide

theorem keywords_clean :
    ∀ s ∈ ["for", "in", "endfor", "if", "endif", "block", "endblock", "extends"],
      (Word.name s).IsClean := by decide

theorem Item.bands_clean {i : Item} (h : i.IsPlain) : ∀ r ∈ i.bands, r.IsClean := by
  have hkeywords := keywords_clean
  have hentry := Param.entry_clean
  simp only [List.forall_mem_cons, List.not_mem_nil, false_implies, implies_true, and_true]
    at hkeywords
  obtain ⟨hfor, hin, hendfor, hif, hendif, hblock, hendblock, -⟩ := hkeywords
  cases i with
  | line pieces => exact List.forall_mem_singleton.mpr (areClean_bits h.1)
  | each p pieces =>
    simp only [bands, List.forall_mem_cons, List.not_mem_nil, false_implies, implies_true, and_true]
    refine ⟨isClean_statementBand ?_, areClean_bits h.2, isClean_statementBand ?_⟩
    · simpa using ⟨hfor, hentry, hin, h.1.clean⟩
    · simpa using hendfor
  | whenSet p pieces =>
    simp only [bands, List.forall_mem_cons, List.not_mem_nil, false_implies, implies_true, and_true]
    refine ⟨isClean_statementBand ?_, areClean_bits h.2.1, isClean_statementBand ?_⟩
    · simpa using ⟨hif, h.1.clean⟩
    · simpa using hendif
  | slot b => simpa [bands, Band.IsClean] using ⟨⟨hblock, b.name_clean⟩, hendblock⟩

theorem clean_flatMap_bands {items : List Item} (h : ∀ i ∈ items, i.IsPlain) :
    ∀ r ∈ items.flatMap Item.bands, r.IsClean := by
  intro r hr
  obtain ⟨i, hi, hr⟩ := List.mem_flatMap.mp hr
  exact Item.bands_clean (h i hi) r hr

theorem clean_fillingBands (b : Block) {items : List Item} (h : ∀ i ∈ items, i.IsPlain) :
    ∀ r ∈ fillingBands b items, r.IsClean := by
  intro r hr
  rcases List.mem_append.mp hr with hr | hr
  · rcases List.mem_cons.mp hr with rfl | hr
    · exact isClean_statementBand (by simpa using ⟨keywords_clean _ (by simp), b.name_clean⟩)
    · exact clean_flatMap_bands h r hr
  · rw [List.mem_singleton.mp hr]
    exact isClean_statementBand (by simpa using keywords_clean _ (by simp))

theorem layoutName_clean : (Word.text layoutName).IsClean := by
  have hall : layoutName.toList.all (fun c => c != '"' && c != '\\' && c != '\n') = true := by
    decide +kernel
  intro c hc
  simpa [and_assoc] using List.all_eq_true.mp hall c hc

theorem clean_extendsBand : extendsBand.IsClean := by
  simpa [extendsBand, Band.IsClean] using ⟨keywords_clean "extends" (by simp), layoutName_clean⟩

/-- The bands of a page that is spelled plainly are read again as they are spelled. -/
theorem Content.bands_clean {c : Content} (h : c.IsPlain) : ∀ r ∈ c.bands, r.IsClean := by
  cases c with
  | whole items => exact clean_flatMap_bands h.1
  | filling imports symbols body =>
    simp only [IsPlain, List.forall_mem_cons, List.not_mem_nil, false_implies, implies_true,
      and_true] at h
    obtain ⟨⟨himports, -⟩, ⟨hsymbols, -⟩, hbody, -⟩ := h
    intro r hr
    simp only [bands, List.mem_cons, List.mem_append] at hr
    rcases hr with rfl | (hr | hr) | hr
    · exact clean_extendsBand
    · exact clean_fillingBands .imports himports r hr
    · exact clean_fillingBands .symbols hsymbols r hr
    · exact clean_fillingBands .body hbody r hr

/-! ## The nodes of a page -/

def Piece.node (place : Undefined) : Piece → Node
  | .text s => .text s
  | .hole p => .hole place (.name p.key)
  | .entry => .hole place (.name Param.entry.key)

def lineNodes (place : Undefined) (pieces : List Piece) : List Node :=
  pieces.map (Piece.node place) ++ [.text "\n"]

/-- The nodes with texts that stand side by side as one. -/
def gathered (ns : List Node) : List Node := (ns.foldl (fun ms n => joined n ms) []).reverse

def Item.nodes (stub : String) (line : Nat) : Item → List Node
  | .line pieces => lineNodes ⟨stub, line⟩ pieces
  | .each p pieces =>
    [.each ⟨stub, line⟩ Param.entry.key (.name p.key)
      (gathered (lineNodes ⟨stub, line + 1⟩ pieces))]
  | .whenSet p pieces =>
    [.whenSet ⟨stub, line⟩ (.name p.key) (gathered (lineNodes ⟨stub, line + 1⟩ pieces))]
  | .slot b => [.block b.name []]

def nodesFrom (stub : String) : Nat → List Item → List Node
  | _, [] => []
  | line, i :: is => i.nodes stub line ++ nodesFrom stub (line + i.height) is

/-- The node of a block that is filled; the statement that opens it stands on line `line`. -/
def fillingNode (stub : String) (line : Nat) (b : Block) (items : List Item) : Node :=
  .block b.name (gathered (nodesFrom stub (line + 1) items))

/-- The template that is read of a page. -/
def Page.template (p : Page) : Template :=
  match p.content with
  | .whole items => ⟨p.name, none, gathered (nodesFrom p.name 1 items)⟩
  | .filling imports symbols body =>
    ⟨p.name, some (layoutName, ⟨p.name, 1⟩),
      [fillingNode p.name 2 .imports imports,
        fillingNode p.name (4 + heights imports) .symbols symbols,
        fillingNode p.name (6 + heights imports + heights symbols) .body body]⟩

/-! ## Reading a page -/

/-- The reader behind nodes and the blocks among them. -/
def Template.Reader.after (ns : List Node) (bs : List String) (r : Reader) : Reader :=
  { r with nodes := ns.foldl (fun ms n => joined n ms) r.nodes, blocks := bs.reverse ++ r.blocks }

section Reading

variable {stub : String} {line : Nat} {r : Reader}

theorem after_append (as bs : List Node) (cs ds : List String) (r : Reader) :
    r.after (as ++ bs) (cs ++ ds) = (r.after as cs).after bs ds := by
  simp [Reader.after]

theorem expr?_name {s : String} (h : reserved.contains s = false) (line : Nat) :
    expr? ⟨line, .name s⟩ = some (line, .name s) := by
  rw [expr?, h]
  rfl

theorem foldlM_bits {pieces : List Piece} (h : ArePlain pieces) :
    (pieces.map Piece.bit).foldlM (Bit.take? stub line) r =
      some (r.after (pieces.map (Piece.node ⟨stub, line⟩)) []) := by
  induction pieces generalizing r with
  | nil => rfl
  | cons p ps ih =>
    have htake : Bit.take? stub line r p.bit = some (r.push (p.node ⟨stub, line⟩)) := by
      cases p with
      | text s => rw [Piece.bit, Bit.take?, textNode, String.ofList_toList]; rfl
      | entry => rfl
      | hole p =>
        have hexpr := expr?_name h.1.free line
        simp [Piece.bit, Bit.take?, Reader.tag?, plainTag, placed, hexpr, Piece.node]
    have hps : ArePlain ps := by
      cases p with
      | text s => exact h.2
      | hole p => exact h.2
      | entry => exact h
    rw [List.map_cons, List.foldlM_cons, htake]
    exact ih hps

theorem take?_lineBand {pieces : List Piece} (h : ArePlain pieces) :
    (lineBand pieces).take? stub line r = some (r.after (lineNodes ⟨stub, line⟩ pieces) []) := by
  rw [lineBand, Band.take?, foldlM_bits h, Option.map_some]
  exact congrArg some (after_append _ [.text "\n"] [] [] r).symm

/-- A statement that is opened. -/
theorem take?_opening {names : List String} {o : Open}
    (h : r.tag? stub (plainTag .statement line (names.map .name)) = some (r.enter o)) :
    (statementBand names).take? stub line r = some (r.enter o) := by
  simp only [statementBand, Band.take?, statements?, List.foldlM_cons, h]
  rfl

theorem leave?_enter {o : Open} {p : Open → Bool} (hp : p o = true) (ns : List Node) :
    ((r.enter o).after ns []).leave? p = some (r.push (o.close (gathered ns))) := by
  have hclose : ∀ body ms, joined (o.close body) ms = o.close body :: ms := by
    cases o <;> exact fun _ _ => rfl
  simp [Reader.leave?, Reader.after, Reader.enter, hp, Reader.push, gathered, hclose]

/-- A line between two statements. -/
theorem takeFrom?_around {o : Open} {p : Open → Bool} {names : List String} {close : String}
    {pieces : List Piece} (hopen : r.tag? stub (plainTag .statement line (names.map .name)) =
      some (r.enter o))
    (hclose : ∀ r' : Reader, r'.tag? stub (plainTag .statement (line + 2) [.name close]) =
      r'.leave? p)
    (hp : p o = true) (hpieces : ArePlain pieces) :
    takeFrom? stub line [statementBand names, lineBand pieces, statementBand [close]] r =
      some (r.push (o.close (gathered (lineNodes ⟨stub, line + 1⟩ pieces)))) := by
  simp only [takeFrom?, take?_opening hopen, Option.bind_some, take?_lineBand hpieces]
  simp [statementBand, Band.take?, statements?, hclose, leave?_enter hp]

theorem takeFrom?_item {i : Item} (h : i.IsPlain) (hslots : ∀ b ∈ slotsOf [i], b ∉ r.blocks) :
    takeFrom? stub line i.bands r = some (r.after (i.nodes stub line) (slotsOf [i])) := by
  cases i with
  | line pieces =>
    rw [Item.bands, takeFrom?, take?_lineBand h.1]
    rfl
  | each p pieces =>
    refine takeFrom?_around (p := Reader.isEach)
      (o := .each ⟨stub, line⟩ Param.entry.key (.name p.key)) ?_ (fun _ => rfl) rfl h.2
    have hexpr := expr?_name h.1.free line
    change (if ("in" == "in" && !reserved.contains Param.entry.key) = true then
      (expr? ⟨line, .name p.key⟩).map _ else none) = _
    rw [if_pos (by decide), hexpr]
    rfl
  | whenSet p pieces =>
    refine takeFrom?_around (p := Reader.isWhen) (o := .whenSet ⟨stub, line⟩ (.name p.key))
      ?_ (fun _ => rfl) rfl h.2.1
    have hexpr := expr?_name h.1.free line
    change (expr? ⟨line, .name p.key⟩).map _ = _
    rw [hexpr]
    rfl
  | slot b =>
    have hfree : r.blocks.contains b.name = false := by
      simpa using hslots b.name (by simp [slotsOf])
    have hopen : r.tag? stub (plainTag .statement line [.name "block", .name b.name]) =
        some { r.enter (.block b.name) with blocks := b.name :: r.blocks } := by
      change (if r.blocks.contains b.name = true then none else _) = _
      rw [hfree]
      rfl
    simp only [Item.bands, takeFrom?, Band.take?, statements?, List.foldlM_cons, hopen]
    rfl

theorem slotsOf_cons (i : Item) (is : List Item) : slotsOf (i :: is) = slotsOf [i] ++ slotsOf is :=
  List.filterMap_append (l := [i])

/-- The items of a page are read one after the other. -/
theorem takeFrom?_items {items : List Item} (h : ∀ i ∈ items, i.IsPlain)
    (hnodup : (slotsOf items).Nodup) (hfree : ∀ b ∈ slotsOf items, b ∉ r.blocks) :
    takeFrom? stub line (items.flatMap Item.bands) r =
      some (r.after (nodesFrom stub line items) (slotsOf items)) := by
  induction items generalizing line r with
  | nil => rfl
  | cons i is ih =>
    rw [slotsOf_cons] at hnodup hfree
    obtain ⟨-, hrest, hapart⟩ := List.nodup_append.mp hnodup
    have hi : takeFrom? stub line i.bands r = _ := takeFrom?_item (h i List.mem_cons_self)
      fun b hb => hfree b (List.mem_append_left _ hb)
    rw [List.flatMap_cons, takeFrom?_append, hi, length_bands, Option.bind_some,
      ih (fun j hj => h j (List.mem_cons_of_mem i hj)) hrest, slotsOf_cons i is, nodesFrom,
      after_append]
    intro b hb hmem
    rcases List.mem_append.mp hmem with hmem | hmem
    · exact hapart b (List.mem_reverse.mp hmem) b hb rfl
    · exact hfree b (List.mem_append_right _ hb) hmem

/-- A block that is filled is read as one node. -/
theorem takeFrom?_filling {b : Block} {items : List Item} (h : ∀ i ∈ items, i.IsPlain)
    (hslots : slotsOf items = []) (hfree : b.name ∉ r.blocks) :
    takeFrom? stub line (fillingBands b items) r =
      some { r.push (fillingNode stub line b items) with blocks := b.name :: r.blocks } := by
  let inner : Reader := { r.enter (.block b.name) with blocks := b.name :: r.blocks }
  have hopen : (statementBand ["block", b.name]).take? stub line r = some inner := by
    have htag : r.tag? stub (plainTag .statement line [.name "block", .name b.name]) =
        some inner := by
      change (if r.blocks.contains b.name = true then none else _) = _
      rw [if_neg (by simpa using hfree)]
    simp only [statementBand, Band.take?, statements?, List.map_cons, List.map_nil,
      List.foldlM_cons, htag]
    rfl
  have hitems : takeFrom? stub (line + 1) (items.flatMap Item.bands) inner = _ :=
    takeFrom?_items h (by simp [hslots]) (by simp [hslots])
  rw [fillingBands, List.cons_append, takeFrom?, hopen, Option.bind_some, takeFrom?_append, hitems,
    hslots]
  rfl

theorem length_fillingBands (b : Block) (items : List Item) :
    (fillingBands b items).length = heights items + 2 := by
  rw [fillingBands, List.length_append, List.length_cons, length_flatMap_bands]
  rfl

end Reading

/-- A page that is spelled plainly is read as its template. -/
theorem Page.read_source {s : Settings} (hs : s.IsNeat) {p : Page} (h : p.content.IsPlain) :
    read s p.name p.entry.source = .ok p.template := by
  have hsource : p.entry.source.toList = p.content.bands.flatMap Band.spelled := by
    rw [toList_source, Content.spelled_bands]
    rfl
  have hclean := Content.bands_clean h
  obtain ⟨name, content⟩ := p
  cases content with
  | whole items =>
    exact read_of_bands hs hsource hclean
      (takeFrom?_items h.1 h.2 (fun b _ hmem => nomatch hmem)) rfl
  | filling imports symbols body =>
    simp only [Content.IsPlain, List.forall_mem_cons, List.not_mem_nil, false_implies,
      implies_true, and_true] at h
    obtain ⟨⟨himports, hnone⟩, ⟨hsymbols, hnone'⟩, hbody, hnone''⟩ := h
    have htake : takeFrom? name 1 (Content.filling imports symbols body).bands .start =
        some ⟨some (layoutName, ⟨name, 1⟩), ["body", "symbols", "imports"], [],
          (Page.template ⟨name, .filling imports symbols body⟩).nodes.reverse⟩ := by
      have hextends : extendsBand.take? name 1 .start =
          some { Reader.start with layout := some (layoutName, ⟨name, 1⟩) } := rfl
      rw [Content.bands, takeFrom?, hextends, Option.bind_some, List.append_assoc,
        takeFrom?_append, takeFrom?_filling himports hnone (by simp [Reader.start]),
        Option.bind_some, takeFrom?_append,
        takeFrom?_filling hsymbols hnone' (by simp [Reader.start, Block.name]), Option.bind_some,
        takeFrom?_filling hbody hnone'' (by simp [Reader.start, Block.name])]
      have hsecond : 1 + 1 + (fillingBands .imports imports).length = 4 + heights imports := by
        rw [length_fillingBands]
        omega
      have hthird : 4 + heights imports + (fillingBands .symbols symbols).length =
          6 + heights imports + heights symbols := by
        rw [length_fillingBands]
        omega
      rw [hsecond, hthird]
      rfl
    have hread := read_of_bands hs hsource hclean htake rfl
    rw [hread]
    simp [Page.template]

end Graft.Stub
