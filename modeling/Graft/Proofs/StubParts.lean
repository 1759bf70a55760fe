-- A filled stub is its own text with what it is given in the holes. The first use of a parameter
-- that has no value is reported; otherwise the parts of the stub stand one behind the other, and
-- each says no more and no less than what its own parameters are given.
import Mathlib.Data.List.Forall2
import Graft.Proofs.Filling
import Graft.Proofs.Rendering

namespace Graft.Stub

/-! ## What is evaluated -/

/-- A parameter that is evaluated, and where. -/
abbrev Use := Param × Undefined

def usesAt (place : Undefined) (pieces : List Piece) : List Use :=
  (paramsOf pieces).map fun p => (p, place)

/-- What an item evaluates, in order. `block` gives the uses of a block. -/
def Item.uses (d : Data) (stub : String) (block : Block → List Use) (line : Nat) :
    Item → List Use
  | .line pieces => usesAt ⟨stub, line⟩ pieces
  | .each p pieces =>
    (p, ⟨stub, line⟩) ::
      match d.get? p with
      | some v => v.entries.flatMap fun _ => usesAt ⟨stub, line + 1⟩ pieces
      | none => []
  | .whenSet p pieces =>
    (p, ⟨stub, line⟩) ::
      match d.get? p with
      | some v => if v.isSet then usesAt ⟨stub, line + 1⟩ pieces else []
      | none => []
  | .slot b => block b

def usesFrom (d : Data) (stub : String) (block : Block → List Use) : Nat → List Item → List Use
  | _, [] => []
  | line, i :: is => i.uses d stub block line ++ usesFrom d stub block (line + i.height) is

def blockUses (d : Data) (stub : String) (imports symbols body : List Item) : Block → List Use
  | .imports => usesFrom d stub (fun _ => []) 3 imports
  | .symbols => usesFrom d stub (fun _ => []) (5 + heights imports) symbols
  | .body => usesFrom d stub (fun _ => []) (7 + heights imports + heights symbols) body

/-- What a page evaluates where it is filled with the data. -/
def Page.uses (d : Data) (p : Page) : List Use :=
  match p.content with
  | .whole items => usesFrom d p.name (fun _ => []) 1 items
  | .filling imports symbols body =>
    usesFrom d layoutName (blockUses d p.name imports symbols body) 1 layout

/-- The place of the first use of a parameter that has no value. -/
def firstMissing? (d : Data) (uses : List Use) : Option Undefined :=
  (uses.find? fun use => (d.get? use.1).isNone).map Prod.snd

/-! ## What is missing -/

section

variable {d : Data} {us vs : List Use} {r : Except Undefined String}

/-- The result is a text if nothing is missing, and else the place of what is missing first. -/
def Reports (d : Data) (uses : List Use) (r : Except Undefined String) : Prop :=
  match firstMissing? d uses with
  | none => ∃ s, r = .ok s
  | some place => r = .error place

theorem reports_ok (s : String) : Reports d [] (.ok s) := ⟨s, rfl⟩

theorem reports_missing {p : Param} (h : d.get? p = none) (place : Undefined) :
    Reports d ((p, place) :: us) (.error place) := by
  unfold Reports firstMissing?
  rw [List.find?_cons_of_pos (by rw [h]; rfl)]
  rfl

theorem Reports.given {p : Param} {v : Value} (hr : Reports d us r) (h : d.get? p = some v)
    (place : Undefined) : Reports d ((p, place) :: us) r := by
  unfold Reports firstMissing?
  rw [List.find?_cons_of_neg (by rw [h]; exact Bool.false_ne_true)]
  exact hr

theorem Reports.bind {f : String → Except Undefined String} (hr : Reports d us r)
    (hf : ∀ s, Reports d vs (f s)) : Reports d (us ++ vs) (r >>= f) := by
  unfold Reports firstMissing? at hr ⊢
  rw [List.find?_append]
  cases hmissing : us.find? fun use => (d.get? use.1).isNone with
  | none =>
    rw [hmissing] at hr
    obtain ⟨s, rfl⟩ := hr
    exact hf s
  | some use =>
    rw [hmissing] at hr
    rw [show r = .error use.2 from hr]
    rfl

theorem Reports.map (g : String → String) (hr : Reports d us r) :
    Reports d us (r >>= fun s => pure (g s)) := by
  have hmap := hr.bind fun s => reports_ok (d := d) (g s)
  rwa [List.append_nil] at hmap

variable {stub : String} {block : Block → Except Undefined String} {blockUses : Block → List Use}

theorem Piece.reports (p : Piece) (entry : String) (place : Undefined) :
    Reports d (p.params.map fun q => (q, place)) (p.fill d entry place) := by
  cases p with
  | text s => exact reports_ok s
  | entry => exact reports_ok entry
  | hole q =>
    cases hv : d.get? q with
    | none =>
      rw [fill, hv]
      exact reports_missing hv place
    | some v =>
      rw [fill, hv]
      exact (reports_ok v.shown).given hv place

theorem reports_fillLine (pieces : List Piece) (entry : String) (place : Undefined) :
    Reports d (usesAt place pieces) (fillLine d entry place pieces) := by
  induction pieces with
  | nil => exact reports_ok ""
  | cons p ps ih =>
    rw [usesAt, paramsOf, List.flatMap_cons, List.map_append]
    exact (p.reports entry place).bind fun s => ih.map fun rest => s ++ rest

theorem reports_fillEach (pieces : List Piece) (place : Undefined) (entries : List String) :
    Reports d (entries.flatMap fun _ => usesAt place pieces)
      (fillEach d place pieces entries) := by
  induction entries with
  | nil => exact reports_ok ""
  | cons e es ih =>
    exact (reports_fillLine pieces e place).bind fun s => ih.map fun rest => endLine s ++ rest

theorem Item.reports (i : Item) (hblock : ∀ b, Reports d (blockUses b) (block b)) (line : Nat) :
    Reports d (i.uses d stub blockUses line) (i.fill d stub block line) := by
  cases i with
  | line pieces => exact (reports_fillLine pieces "" ⟨stub, line⟩).map endLine
  | each p pieces =>
    rw [uses, fill]
    cases hv : d.get? p with
    | none => exact reports_missing hv _
    | some v => exact (reports_fillEach pieces _ v.entries).given hv _
  | whenSet p pieces =>
    rw [uses, fill]
    cases hv : d.get? p with
    | none => exact reports_missing hv _
    | some v =>
      dsimp only
      by_cases hset : v.isSet = true
      · rw [if_pos hset, if_pos hset]
        exact ((reports_fillLine pieces "" _).map endLine).given hv _
      · rw [if_neg hset, if_neg hset]
        exact (reports_ok "").given hv _
  | slot b => exact hblock b

theorem reports_fillItems (items : List Item) (hblock : ∀ b, Reports d (blockUses b) (block b))
    (line : Nat) :
    Reports d (usesFrom d stub blockUses line items) (fillItems d stub block line items) := by
  induction items generalizing line with
  | nil => exact reports_ok ""
  | cons i is ih =>
    exact (i.reports hblock line).bind fun s => (ih (line + i.height)).map fun rest => s ++ rest

theorem reports_fillBlock (imports symbols body : List Item) (b : Block) :
    Reports d (Stub.blockUses d stub imports symbols body b)
      (fillBlock d stub imports symbols body b) := by
  have hno : ∀ b, Reports d [] (noBlocks b) := fun _ => reports_ok ""
  cases b
  case imports => exact reports_fillItems imports hno _
  case symbols => exact reports_fillItems symbols hno _
  case body => exact reports_fillItems body hno _

/-- Filling a page reports the first use of a parameter that has no value, if there is one. -/
theorem Page.reports (d : Data) (p : Page) : Reports d (p.uses d) (p.fill d) := by
  cases p with
  | mk name content =>
    cases content with
    | whole items => exact reports_fillItems items (fun _ => reports_ok "") 1
    | filling imports symbols body =>
      exact reports_fillItems layout (reports_fillBlock imports symbols body) 1

end

/-! ## The parts of a stub -/

inductive Part
  /-- What the stub says itself. -/
  | fixed (s : String)
  | hole (p : Param)
  /-- The lines that call the seeders. -/
  | calls
  /-- The line that imports what the registrer comes from. -/
  | importLine
  deriving DecidableEq, Repr

/-- The parameters that a part shows. -/
def Part.params : Part → List Param
  | .fixed _ => []
  | .hole p => [p]
  | .calls => [.seeders, .seederPackage]
  | .importLine => [.routeRegistrerImport]

/-- What a part says where the data gives its parameters: a hole just what is given, letter for
letter. Each seeder is called on a line of its own, in order, and nothing is imported if nothing is
named. -/
inductive Part.Says (d : Data) : Part → String → Prop
  | fixed {s : String} : Says d (.fixed s) s
  | hole {p : Param} {s : String} (h : d.get? p = some (.text s)) : Says d (.hole p) s
  | calls {ss : List String} {package : String} (hs : d.get? .seeders = some (.list ss))
    (hp : d.get? .seederPackage = some (.text package)) :
    Says d .calls (String.join (ss.map fun s => "\t" ++ package ++ "." ++ s ++ "()\n"))
  | noCalls (hs : d.get? .seeders = some (.list [])) : Says d .calls ""
  | importLine {s : String} (h : d.get? .routeRegistrerImport = some (.text s)) (hs : s ≠ "") :
    Says d .importLine ("\t" ++ s ++ "\n")
  | noImport (h : d.get? .routeRegistrerImport = some (.text "")) : Says d .importLine ""

def Piece.part : Piece → Part
  | .text s => .fixed s
  | .hole p => .hole p
  | .entry => .fixed ""

/-- The parts of an item; a repeated line calls the seeders, and a conditional one imports. -/
def Item.parts (block : Block → List Part) : Item → List Part
  | .line pieces => pieces.map Piece.part ++ [.fixed "\n"]
  | .each _ _ => [.calls]
  | .whenSet _ _ => [.importLine]
  | .slot b => block b

def partsOf (items : List Item) : List Part := items.flatMap (Item.parts fun _ => [])

def blockParts (imports symbols body : List Item) : Block → List Part
  | .imports => partsOf imports
  | .symbols => partsOf symbols
  | .body => partsOf body

/-- The parts of a page, with the layout around its blocks if it fills these. -/
def Page.parts (p : Page) : List Part :=
  match p.content with
  | .whole items => partsOf items
  | .filling imports symbols body => layout.flatMap (Item.parts (blockParts imports symbols body))

/-! ## Parts in a row -/

/-- The data gives the parameter a value of its kind: a list of seeders, and else a text. -/
def Data.Suits (d : Data) (p : Param) : Prop :=
  if p = .seeders then ∃ ss, d.get? p = some (.list ss) else ∃ s, d.get? p = some (.text s)

theorem suits_iff {d : Data} {p : Param} : d.Suits p ↔
    (d.get? p).any (fun | .text _ => p != .seeders | .list _ => p == .seeders) = true := by
  unfold Data.Suits
  by_cases hp : p = .seeders
  · subst hp
    rw [if_pos rfl]
    rcases d.get? .seeders with _ | s | ss <;> simp
  · rw [if_neg hp]
    rcases d.get? p with _ | s | ss <;> simp [hp]

instance (d : Data) (p : Param) : Decidable (d.Suits p) := decidable_of_iff' _ suits_iff

theorem Data.Suits.text {d : Data} {p : Param} (h : d.Suits p) (hp : p ≠ .seeders) :
    ∃ s, d.get? p = some (.text s) := by
  unfold Suits at h
  rwa [if_neg hp] at h

theorem Data.Suits.list {d : Data} (h : d.Suits .seeders) :
    ∃ ss, d.get? .seeders = some (.list ss) := h

/-- The line that calls a seeder. -/
def callPieces : List Piece :=
  [.text "\t", .hole .seederPackage, .text ".", .entry, .text "()"]

def importPieces : List Piece := [.text "\t", .hole .routeRegistrerImport]

/-- The piece stands in a line of its own right: it shows a text, if anything. -/
def Piece.isPlain : Piece → Bool
  | .text _ => true
  | .hole p => p != .seeders
  | .entry => false

/-- The only lines that are repeated call the seeders, and the only conditional ones import what
the registrer comes from. -/
def Item.isUsual : Item → Bool
  | .line pieces => pieces.all Piece.isPlain
  | .each p pieces => p == .seeders && pieces == callPieces
  | .whenSet p pieces => p == .routeRegistrerImport && pieces == importPieces
  | .slot _ => true

section

variable {d : Data} {ps qs : List Part} {r r' : Except Undefined String}

/-- The result is a text, and the parts say it one behind the other. -/
def Splices (d : Data) (ps : List Part) (r : Except Undefined String) : Prop :=
  ∃ texts, List.Forall₂ (Part.Says d) ps texts ∧ r = .ok (String.join texts)

theorem splices_nil : Splices d [] (.ok "") := ⟨[], .nil, rfl⟩

theorem splices_one {part : Part} {s : String} (h : part.Says d s) : Splices d [part] (.ok s) :=
  ⟨[s], .cons h .nil, by rw [String.join_cons, String.join_nil, String.append_empty]⟩

theorem Splices.append (h : Splices d ps r) (h' : Splices d qs r') :
    Splices d (ps ++ qs) (r >>= fun s => r' >>= fun t => pure (s ++ t)) := by
  obtain ⟨texts, hsays, rfl⟩ := h
  obtain ⟨texts', hsays', rfl⟩ := h'
  exact ⟨texts ++ texts', List.rel_append hsays hsays', by rw [String.join_append]; rfl⟩

variable {stub : String} {block : Block → Except Undefined String} {blockUses : Block → List Use}
  {blockParts : Block → List Part}

theorem Piece.splices {p : Piece} (hplain : p.isPlain = true) (h : ∀ q ∈ p.params, d.Suits q)
    (entry : String) (place : Undefined) : Splices d [p.part] (p.fill d entry place) := by
  cases p with
  | text s => exact splices_one .fixed
  | entry => cases hplain
  | hole q =>
    obtain ⟨s, hs⟩ := (h q List.mem_cons_self).text (by simpa [isPlain] using hplain)
    rw [fill, hs]
    exact splices_one (.hole hs)

theorem splices_fillLine {pieces : List Piece} (hplain : pieces.all Piece.isPlain = true)
    (h : ∀ q ∈ paramsOf pieces, d.Suits q) (entry : String) (place : Undefined) :
    Splices d (pieces.map Piece.part) (fillLine d entry place pieces) := by
  induction pieces with
  | nil => exact splices_nil
  | cons p pieces ih =>
    rw [List.all_cons, Bool.and_eq_true] at hplain
    rw [paramsOf, List.flatMap_cons] at h
    have hp := Piece.splices hplain.1 (fun q hq => h q (List.mem_append_left _ hq)) entry place
    exact hp.append (ih hplain.2 fun q hq => h q (List.mem_append_right _ hq))

theorem fillLine_callPieces {package : String}
    (hp : d.get? .seederPackage = some (.text package)) (s : String) (place : Undefined) :
    fillLine d s place callPieces = .ok ("\t" ++ package ++ "." ++ s ++ "()") := by
  simp only [callPieces, fillLine, Piece.fill, hp, Value.shown, bind, Except.bind, pure,
    Except.pure, String.append_assoc, String.append_empty]

theorem fillEach_callPieces {package : String}
    (hp : d.get? .seederPackage = some (.text package)) (ss : List String) (place : Undefined) :
    fillEach d place callPieces ss =
      .ok (String.join (ss.map fun s => "\t" ++ package ++ "." ++ s ++ "()\n")) := by
  induction ss with
  | nil => rfl
  | cons s ss ih =>
    have hline : endLine ("\t" ++ package ++ "." ++ s ++ "()") =
        "\t" ++ package ++ "." ++ s ++ "()\n" := by
      rw [endLine, show "()\n" = "()" ++ "\n" from rfl, ← String.append_assoc]
    rw [fillEach, fillLine_callPieces hp, ih, List.map_cons, String.join_cons, ← hline]
    rfl

/-- The uses of a repeated line are those of one of its lines, if there is one. -/
theorem suits_seederPackage {ss : List String} (hne : ss ≠ []) {place : Undefined}
    (h : ∀ use ∈ ss.flatMap fun _ => usesAt place callPieces, d.Suits use.1) :
    ∃ package, d.get? .seederPackage = some (.text package) := by
  obtain ⟨s, hs⟩ := List.exists_mem_of_ne_nil ss hne
  have huse : (Param.seederPackage, place) ∈ ss.flatMap fun _ => usesAt place callPieces :=
    List.mem_flatMap.mpr ⟨s, hs, List.mem_cons_self⟩
  have hsuits : d.Suits .seederPackage := h _ huse
  exact hsuits.text (by decide)

theorem splices_each {line : Nat}
    (h : ∀ use ∈ (Item.each .seeders callPieces).uses d stub blockUses line, d.Suits use.1) :
    Splices d [.calls] ((Item.each .seeders callPieces).fill d stub block line) := by
  obtain ⟨ss, hs⟩ := (h _ List.mem_cons_self).list
  rw [Item.uses, hs] at h
  rw [Item.fill, hs]
  by_cases hne : ss = []
  · subst hne
    exact splices_one (.noCalls hs)
  · obtain ⟨package, hp⟩ := suits_seederPackage hne fun use huse => h use (List.mem_cons_of_mem _ huse)
    dsimp only [Value.entries]
    rw [fillEach_callPieces hp]
    exact splices_one (.calls hs hp)

theorem splices_whenSet {line : Nat}
    (h : ∀ use ∈ (Item.whenSet .routeRegistrerImport importPieces).uses d stub blockUses line,
      d.Suits use.1) :
    Splices d [.importLine]
      ((Item.whenSet .routeRegistrerImport importPieces).fill d stub block line) := by
  have hsuits : d.Suits .routeRegistrerImport := h _ List.mem_cons_self
  obtain ⟨s, hs⟩ := hsuits.text (by decide)
  rw [Item.fill, hs]
  dsimp only
  by_cases hempty : s = ""
  · subst hempty
    exact splices_one (.noImport hs)
  · have hline : fillLine d "" ⟨stub, line + 1⟩ importPieces = .ok ("\t" ++ s) := by
      simp only [importPieces, fillLine, Piece.fill, hs, Value.shown, bind, Except.bind, pure,
        Except.pure, String.append_empty]
    have hset : (Value.text s).isSet = true := by simpa [Value.isSet] using hempty
    rw [if_pos hset, hline]
    exact splices_one (.importLine hs hempty)

theorem Item.splices {i : Item} (husual : i.isUsual = true) {line : Nat}
    (h : ∀ use ∈ i.uses d stub blockUses line, d.Suits use.1)
    (hblock : ∀ b, (∀ use ∈ blockUses b, d.Suits use.1) → Splices d (blockParts b) (block b)) :
    Splices d (i.parts blockParts) (i.fill d stub block line) := by
  cases i with
  | line pieces =>
    have hline := splices_fillLine husual (fun q hq => h (q, ⟨stub, line⟩)
      (List.mem_map_of_mem hq)) "" ⟨stub, line⟩
    exact hline.append (splices_one .fixed)
  | each p pieces =>
    rw [isUsual, Bool.and_eq_true, beq_iff_eq, beq_iff_eq] at husual
    obtain ⟨rfl, rfl⟩ := husual
    exact splices_each h
  | whenSet p pieces =>
    rw [isUsual, Bool.and_eq_true, beq_iff_eq, beq_iff_eq] at husual
    obtain ⟨rfl, rfl⟩ := husual
    exact splices_whenSet h
  | slot b => exact hblock b h

theorem splices_fillItems {items : List Item} (husual : items.all Item.isUsual = true) {line : Nat}
    (h : ∀ use ∈ usesFrom d stub blockUses line items, d.Suits use.1)
    (hblock : ∀ b, (∀ use ∈ blockUses b, d.Suits use.1) → Splices d (blockParts b) (block b)) :
    Splices d (items.flatMap (Item.parts blockParts)) (fillItems d stub block line items) := by
  induction items generalizing line with
  | nil => exact splices_nil
  | cons i is ih =>
    rw [List.all_cons, Bool.and_eq_true] at husual
    have hi := Item.splices husual.1 (fun use huse => h use (List.mem_append_left _ huse)) hblock
    exact hi.append (ih husual.2 fun use huse => h use (List.mem_append_right _ huse))

theorem splices_fillBlock {imports symbols body : List Item}
    (himports : imports.all Item.isUsual = true) (hsymbols : symbols.all Item.isUsual = true)
    (hbody : body.all Item.isUsual = true) (b : Block)
    (h : ∀ use ∈ Stub.blockUses d stub imports symbols body b, d.Suits use.1) :
    Splices d (Stub.blockParts imports symbols body b)
      (fillBlock d stub imports symbols body b) := by
  have hno : ∀ b : Block, (∀ use ∈ ([] : List Use), d.Suits use.1) → Splices d [] (noBlocks b) :=
    fun _ _ => splices_nil
  cases b
  case imports => exact splices_fillItems himports h hno
  case symbols => exact splices_fillItems hsymbols h hno
  case body => exact splices_fillItems hbody h hno

end

def Content.isUsual : Content → Bool
  | .whole items => items.all Item.isUsual
  | .filling imports symbols body =>
    imports.all Item.isUsual && symbols.all Item.isUsual && body.all Item.isUsual

theorem layout_isUsual : layout.all Item.isUsual = true := by decide

theorem Page.splices {d : Data} {p : Page} (husual : p.content.isUsual = true)
    (h : ∀ use ∈ p.uses d, d.Suits use.1) : Splices d p.parts (p.fill d) := by
  cases p with
  | mk name content =>
    cases content with
    | whole items => exact splices_fillItems husual h fun _ _ => splices_nil
    | filling imports symbols body =>
      simp only [Content.isUsual, Bool.and_eq_true] at husual
      exact splices_fillItems layout_isUsual h
        (splices_fillBlock husual.1.1 husual.1.2 husual.2)

/-! ## Other values -/

section

variable {d d' : Data} {part : Part}

theorem Part.Says.unique {s t : String} (hs : part.Says d s) (ht : part.Says d t) : s = t := by
  cases hs <;> cases ht <;> simp_all

/-- What a part says depends on its own parameters only. -/
theorem Part.Says.congr {s : String} (hs : part.Says d s)
    (hsame : ∀ q ∈ part.params, d'.get? q = d.get? q) : part.Says d' s := by
  cases hs with
  | fixed => exact .fixed
  | hole h => exact .hole ((hsame _ (by simp [params])).trans h)
  | calls hs hp =>
    exact .calls ((hsame _ (by simp [params])).trans hs) ((hsame _ (by simp [params])).trans hp)
  | noCalls hs => exact .noCalls ((hsame _ (by simp [params])).trans hs)
  | importLine h hs => exact .importLine ((hsame _ (by simp [params])).trans h) hs
  | noImport h => exact .noImport ((hsame _ (by simp [params])).trans h)

/-- Where only one parameter changes, the parts that do not show it say the same. -/
theorem getElem?_eq_of_says {parts : List Part} {texts texts' : List String} {p : Param}
    (hsame : ∀ q, q ≠ p → d'.get? q = d.get? q) (h : List.Forall₂ (Part.Says d) parts texts)
    (h' : List.Forall₂ (Part.Says d') parts texts') (i : Nat) (hi : parts[i]? = some part)
    (hp : p ∉ part.params) : texts'[i]? = texts[i]? := by
  induction h generalizing texts' i with
  | nil => cases hi
  | @cons q s parts texts hs _ ih =>
    cases h' with
    | @cons _ s' _ texts' hs' hrest =>
      cases i with
      | zero =>
        rw [List.getElem?_cons_zero, Option.some.injEq] at hi
        subst hi
        have hboth := hs.congr fun q hq => hsame q fun heq => hp (heq ▸ hq)
        rw [List.getElem?_cons_zero, List.getElem?_cons_zero, hboth.unique hs']
      | succ i => exact ih hrest i hi

end

/-! ## The law -/

theorem isUsual_of_mem : ∀ p ∈ pages, p.content.isUsual = true := by decide +kernel

theorem countCalls_of_mem : ∀ p ∈ pages, p.parts.count .calls =
    if p.name = "inject/seed/default.go.stub" then 1 else 0 := by decide +kernel

theorem countImports_of_mem : ∀ p ∈ pages, p.parts.count .importLine =
    if p.name = "inject/openapi/default.go.stub" then 1 else 0 := by decide +kernel

theorem exists_firstMissing {d : Data} {uses : List Use} {use : Use} (huse : use ∈ uses)
    (hnone : d.get? use.1 = none) : ∃ place, firstMissing? d uses = some place := by
  have hsome : (uses.find? fun use => (d.get? use.1).isNone).isSome = true :=
    List.find?_isSome.mpr ⟨use, huse, by rw [hnone]; rfl⟩
  obtain ⟨first, hfirst⟩ := Option.isSome_iff_exists.mp hsome
  exact ⟨first.2, by rw [firstMissing?, hfirst]; rfl⟩

/-- The stubs are the spelled pages. A stub whose parameters are given is rendered as the text of its
page with what they are given in their places, and a parameter without a value is reported where it
is evaluated first. What a parameter is given shows in its own parts only. One stub calls the
seeders, once, and one imports what the registrer comes from. -/
theorem every_stub_shows_what_it_is_given {page : Page} (hpage : page ∈ pages) :
    (catalog = pages.map Page.entry ∧ ⟨layoutName, .whole layout⟩ ∈ pages) ∧
    (∀ d, (∀ use ∈ page.uses d, d.Suits use.1) →
      ∃ texts, List.Forall₂ (Part.Says d) page.parts texts ∧
        render page.name d = .ok (String.join texts)) ∧
    (∀ d, ∀ use ∈ page.uses d, d.get? use.1 = none →
      ∃ place, firstMissing? d (page.uses d) = some place ∧
        render page.name d = .error (.undefined page.name place)) ∧
    (∀ d d' p texts texts', (∀ q, q ≠ p → d'.get? q = d.get? q) →
      List.Forall₂ (Part.Says d) page.parts texts → List.Forall₂ (Part.Says d') page.parts texts' →
        ∀ (i : Nat) (part : Part), page.parts[i]? = some part → p ∉ part.params →
          texts'[i]? = texts[i]?) ∧
    page.parts.count .calls = (if page.name = "inject/seed/default.go.stub" then 1 else 0) ∧
    page.parts.count .importLine =
      (if page.name = "inject/openapi/default.go.stub" then 1 else 0) := by
  refine ⟨⟨catalog_eq, layout_mem⟩, fun d hsuits => ?_, fun d use huse hnone => ?_,
    fun d d' p texts texts' hsame h h' i part hi hp => getElem?_eq_of_says hsame h h' i hi hp,
    countCalls_of_mem page hpage, countImports_of_mem page hpage⟩
  · obtain ⟨texts, hsays, hfill⟩ := page.splices (isUsual_of_mem page hpage) hsuits
    exact ⟨texts, hsays, render_of_fill hpage hfill⟩
  · obtain ⟨place, hplace⟩ := exists_firstMissing huse hnone
    have hreports := page.reports d
    unfold Reports at hreports
    rw [hplace] at hreports
    refine ⟨place, hplace, ?_⟩
    rw [render_of_mem hpage, show page.fill d = .error place from hreports]
    rfl

namespace Sample

/-- The page of the stub that calls the seeders. -/
def seeding : Page := ⟨"inject/seed/default.go.stub", Injection.seed⟩

/-- Values with quotes, line ends and the marks of a hole in them. -/
def seedingData : Data :=
  [(.goyaveImportPath, .text "goyave.dev/goyave/v4"), (.seederImportPath, .text "shop/\"seeds\"\n"),
    (.seederPackage, .text "\x7b\x7b Name \x7d\x7d"), (.seeders, .list ["Users", "Run"]),
    (.symbolEnv, .text "SYMBOL"), (.resultEnv, .text "RESULT"), (.listSymbol, .text "")]

/-- The seeders of the shop are called, and a stub without a value is reported where the layout
uses it. -/
theorem the_stub_of_the_shop_shows_what_it_is_given :
    (∃ texts, List.Forall₂ (Part.Says seedingData) seeding.parts texts ∧
      render seeding.name seedingData = .ok (String.join texts)) ∧
    seeding.parts.count .calls = 1 ∧
    ∃ place, firstMissing? seedingData.dropLast (seeding.uses seedingData.dropLast) = some place ∧
      render seeding.name seedingData.dropLast = .error (.undefined seeding.name place) := by
  have hmem : seeding ∈ pages := List.mem_of_getElem? (i := 8) rfl
  obtain ⟨-, hgiven, hmissing, -, hcalls, -⟩ := every_stub_shows_what_it_is_given hmem
  refine ⟨hgiven seedingData (by decide +kernel), hcalls, ?_⟩
  exact hmissing seedingData.dropLast (.listSymbol, ⟨layoutName, 53⟩) (by decide +kernel) rfl

end Sample

end Graft.Stub
