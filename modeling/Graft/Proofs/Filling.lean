-- Filling a stub: it comes to a text if the data gives all that the stub
-- uses, and each item stands in the text between those before and those
-- behind it. A stub that fills the shared layout has its imports in front of
-- its functions.
import Graft.Proofs.StubPages

namespace Graft.Stub

/-! ## What a stub uses -/

/-- The parameter that a piece uses. -/
def Piece.params : Piece → List Param
  | .hole p => [p]
  | _ => []

/-- The parameters that the pieces of a line use. -/
def paramsOf (pieces : List Piece) : List Param := pieces.flatMap Piece.params

/-- The parameters that an item uses, without those of the block that stands in it. -/
def Item.params : Item → List Param
  | .line pieces => paramsOf pieces
  | .each p pieces => p :: paramsOf pieces
  | .whenSet p pieces => p :: paramsOf pieces
  | .slot _ => []

/-- The data gives a value to each of the parameters. -/
def Data.Gives (d : Data) (ps : List Param) : Prop := ∀ p ∈ ps, ∃ v, d.get? p = some v

theorem Data.Gives.mono {d : Data} {ps qs : List Param} (h : d.Gives ps) (hs : ∀ q ∈ qs, q ∈ ps) :
    d.Gives qs :=
  fun q hq => h q (hs q hq)

/-! ## Nothing is missing -/

section

variable {d : Data} (stub : String) {block : Block → Except Undefined String}

theorem Piece.fill_ok {p : Piece} (h : d.Gives p.params) (entry : String) (place : Undefined) :
    ∃ s, p.fill d entry place = .ok s := by
  cases p with
  | text s => exact ⟨s, rfl⟩
  | hole q =>
    obtain ⟨v, hv⟩ := h q List.mem_cons_self
    exact ⟨v.shown, by simp only [fill, hv]⟩
  | entry => exact ⟨entry, rfl⟩

theorem fillLine_ok {pieces : List Piece} (h : d.Gives (paramsOf pieces)) (entry : String)
    (place : Undefined) : ∃ s, fillLine d entry place pieces = .ok s := by
  induction pieces with
  | nil => exact ⟨"", rfl⟩
  | cons p ps ih =>
    obtain ⟨s, hs⟩ := Piece.fill_ok (h.mono fun q hq => List.mem_append_left _ hq) entry place
    obtain ⟨rest, hrest⟩ := ih (h.mono fun q hq => List.mem_append_right _ hq)
    refine ⟨s ++ rest, ?_⟩
    unfold fillLine
    rw [hs, hrest]
    rfl

theorem fillEach_ok {pieces : List Piece} (h : d.Gives (paramsOf pieces)) (place : Undefined)
    (entries : List String) : ∃ s, fillEach d place pieces entries = .ok s := by
  induction entries with
  | nil => exact ⟨"", rfl⟩
  | cons e es ih =>
    obtain ⟨s, hs⟩ := fillLine_ok h e place
    obtain ⟨rest, hrest⟩ := ih
    refine ⟨endLine s ++ rest, ?_⟩
    unfold fillEach
    rw [hs, hrest]
    rfl

theorem Item.fill_ok {i : Item} (h : d.Gives i.params) (hb : ∀ b, ∃ s, block b = .ok s)
    (line : Nat) : ∃ s, i.fill d stub block line = .ok s := by
  cases i with
  | line pieces =>
    obtain ⟨s, hs⟩ := fillLine_ok h "" ⟨stub, line⟩
    refine ⟨endLine s, ?_⟩
    simp only [fill, hs]
    rfl
  | each p pieces =>
    obtain ⟨v, hv⟩ := h p List.mem_cons_self
    obtain ⟨s, hs⟩ :=
      fillEach_ok (h.mono fun q hq => List.mem_cons_of_mem _ hq) ⟨stub, line + 1⟩ v.entries
    exact ⟨s, by simp only [fill, hv, hs]⟩
  | whenSet p pieces =>
    obtain ⟨v, hv⟩ := h p List.mem_cons_self
    obtain ⟨s, hs⟩ :=
      fillLine_ok (h.mono fun q hq => List.mem_cons_of_mem _ hq) "" ⟨stub, line + 1⟩
    by_cases hset : v.isSet = true
    · refine ⟨endLine s, ?_⟩
      simp only [fill, hv, hset, if_true, hs]
      rfl
    · exact ⟨"", by simp only [fill, hv, hset, if_false, Bool.false_eq_true]⟩
  | slot b => exact hb b

theorem fillItems_ok {items : List Item} (h : d.Gives (items.flatMap Item.params))
    (hb : ∀ b, ∃ s, block b = .ok s) (line : Nat) :
    ∃ s, fillItems d stub block line items = .ok s := by
  induction items generalizing line with
  | nil => exact ⟨"", rfl⟩
  | cons i is ih =>
    obtain ⟨s, hs⟩ :=
      Item.fill_ok stub (h.mono fun q hq => List.mem_append_left _ hq) hb line
    obtain ⟨rest, hrest⟩ := ih (h.mono fun q hq => List.mem_append_right _ hq) (line + i.height)
    refine ⟨s ++ rest, ?_⟩
    unfold fillItems
    rw [hs, hrest]
    rfl

/-! ## Where an item stands -/

theorem fillItems_append {before after : List Item} {line : Nat} {s t : String}
    (hs : fillItems d stub block line before = .ok s)
    (ht : fillItems d stub block (line + heights before) after = .ok t) :
    fillItems d stub block line (before ++ after) = .ok (s ++ t) := by
  induction before generalizing line s with
  | nil =>
    cases hs
    rw [List.nil_append, String.empty_append]
    exact ht
  | cons i is ih =>
    unfold fillItems at hs
    cases hi : i.fill d stub block line with
    | error u =>
      rw [hi] at hs
      cases hs
    | ok a =>
      cases his : fillItems d stub block (line + i.height) is with
      | error u =>
        rw [hi, his] at hs
        cases hs
      | ok b =>
        rw [hi, his] at hs
        cases hs
        rw [heights, ← Nat.add_assoc] at ht
        have hrest := ih his ht
        rw [List.cons_append]
        unfold fillItems
        rw [hi, hrest, String.append_assoc]
        rfl

/-- Each item stands between the texts of those before and behind it. -/
theorem fillItems_around {before after : List Item} {i : Item}
    (h : d.Gives ((before ++ i :: after).flatMap Item.params))
    (hb : ∀ b, ∃ s, block b = .ok s) (line : Nat) :
    ∃ s t u, fillItems d stub block line before = .ok s ∧
      i.fill d stub block (line + heights before) = .ok t ∧
      fillItems d stub block line (before ++ i :: after) = .ok (s ++ t ++ u) := by
  rw [List.flatMap_append, List.flatMap_cons] at h
  obtain ⟨s, hs⟩ :=
    fillItems_ok stub (h.mono fun q hq => List.mem_append_left _ hq) hb line
  obtain ⟨t, ht⟩ := Item.fill_ok stub
    (h.mono fun q hq => List.mem_append_right _ (List.mem_append_left _ hq)) hb
    (line + heights before)
  obtain ⟨u, hu⟩ := fillItems_ok stub
    (h.mono fun q hq => List.mem_append_right _ (List.mem_append_right _ hq)) hb
    (line + heights before + i.height)
  refine ⟨s, t, u, hs, ht, ?_⟩
  rw [String.append_assoc]
  refine fillItems_append stub hs ?_
  unfold fillItems
  rw [ht, hu]
  rfl

end

/-! ## The shared layout -/

/-- The parameters that a stub and the layout around it use. -/
def paramsAround (imports symbols body : List Item) : List Param :=
  (layout ++ imports ++ symbols ++ body).flatMap Item.params

theorem fillBlock_ok {d : Data} {imports symbols body : List Item}
    (h : d.Gives (paramsAround imports symbols body)) (stub : String) (b : Block) :
    ∃ s, fillBlock d stub imports symbols body b = .ok s := by
  have hno : ∀ b, ∃ s, noBlocks b = .ok s := fun _ => ⟨"", rfl⟩
  unfold paramsAround at h
  rw [List.flatMap_append, List.flatMap_append, List.flatMap_append] at h
  cases b <;> exact fillItems_ok stub (h.mono fun q hq => by simp [hq]) hno _

/-- The layout up to its block of functions, up to its block of imports, and behind each. -/
theorem layout_around :
    ∃ front between back, layout = (front ++ .slot .imports :: between) ++ .slot .body :: back :=
  ⟨layout.takeWhile (· != .slot .imports),
    ((layout.dropWhile (· != .slot .imports)).drop 1).takeWhile (· != .slot .body),
    (layout.dropWhile (· != .slot .body)).drop 1, rfl⟩

/-- A stub that fills the layout gives its imports and its functions their places in the
text. -/
theorem fill_around {d : Data} {e : Page} {imports symbols body : List Item}
    (he : e.content = .filling imports symbols body)
    (h : d.Gives (paramsAround imports symbols body)) :
    ∃ head imported between functions tail,
      fillBlock d e.name imports symbols body .imports = .ok imported ∧
      fillBlock d e.name imports symbols body .body = .ok functions ∧
      e.fill d = .ok (head ++ imported ++ between ++ functions ++ tail) := by
  have hb := fillBlock_ok h e.name
  have hlayout : d.Gives (layout.flatMap Item.params) := by
    refine h.mono fun q hq => ?_
    unfold paramsAround
    simp only [List.flatMap_append, List.mem_append, hq, true_or]
  obtain ⟨front, between, back, hsplit⟩ := layout_around
  rw [hsplit] at hlayout
  obtain ⟨s, functions, u, hs, hfunctions, htext⟩ :=
    fillItems_around layoutName hlayout hb 1
  obtain ⟨head, imported, more, -, himported, hfront⟩ :=
    fillItems_around layoutName
      (hlayout.mono fun q hq => by
        rw [List.flatMap_append]
        exact List.mem_append_left _ hq) hb 1
  rw [hfront] at hs
  cases hs
  refine ⟨head, imported, more, functions, u, himported, hfunctions, ?_⟩
  unfold Page.fill
  rw [he, hsplit]
  exact htext

end Graft.Stub
