-- Filling the template of a page is filling the page. Values stand in the
-- holes letter for letter, each entry of a list has a line of its own, and
-- the blocks of a page that fills the layout stand in the places for them.
import Graft.Proofs.PageReading
import Graft.Proofs.StubPages

namespace Graft.Stub

open Template

/-! ## Texts in a band -/

/-- The second text behind the first one. -/
def spliced (a b : Except Undefined String) : Except Undefined String := do
  let s ← a
  let t ← b
  return s ++ t

theorem spliced_assoc (a b c : Except Undefined String) :
    spliced (spliced a b) c = spliced a (spliced b c) := by
  cases a with
  | error e => rfl
  | ok s =>
    cases b with
    | error e => rfl
    | ok t =>
      cases c with
      | error e => rfl
      | ok u => exact congrArg Except.ok String.append_assoc

theorem spliced_empty (a : Except Undefined String) : spliced a (.ok "") = a := by
  cases a with
  | error e => rfl
  | ok s => exact congrArg Except.ok String.append_empty

theorem empty_spliced (a : Except Undefined String) : spliced (.ok "") a = a := by
  cases a with
  | error e => rfl
  | ok s => exact congrArg Except.ok String.empty_append

namespace Template

variable (m : Mode) (d : Data) (outer : Blocks)

theorem fillAll_append (as bs : List Node) :
    fillAll m d (as ++ bs) = spliced (fillAll m d as) (fillAll m d bs) := by
  induction as with
  | nil => exact (empty_spliced _).symm
  | cons a as ih =>
    rw [List.cons_append, fillAll, fillAll, ih]
    exact (spliced_assoc (a.fill m d) (fillAll m d as) (fillAll m d bs)).symm

theorem settledAll_append (as bs : List Node) :
    settledAll outer (as ++ bs) = settledAll outer as ++ settledAll outer bs := by
  induction as with
  | nil => rfl
  | cons a as ih => rw [List.cons_append, settledAll, settledAll, ih, List.cons_append]

/-- The text of nodes with the blocks of others in the places of their own. -/
def shown (ns : List Node) : Except Undefined String := fillAll m d (settledAll outer ns)

theorem shown_append (as bs : List Node) :
    shown m d outer (as ++ bs) = spliced (shown m d outer as) (shown m d outer bs) := by
  rw [shown, settledAll_append, fillAll_append]
  rfl

theorem shown_text (s : String) : shown m d outer [.text s] = .ok s :=
  spliced_empty (.ok s)

theorem shown_joined (n : Node) (ns : List Node) :
    shown m d outer (joined n ns).reverse = shown m d outer (ns.reverse ++ [n]) := by
  unfold joined
  split
  · rename_i s t ns
    have htwo : shown m d outer [.text t, .text s] = .ok (t ++ s) := by
      rw [← List.singleton_append, shown_append, shown_text, shown_text]
      rfl
    rw [List.reverse_cons, List.reverse_cons, List.append_assoc, List.singleton_append,
      shown_append, shown_append, shown_text, htwo]
  · split
    · rename_i s hs
      rw [hs, shown_append, shown_text, spliced_empty]
    · rw [List.reverse_cons]
  · rw [List.reverse_cons]

/-- Texts say the same where those that stand side by side are one. -/
theorem shown_gathered (ns : List Node) : shown m d outer (gathered ns) = shown m d outer ns := by
  have hall : ∀ ms : List Node, shown m d outer (ns.foldl (fun ms n => joined n ms) ms).reverse =
      shown m d outer (ms.reverse ++ ns) := by
    induction ns with
    | nil => exact fun ms => by rw [List.foldl_nil, List.append_nil]
    | cons n ns ih =>
      intro ms
      rw [List.foldl_cons, ih, shown_append, shown_joined, ← shown_append, List.append_assoc,
        List.singleton_append]
  exact hall []

end Template

/-! ## Filling the nodes of a page -/

/-- How the template of a page is filled. -/
def plainMode : Mode := ⟨.strict, .none, true⟩

section Filling

variable {d d' : Data} {outer : Blocks} {stub : String} {line : Nat} {entry : String}
  {block : Block → Except Undefined String}

/-- The values show the pieces of a line what the data does, and the entry under its name. -/
structure Data.Shows (d' d : Data) (entry : String) (pieces : List Piece) : Prop where
  holes : ∀ p, .hole p ∈ pieces → d'.get? p = d.get? p
  own : .entry ∈ pieces → d'.get? .entry = some (.text entry)

theorem shown_node {p : Piece} (h : d'.Shows d entry [p]) (place : Undefined) :
    shown plainMode d' outer [p.node place] = p.fill d entry place := by
  refine (spliced_empty _).trans ?_
  cases p with
  | text s => rfl
  | entry =>
    have hown := h.own List.mem_cons_self
    simp only [Piece.node, Node.settled, Node.fill, Expr.value?]
    rw [show (⟨Param.entry.key⟩ : Param) = .entry from rfl, hown]
    rfl
  | hole p =>
    have hhole := h.holes p List.mem_cons_self
    simp only [Piece.node, Node.settled, Node.fill, Expr.value?]
    rw [show (⟨p.key⟩ : Param) = p from rfl, hhole, Piece.fill]
    cases d.get? p <;> rfl

theorem shown_nodes {pieces : List Piece} (h : d'.Shows d entry pieces) (place : Undefined) :
    shown plainMode d' outer (pieces.map (Piece.node place)) = fillLine d entry place pieces := by
  induction pieces with
  | nil => rfl
  | cons p ps ih =>
    have hp : d'.Shows d entry [p] :=
      ⟨fun q hq => h.holes q (by simp_all), fun hq => h.own (by simp_all)⟩
    have hps : d'.Shows d entry ps :=
      ⟨fun q hq => h.holes q (List.mem_cons_of_mem p hq),
        fun hq => h.own (List.mem_cons_of_mem p hq)⟩
    rw [List.map_cons, ← List.singleton_append, shown_append, shown_node hp, ih hps]
    rfl

theorem shown_lineNodes {pieces : List Piece} (h : d'.Shows d entry pieces) (place : Undefined) :
    shown plainMode d' outer (lineNodes place pieces) =
      (fillLine d entry place pieces).map endLine := by
  rw [lineNodes, shown_append, shown_nodes h, shown_text]
  cases fillLine d entry place pieces <;> rfl

/-- A line without an entry shows what the data gives. -/
theorem shows_self {pieces : List Piece} (h : .entry ∉ pieces) : d.Shows d "" pieces :=
  ⟨fun _ _ => rfl, fun hmem => absurd hmem h⟩

theorem isName_of_mem {pieces : List Piece} (h : ArePlain pieces) {p : Param}
    (hp : .hole p ∈ pieces) : p.IsName := by
  induction pieces with
  | nil => cases hp
  | cons q qs ih =>
    rcases List.mem_cons.mp hp with rfl | hmem
    · exact h.1
    · cases q with
      | text s => exact ih h.2 hmem
      | hole q => exact ih h.2 hmem
      | entry => exact ih h hmem

/-- A repeated line sees its entry and else what the data gives. -/
theorem shows_named {pieces : List Piece} (h : ArePlain pieces) (entry : String) :
    (d.named .entry entry).Shows d entry pieces :=
  ⟨fun _ hp => d.get?_named_of_ne entry (isName_of_mem h hp).other,
    fun _ => d.get?_named_self .entry entry⟩

theorem forEach_eq {pieces : List Piece} (h : ArePlain pieces) (place : Undefined)
    (entries : List String) :
    forEach (fun e => shown plainMode (d.named .entry e) outer (gathered (lineNodes place pieces)))
      entries = fillEach d place pieces entries := by
  induction entries with
  | nil => rfl
  | cons e es ih =>
    rw [forEach, fillEach, ih, shown_gathered, shown_lineNodes (shows_named h e)]
    cases fillLine d e place pieces <;> rfl

/-- The nodes of an item say what the item does. -/
theorem Item.shown_nodes {i : Item} (h : i.IsPlain)
    (hblock : ∀ b : Block, shown plainMode d outer [.block b.name []] = block b) :
    shown plainMode d outer (i.nodes stub line) = i.fill d stub block line := by
  cases i with
  | line pieces =>
    rw [nodes, shown_lineNodes (shows_self h.2), fill]
    cases fillLine d "" ⟨stub, line⟩ pieces <;> rfl
  | each p pieces =>
    refine (spliced_empty _).trans ?_
    simp only [Node.settled, Node.fill, Expr.value?]
    rw [show (⟨p.key⟩ : Param) = p from rfl, fill]
    cases d.get? p with
    | none => rfl
    | some v => exact forEach_eq h.2 ⟨stub, line + 1⟩ v.entries
  | whenSet p pieces =>
    have hbody : shown plainMode d outer (gathered (lineNodes ⟨stub, line + 1⟩ pieces)) = _ :=
      (shown_gathered _ _ _ _).trans (shown_lineNodes (shows_self h.2.2) _)
    refine (spliced_empty _).trans ?_
    simp only [Node.settled, Node.fill, Expr.value?]
    rw [show (⟨p.key⟩ : Param) = p from rfl, fill]
    cases d.get? p with
    | none => rfl
    | some v =>
      dsimp only
      split
      · refine hbody.trans ?_
        cases fillLine d "" ⟨stub, line + 1⟩ pieces <;> rfl
      · rfl
  | slot b => exact hblock b

theorem shown_nodesFrom {items : List Item} (h : ∀ i ∈ items, i.IsPlain)
    (hblock : ∀ b : Block, shown plainMode d outer [.block b.name []] = block b) :
    shown plainMode d outer (nodesFrom stub line items) = fillItems d stub block line items := by
  induction items generalizing line with
  | nil => rfl
  | cons i is ih =>
    rw [nodesFrom, shown_append, Item.shown_nodes (h i List.mem_cons_self) hblock,
      ih fun j hj => h j (List.mem_cons_of_mem i hj)]
    rfl

end Filling

/-! ## Filling the template of a page -/

section Templates

variable {d : Data} {others : List Template}

mutual
theorem settled_nil : (n : Node) → n.settled [] = n
  | .text _ => rfl
  | .hole _ _ => rfl
  | .each _ _ _ body => by rw [Node.settled, settledAll_nil body]
  | .whenSet _ _ body => by rw [Node.settled, settledAll_nil body]
  | .block name body => by rw [Node.settled, List.lookup_nil, settledAll_nil body]

theorem settledAll_nil : (ns : List Node) → settledAll [] ns = ns
  | [] => rfl
  | n :: ns => by rw [settledAll, settled_nil n, settledAll_nil ns]
end

/-- No block is among the nodes. -/
def HaveNoBlocks (ns : List Node) : Prop := ∀ n ∈ ns, n.blocks = []

theorem blocksOf_of_haveNoBlocks {ns : List Node} (h : HaveNoBlocks ns) : blocksOf ns = [] := by
  induction ns with
  | nil => rfl
  | cons n ns ih =>
    rw [blocksOf, h n List.mem_cons_self, ih fun n' hn' => h n' (List.mem_cons_of_mem n hn')]
    rfl

theorem haveNoBlocks_joined {n : Node} {ns : List Node} (hn : n.blocks = [])
    (hns : HaveNoBlocks ns) : HaveNoBlocks (joined n ns) := by
  have hcons : HaveNoBlocks (n :: ns) := List.forall_mem_cons.mpr ⟨hn, hns⟩
  unfold joined
  split
  · rename_i s t ms
    exact List.forall_mem_cons.mpr ⟨rfl, fun n' hn' => hns n' (List.mem_cons_of_mem _ hn')⟩
  · split
    · exact hns
    · exact hcons
  · exact hcons

theorem haveNoBlocks_gathered {ns : List Node} (h : HaveNoBlocks ns) :
    HaveNoBlocks (gathered ns) := by
  have hall : ∀ ms, HaveNoBlocks ms → HaveNoBlocks (ns.foldl (fun ms n => joined n ms) ms) := by
    induction ns with
    | nil => exact fun ms hms => hms
    | cons n ns ih =>
      intro ms hms
      exact ih (fun n' hn' => h n' (List.mem_cons_of_mem n hn')) _
        (haveNoBlocks_joined (h n List.mem_cons_self) hms)
  intro n hn
  exact hall [] (fun _ hn' => nomatch hn') n (List.mem_reverse.mp hn)

theorem haveNoBlocks_lineNodes (place : Undefined) (pieces : List Piece) :
    HaveNoBlocks (lineNodes place pieces) := by
  intro n hn
  rcases List.mem_append.mp hn with hn | hn
  · obtain ⟨p, -, rfl⟩ := List.mem_map.mp hn
    cases p <;> rfl
  · rw [List.mem_singleton.mp hn]
    rfl

theorem haveNoBlocks_nodesFrom {items : List Item} (h : slotsOf items = []) (stub : String)
    (line : Nat) : HaveNoBlocks (nodesFrom stub line items) := by
  induction items generalizing line with
  | nil => exact fun _ hn => nomatch hn
  | cons i is ih =>
    rw [slotsOf_cons i is, List.append_eq_nil_iff] at h
    intro n hn
    rcases List.mem_append.mp hn with hn | hn
    · cases i with
      | line pieces => exact haveNoBlocks_lineNodes _ pieces n hn
      | each p pieces =>
        rw [List.mem_singleton.mp hn]
        exact blocksOf_of_haveNoBlocks (haveNoBlocks_gathered (haveNoBlocks_lineNodes _ pieces))
      | whenSet p pieces =>
        rw [List.mem_singleton.mp hn]
        exact blocksOf_of_haveNoBlocks (haveNoBlocks_gathered (haveNoBlocks_lineNodes _ pieces))
      | slot b => exact absurd h.1 (by simp [slotsOf])
    · exact ih h.2 _ n hn

theorem blocks_fillingNode {items : List Item} (h : slotsOf items = []) (stub : String)
    (line : Nat) (b : Block) :
    (fillingNode stub line b items).blocks =
      [(b.name, gathered (nodesFrom stub (line + 1) items))] := by
  rw [fillingNode, Node.blocks,
    blocksOf_of_haveNoBlocks (haveNoBlocks_gathered (haveNoBlocks_nodesFrom h stub (line + 1)))]

theorem fill_of_layout_none {t : Template} (ht : t.layout = none) (outer : Blocks) :
    t.fill .strict .none d others outer =
      (shown plainMode d outer t.nodes).mapError .undefined := by
  rw [Template.fill, ht]
  rfl

/-- The blocks of a template stand in the one that lays it out. -/
theorem fill_of_layout {t o : Template} {layout : String} {place : Undefined}
    (ht : t.layout = some (layout, place))
    (ho : others.find? (fun o => o.name == layout) = some o)
    (hsilent : fillAll ⟨.strict, .none, false⟩ d t.nodes = .ok "") (hlast : o.layout = none) :
    t.fill .strict .none d others [] =
      (shown plainMode d (blocksOf t.nodes) o.nodes).mapError .undefined := by
  rw [Template.fill, ht, settledAll_nil]
  dsimp only
  split
  · simp_all
  · rename_i o' ho'
    rw [ho] at ho'
    cases ho'
    rw [hsilent]
    exact fill_of_layout_none hlast _

theorem shown_block {outer : Blocks} {b : Block} {ns : List Node}
    (h : outer.lookup b.name = some ns) :
    shown plainMode d outer [.block b.name []] = shown plainMode d [] ns := by
  refine (spliced_empty _).trans ?_
  rw [Node.settled, h, shown, settledAll_nil]
  rfl

/-- The template of a page that is spelled plainly is filled as the page is, if the template of the
layout is among the others. -/
theorem Page.fill_template {p : Page} (h : p.content.IsPlain)
    (hlayout : Content.IsPlain (.whole layout))
    (ho : others.find? (fun o => o.name == layoutName) =
      some (Page.template ⟨layoutName, .whole layout⟩)) :
    p.template.fill .strict .none d others [] = (p.fill d).mapError .undefined := by
  obtain ⟨name, content⟩ := p
  cases content with
  | whole items =>
    rw [fill_of_layout_none rfl]
    congr 1
    exact (shown_gathered _ _ _ _).trans (shown_nodesFrom h.1 fun _ => rfl)
  | filling imports symbols body =>
    simp only [Content.IsPlain, List.forall_mem_cons, List.not_mem_nil, false_implies,
      implies_true, and_true] at h
    obtain ⟨⟨himports, hnone⟩, ⟨hsymbols, hnone'⟩, hbody, hnone''⟩ := h
    rw [fill_of_layout rfl ho rfl rfl]
    congr 1
    refine (shown_gathered _ _ _ _).trans (shown_nodesFrom hlayout.1 fun b => ?_)
    have hfilled : ∀ {items : List Item} (line : Nat), (∀ i ∈ items, i.IsPlain) →
        shown plainMode d [] (gathered (nodesFrom name line items)) =
          fillItems d name noBlocks line items :=
      fun line hitems => (shown_gathered _ _ _ _).trans (shown_nodesFrom hitems fun _ => rfl)
    have hsecond : 4 + heights imports + 1 = 5 + heights imports := by omega
    have hthird : 6 + heights imports + heights symbols + 1 =
        7 + heights imports + heights symbols := by omega
    simp only [template, blocksOf, blocks_fillingNode hnone, blocks_fillingNode hnone',
      blocks_fillingNode hnone'', hsecond, hthird]
    cases b with
    | imports => exact (shown_block rfl).trans (hfilled 3 himports)
    | symbols => exact (shown_block rfl).trans (hfilled _ hsymbols)
    | body => exact (shown_block rfl).trans (hfilled _ hbody)

end Templates

end Graft.Stub
