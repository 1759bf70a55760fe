-- What is read off the tree of a source, by the shapes that were read. The
-- walk visits the nodes in their order, and comments are passed over, so what
-- a node gives is what it states itself and then what its parts give.
import Graft.Go.Source
import Graft.Proofs.Glimpses

namespace Graft.Go

/-! ## The walk -/

namespace Cursor

/-- The nodes on the levels, in order. -/
theorem preorder_levels (levels : List (List Tree)) :
    levels.flatMap Tree.preorderAll =
      match onward? levels with
      | some d => d.focus.preorder ++ d.right.flatMap Tree.preorderAll
      | none => [] := by
  fun_induction onward? levels with
  | case1 => rfl
  | case2 levels ih => exact ih
  | case3 t ts levels => simp [Tree.preorderAll]

/-- Going down is going on to the nodes below. -/
theorem preorder_firstChild (c : Cursor) :
    c.focus.preorder ++ c.right.flatMap Tree.preorderAll =
      c.focus :: match c.firstChild? with
        | some d => d.focus.preorder ++ d.right.flatMap Tree.preorderAll
        | none => c.right.flatMap Tree.preorderAll := by
  obtain ⟨t, right⟩ := c
  cases t with
  | leaf k r tok => rfl
  | node k r ts =>
    cases ts with
    | nil => rfl
    | cons t ts => simp [firstChild?, Tree.children, Tree.preorder, Tree.preorderAll]

theorem walk_eq (c : Cursor) : c.walk = c.focus.preorder ++ c.right.flatMap Tree.preorderAll := by
  rw [walk, preorder_firstChild]
  congr 1
  split
  · next d hd =>
    have hless : d.remaining < c.remaining := remaining_firstChild hd
    rw [hd, walk_eq d]
  · next hd =>
    rw [hd]
    dsimp only
    rw [preorder_levels]
    split
    · next d hd =>
      have hless : d.remaining < c.remaining := by
        have hpos := c.focus.size_pos
        rw [remaining_onward hd]
        unfold remaining
        omega
      rw [hd, walk_eq d]
    · next hd => rw [hd]
termination_by c.remaining
decreasing_by all_goals exact hless

end Cursor

theorem Tree.walk_eq (t : Tree) : t.walk = t.preorder := by
  unfold Tree.walk
  rw [Cursor.walk_eq, List.flatMap_nil, List.append_nil]

-- What a node hands on to its children reaches every node below it.
mutual
theorem Tree.of_mem_preorder {P : Tree → Prop} (hP : ∀ {t}, P t → ∀ c ∈ t.children, P c) :
    ∀ {t : Tree}, P t → ∀ u ∈ t.preorder, P u
  | .leaf _ _ _, h, u, hu => by
    rw [List.mem_singleton.mp hu]
    exact h
  | .node _ _ ts, h, u, hu => by
    rcases List.mem_cons.mp hu with rfl | hu
    · exact h
    · exact Tree.of_mem_preorderAll hP (hP h : ∀ c ∈ ts, P c) u hu

theorem Tree.of_mem_preorderAll {P : Tree → Prop} (hP : ∀ {t}, P t → ∀ c ∈ t.children, P c) :
    ∀ {ts : List Tree}, (∀ t ∈ ts, P t) → ∀ u ∈ Tree.preorderAll ts, P u
  | [], _, u, hu => by cases hu
  | t :: ts, h, u, hu => by
    obtain ⟨ht, hts⟩ := List.forall_mem_cons.mp h
    rcases List.mem_append.mp hu with hu | hu
    · exact Tree.of_mem_preorder hP ht u hu
    · exact Tree.of_mem_preorderAll hP hts u hu
end

theorem Tree.of_mem_walk {P : Tree → Prop} (hP : ∀ {t}, P t → ∀ c ∈ t.children, P c) {t : Tree}
    (h : P t) : ∀ u ∈ t.walk, P u := by
  rw [Tree.walk_eq]
  exact Tree.of_mem_preorder hP h

/-! ## What the shapes give -/

/-- The question finds nothing in a comment. -/
def PassesComments {α : Type} (g : Tree → Option α) : Prop := ∀ t, g (Shape.commentTree t) = none

namespace Shape

variable {α : Type} {g : Tree → Option α}

/-- What is found in the tree of a shape, in the order of the walk. -/
def found (g : Tree → Option α) (s : Shape) : List α := s.tree.preorder.filterMap g

/-- The part that the shape plays in its node. -/
def role? : Shape → Option Role
  | leaf _ r _ => r
  | node _ r _ => r

theorem role_tree (s : Shape) : s.tree.role = s.role? := by
  cases s with
  | leaf k r i => rfl
  | node k r ss => cases ss <;> rfl

/-- The trees of the parts of a node, without the comments in front. -/
def parts : List Shape → List Tree
  | [] => []
  | s :: ss => s.tree :: trees ss

theorem tree_node (k : Kind) (r : Option Role) (ss : List Shape) :
    (node k r ss).tree = .node k r (parts ss) := by
  cases ss with
  | nil => rfl
  | cons s ss => rfl

theorem preorderAll_append (ts us : List Tree) :
    Tree.preorderAll (ts ++ us) = Tree.preorderAll ts ++ Tree.preorderAll us := by
  induction ts with
  | nil => rfl
  | cons t ts ih => rw [List.cons_append, Tree.preorderAll, ih, Tree.preorderAll, List.append_assoc]

theorem preorderAll_comments (hg : PassesComments g) (cs : List Token) :
    (Tree.preorderAll (cs.map commentTree)).filterMap g = [] := by
  induction cs with
  | nil => rfl
  | cons c cs ih =>
    rw [List.map_cons, Tree.preorderAll, List.filterMap_append, ih, List.append_nil]
    change [commentTree c].filterMap g = []
    rw [List.filterMap_cons_none (hg c), List.filterMap_nil]

theorem found_trees (hg : PassesComments g) (ss : List Shape) :
    (Tree.preorderAll (trees ss)).filterMap g = ss.flatMap (found g) := by
  induction ss with
  | nil => rfl
  | cons s ss ih =>
    rw [trees, preorderAll_append, Tree.preorderAll, List.filterMap_append,
      preorderAll_comments hg, List.filterMap_append, ih, List.nil_append, List.flatMap_cons]
    rfl

theorem found_parts (hg : PassesComments g) (ss : List Shape) :
    (Tree.preorderAll (parts ss)).filterMap g = ss.flatMap (found g) := by
  cases ss with
  | nil => rfl
  | cons s ss =>
    rw [parts, Tree.preorderAll, List.filterMap_append, found_trees hg, List.flatMap_cons]
    rfl

@[simp] theorem found_leaf (g : Tree → Option α) (k : Kind) (r : Option Role) (i : Item) :
    found g (leaf k r i) = (g (.leaf k r i.token)).toList := by
  change [Tree.leaf k r i.token].filterMap g = _
  cases h : g (.leaf k r i.token) <;> simp [h]

theorem found_node (hg : PassesComments g) (k : Kind) (r : Option Role) (ss : List Shape) :
    found g (node k r ss) = (g (.node k r (parts ss))).toList ++ ss.flatMap (found g) := by
  rw [← found_parts hg, found, tree_node, Tree.preorder]
  cases h : g (.node k r (parts ss)) <;> simp [h]

mutual
/-- No part of the shape, at any depth, is of the kind. -/
def lacks (kind : Kind) : Shape → Bool
  | leaf k _ _ => k != kind
  | node k _ ss => k != kind && lackAll kind ss

def lackAll (kind : Kind) : List Shape → Bool
  | [] => true
  | s :: ss => lacks kind s && lackAll kind ss
end

mutual
theorem lacks_map (f : Item → Item) (kind : Kind) : ∀ s, lacks kind (s.map f) = lacks kind s
  | leaf _ _ _ => rfl
  | node _ _ ss => by rw [map, lacks, lacks, lackAll_map f kind ss]

theorem lackAll_map (f : Item → Item) (kind : Kind) :
    ∀ ss, lackAll kind (mapAll f ss) = lackAll kind ss
  | [] => rfl
  | s :: ss => by rw [mapAll, lackAll, lackAll, lacks_map f kind s, lackAll_map f kind ss]
end

mutual
/-- Only a node of a kind states something, and there is none of this kind. -/
theorem found_of_lacks (hg : PassesComments g) {kind : Kind}
    (hk : ∀ t : Tree, g t ≠ none → t.kind = kind) : ∀ {s}, lacks kind s = true → found g s = []
  | leaf k r i, h => by
    rw [found_leaf]
    cases hs : g (.leaf k r i.token) with
    | none => rfl
    | some x =>
      have hkind : k = kind := hk (.leaf k r i.token) (by rw [hs]; exact Option.some_ne_none x)
      simp [lacks, hkind] at h
  | node k r ss, h => by
    simp only [lacks, Bool.and_eq_true, bne_iff_ne] at h
    rw [found_node hg, flatMap_found_of_lackAll hg hk h.2, List.append_nil]
    cases hs : g (.node k r (parts ss)) with
    | none => rfl
    | some x =>
      have hkind : k = kind :=
        hk (.node k r (parts ss)) (by rw [hs]; exact Option.some_ne_none x)
      exact absurd hkind h.1

theorem flatMap_found_of_lackAll (hg : PassesComments g) {kind : Kind}
    (hk : ∀ t : Tree, g t ≠ none → t.kind = kind) :
    ∀ {ss}, lackAll kind ss = true → ss.flatMap (found g) = []
  | [], _ => rfl
  | s :: ss, h => by
    simp only [lackAll, Bool.and_eq_true] at h
    rw [List.flatMap_cons, found_of_lacks hg hk h.1, flatMap_found_of_lackAll hg hk h.2]
    rfl
end

/-! ## Comments between the parts -/

section Comments

variable (cs : List Token) (ts : List Tree)

@[simp] theorem ofRole_comments (r : Role) :
    Expr.ofRole r (cs.map commentTree ++ ts) = Expr.ofRole r ts := by
  induction cs with
  | nil => rfl
  | cons c cs ih => exact ih

@[simp] theorem argumentsAmong_comments :
    Expr.argumentsAmong (cs.map commentTree ++ ts) = Expr.argumentsAmong ts := by
  induction cs with
  | nil => rfl
  | cons c cs ih => exact ih

@[simp] theorem argumentsOf_comments :
    Expr.argumentsOf (cs.map commentTree ++ ts) = Expr.argumentsOf ts := by
  induction cs with
  | nil => rfl
  | cons c cs ih => exact ih

theorem find?_comments {p : Tree → Bool} (hp : ∀ t, p (commentTree t) = false) :
    (cs.map commentTree ++ ts).find? p = ts.find? p := by
  induction cs with
  | nil => rfl
  | cons c cs ih => rw [List.map_cons, List.cons_append, List.find?_cons_of_neg (by simp [hp]), ih]

end Comments

end Shape

/-! ## Imports and calls -/

/-- A call as it is written: what is called, and the arguments. -/
abbrev Site := Expr × List Expr

def Tree.site? (t : Tree) : Option Site := (call? t).map fun c => (c.callee, c.args)

theorem Tree.passesComments_import? : PassesComments import? := fun _ => rfl

theorem Tree.passesComments_site? : PassesComments site? := fun _ => rfl

/-- What a part of a source states: its imports, and calls in their order. -/
structure Gist where
  imports : List Import
  calls : List Site

namespace Gist

/-- Nothing of note is stated. -/
def none : Gist := ⟨[], []⟩

/-- What parts state one after the other. -/
def all (gs : List Gist) : Gist := ⟨gs.flatMap imports, gs.flatMap calls⟩

theorem all_pair (g : Gist) (gs : List Gist) : all [g, all gs] = all (g :: gs) := by simp [all]

end Gist

/-- The imports of the shapes are these, and these calls are among theirs in this order. -/
structure States (g : Gist) (ss : List Shape) : Prop where
  imports : ss.flatMap (Shape.found Tree.import?) = g.imports
  calls : g.calls.Sublist (ss.flatMap (Shape.found Tree.site?))

theorem states_none {ss : List Shape} (h : Shape.lackAll .importSpec ss = true) :
    States .none ss where
  imports := by
    refine Shape.flatMap_found_of_lackAll Tree.passesComments_import? (fun t ht => ?_) h
    unfold Tree.import? at ht
    split at ht
    · assumption
    · exact absurd rfl ht
  calls := List.nil_sublist _

theorem States.append {g h : Gist} {ss ts : List Shape} (hs : States g ss) (ht : States h ts) :
    States (.all [g, h]) (ss ++ ts) where
  imports := by rw [List.flatMap_append, hs.imports, ht.imports]; simp [Gist.all]
  calls := by
    rw [List.flatMap_append]
    simpa [Gist.all] using hs.calls.append ht.calls

theorem States.after {g : Gist} {ss ts : List Shape} (ht : States g ts) (hs : States .none ss) :
    States g (ss ++ ts) := by simpa [Gist.all, Gist.none] using hs.append ht

theorem States.before {g : Gist} {ss ts : List Shape} (hs : States g ss) (ht : States .none ts) :
    States g (ss ++ ts) := by simpa [Gist.all, Gist.none] using hs.append ht

/-- A node states what its parts state, unless it is an import. -/
theorem States.node {g : Gist} {ss : List Shape} {k : Kind} (h : States g ss)
    (hk : k ≠ .importSpec) (r : Option Role) : States g [.node k r ss] where
  imports := by
    have hown : Tree.import? (.node k r (Shape.parts ss)) = Option.none := if_neg hk
    rw [List.flatMap_singleton, Shape.found_node Tree.passesComments_import?, hown, ← h.imports]
    rfl
  calls := by
    rw [List.flatMap_singleton, Shape.found_node Tree.passesComments_site?]
    exact h.calls.trans (List.sublist_append_right _ _)

/-! ## Whole files -/

theorem filterMap_sourceTree {α : Type} {g : Tree → Option α} (hg : PassesComments g)
    (hroot : ∀ ts, g (.node .sourceFile none ts) = none) (ss : List Shape) (trailing : List Token) :
    (sourceTree ss trailing).walk.filterMap g = ss.flatMap (Shape.found g) := by
  unfold sourceTree
  rw [Tree.walk_eq, Tree.preorder, List.filterMap_cons_none (hroot _), Shape.preorderAll_append,
    List.filterMap_append, Shape.found_trees hg, Shape.preorderAll_comments hg, List.append_nil]

theorem imports_sourceTree (ss : List Shape) (trailing : List Token) :
    (sourceTree ss trailing).imports = ss.flatMap (Shape.found Tree.import?) :=
  filterMap_sourceTree Tree.passesComments_import? (fun _ => rfl) ss trailing

theorem sites_sourceTree (ss : List Shape) (trailing : List Token) :
    (sourceTree ss trailing).calls.map (fun c => (c.callee, c.args)) =
      ss.flatMap (Shape.found Tree.site?) := by
  rw [← filterMap_sourceTree Tree.passesComments_site? (fun _ => rfl) ss trailing]
  exact List.map_filterMap

/-- The shape of a package clause. -/
def packageShape (word name : Item) : Shape :=
  .node .packageClause none [.leaf .mark none word, .leaf .packageIdentifier none name]

theorem packageName_sourceTree (word name : Item) (ss : List Shape) (trailing : List Token) :
    (sourceTree (packageShape word name :: ss) trailing).packageName =
      some (String.ofList name.token.text) := by
  have hclause : (sourceTree (packageShape word name :: ss) trailing).children.find?
      (fun t => t.kind == .packageClause) = some (packageShape word name).tree := by
    change (word.comments.map Shape.commentTree ++ _ ++ _).find? _ = _
    rw [List.append_assoc, Shape.find?_comments _ _ fun _ => rfl]
    rfl
  have hname : (packageShape word name).tree.children.find?
      (fun t => t.kind == .packageIdentifier) =
        some (.leaf .packageIdentifier none name.token) := by
    change (Tree.leaf .mark none word.token ::
      (name.comments.map Shape.commentTree ++ _)).find? _ = _
    rw [List.find?_cons_of_neg Bool.false_ne_true, Shape.find?_comments _ _ fun _ => rfl]
    rfl
  unfold Tree.packageName
  rw [hclause]
  change (Option.bind ((packageShape word name).tree.children.find? _) _) = _
  rw [hname]
  simp [Tree.text, Tree.tokens, spell]

end Graft.Go
