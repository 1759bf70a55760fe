-- A walk with a cursor that knows three moves: to the first child, to the next
-- sibling and to the parent. Two loops, one inside the other, carry the cursor
-- through a tree, whatever its shape. The walk comes to an end, and it has then
-- visited each node once, each before the nodes below it.
import Graft.Proofs.RequiredParts

namespace Graft.Go

/-! ## The nodes of a tree -/

/-- The way from the root to a node: on each level the number of the child to take. -/
abbrev Route := List Nat

/-- A node of a tree: the way that leads to it, and the tree that stands there. -/
structure Node where
  route : Route
  tree : Tree

namespace Tree

/-- What stands at the end of the route. -/
def at? : Tree → Route → Option Tree
  | t, [] => some t
  | t, i :: p => t.children[i]?.bind fun c => at? c p

mutual
/-- The nodes of the tree at a route, each before the nodes below it and these child by child. -/
def nodesFrom : Route → Tree → List Node
  | p, leaf k r tok => [⟨p, leaf k r tok⟩]
  | p, node k r ts => ⟨p, node k r ts⟩ :: nodesAmong p 0 ts

/-- The nodes of children, the first of which has the number. -/
def nodesAmong : Route → Nat → List Tree → List Node
  | _, _, [] => []
  | p, i, t :: ts => nodesFrom (p ++ [i]) t ++ nodesAmong p (i + 1) ts
end

/-- All nodes of a tree. -/
def nodes (t : Tree) : List Node := nodesFrom [] t

theorem at?_append (t : Tree) (p q : Route) :
    t.at? (p ++ q) = (t.at? p).bind fun u => u.at? q := by
  induction p generalizing t with
  | nil => rfl
  | cons i p ih =>
    rw [List.cons_append, at?, at?, Option.bind_assoc]
    exact congrArg (Option.bind t.children[i]?) (funext fun c => ih c)

theorem at?_child {root t : Tree} {p : Route} (h : root.at? p = some t) (i : Nat) :
    root.at? (p ++ [i]) = t.children[i]? := by
  rw [at?_append, h, Option.bind_some, at?]
  cases t.children[i]? <;> rfl

mutual
theorem map_tree_nodesFrom : ∀ (p : Route) (t : Tree), (nodesFrom p t).map Node.tree = t.preorder
  | p, leaf k r tok => rfl
  | p, node k r ts => by rw [nodesFrom, List.map_cons, map_tree_nodesAmong, preorder]

theorem map_tree_nodesAmong : ∀ (p : Route) (i : Nat) (ts : List Tree),
    (nodesAmong p i ts).map Node.tree = preorderAll ts
  | p, i, [] => rfl
  | p, i, t :: ts => by
    rw [nodesAmong, List.map_append, map_tree_nodesFrom, map_tree_nodesAmong, preorderAll]
end

mutual
/-- The nodes are those to which a route leads. -/
theorem mem_nodesFrom : ∀ {p : Route} {t : Tree} {n : Node},
    n ∈ nodesFrom p t ↔ ∃ q, n.route = p ++ q ∧ t.at? q = some n.tree
  | p, leaf k r tok, n => by
    rw [nodesFrom, List.mem_singleton]
    constructor
    · rintro rfl
      exact ⟨[], (List.append_nil p).symm, rfl⟩
    · rintro ⟨q, hroute, htree⟩
      cases q with
      | nil =>
        obtain ⟨route, tree⟩ := n
        cases htree
        rw [List.append_nil] at hroute
        cases hroute
        rfl
      | cons i q => cases htree
  | p, node k r ts, n => by
    rw [nodesFrom, List.mem_cons, mem_nodesAmong]
    constructor
    · rintro (rfl | ⟨j, t, q, ht, hroute, htree⟩)
      · exact ⟨[], (List.append_nil p).symm, rfl⟩
      · rw [Nat.zero_add] at hroute
        exact ⟨j :: q, hroute, Option.bind_eq_some_iff.mpr ⟨t, ht, htree⟩⟩
    · rintro ⟨q, hroute, htree⟩
      cases q with
      | nil =>
        obtain ⟨route, tree⟩ := n
        cases htree
        rw [List.append_nil] at hroute
        cases hroute
        exact .inl rfl
      | cons j q =>
        obtain ⟨t, ht, htree⟩ := Option.bind_eq_some_iff.mp htree
        exact .inr ⟨j, t, q, ht, by rwa [Nat.zero_add], htree⟩

theorem mem_nodesAmong : ∀ {p : Route} {i : Nat} {ts : List Tree} {n : Node},
    n ∈ nodesAmong p i ts ↔
      ∃ j t q, ts[j]? = some t ∧ n.route = p ++ (i + j) :: q ∧ t.at? q = some n.tree
  | p, i, [], n => by simp [nodesAmong]
  | p, i, t :: ts, n => by
    rw [nodesAmong, List.mem_append, mem_nodesFrom, mem_nodesAmong]
    constructor
    · rintro (⟨q, hroute, htree⟩ | ⟨j, u, q, hu, hroute, htree⟩)
      · rw [List.append_assoc, List.singleton_append] at hroute
        exact ⟨0, t, q, rfl, hroute, htree⟩
      · rw [Nat.add_assoc, Nat.add_comm 1] at hroute
        exact ⟨j + 1, u, q, hu, hroute, htree⟩
    · rintro ⟨j, u, q, hu, hroute, htree⟩
      cases j with
      | zero =>
        cases hu
        exact .inl ⟨q, by rwa [List.append_assoc, List.singleton_append], htree⟩
      | succ j => exact .inr ⟨j, u, q, hu, by rwa [Nat.add_assoc, Nat.add_comm 1], htree⟩
end

theorem mem_nodes {t : Tree} {n : Node} : n ∈ t.nodes ↔ t.at? n.route = some n.tree := by
  rw [nodes, mem_nodesFrom]
  exact ⟨fun ⟨q, hroute, htree⟩ => hroute ▸ htree, fun h => ⟨n.route, rfl, h⟩⟩

mutual
theorem pairwise_nodesFrom : ∀ (p : Route) (t : Tree),
    (nodesFrom p t).Pairwise fun a b => a.route < b.route
  | p, leaf k r tok => List.pairwise_singleton _ _
  | p, node k r ts => by
    rw [nodesFrom, List.pairwise_cons]
    refine ⟨fun n hn => ?_, pairwise_nodesAmong p 0 ts⟩
    obtain ⟨j, t, q, -, hroute, -⟩ := mem_nodesAmong.mp hn
    have hlt : p ++ [] < p ++ (0 + j) :: q := List.append_left_lt (List.nil_lt_cons _ q)
    rwa [List.append_nil, ← hroute] at hlt

theorem pairwise_nodesAmong : ∀ (p : Route) (i : Nat) (ts : List Tree),
    (nodesAmong p i ts).Pairwise fun a b => a.route < b.route
  | p, i, [] => .nil
  | p, i, t :: ts => by
    rw [nodesAmong, List.pairwise_append]
    refine ⟨pairwise_nodesFrom _ t, pairwise_nodesAmong p (i + 1) ts, fun a ha b hb => ?_⟩
    obtain ⟨q, ha, -⟩ := mem_nodesFrom.mp ha
    obtain ⟨j, u, q', -, hb, -⟩ := mem_nodesAmong.mp hb
    rw [ha, hb, List.append_assoc]
    exact List.append_left_lt (List.cons_lt_cons_iff.mpr (.inl (by omega)))
end

/-- No node stands behind one that stands below it. -/
theorem pairwise_nodes (t : Tree) :
    t.nodes.Pairwise fun a b => a.route < b.route ∧ ¬ b.route <+: a.route :=
  (pairwise_nodesFrom [] t).imp fun hlt => ⟨hlt, fun hprefix => hprefix.le hlt⟩

end Tree

/-! ## The walk -/

/-- The moves of a cursor. Each tells whether it was made. -/
structure Moves (C : Type) where
  node : C → Node
  firstChild : C → Bool × C
  nextSibling : C → Bool × C
  parent : C → Bool × C

namespace Moves

variable {C S : Type}

/-- The move was made from one route to the other if something stands there; else it left the
cursor in place. -/
def Leads (root : Tree) (At : C → Route → Prop) (here there : Route) (moved : Bool × C) : Prop :=
  moved.1 = (root.at? there).isSome ∧ At moved.2 (if moved.1 then there else here)

/-- The moves are those of a cursor that started at the root of the tree. `At` tells where a cursor
stands. -/
structure IsLawful (m : Moves C) (root : Tree) (At : C → Route → Prop) : Prop where
  node {c : C} {p : Route} (h : At c p) :
    (m.node c).route = p ∧ root.at? p = some (m.node c).tree
  firstChild {c : C} {p : Route} (h : At c p) : Leads root At p (p ++ [0]) (m.firstChild c)
  nextSibling {c : C} {p : Route} {i : Nat} (h : At c (p ++ [i])) :
    Leads root At (p ++ [i]) (p ++ [i + 1]) (m.nextSibling c)
  parent {c : C} {p : Route} {i : Nat} (h : At c (p ++ [i])) :
    (m.parent c).1 = true ∧ At (m.parent c).2 p
  noSibling {c : C} (h : At c []) : (m.nextSibling c).1 = false ∧ At (m.nextSibling c).2 []
  noParent {c : C} (h : At c []) : (m.parent c).1 = false ∧ At (m.parent c).2 []

/-- What a walk does next: visit the node that the cursor stands on, leave it, or nothing. -/
inductive Stage
  | visiting | leaving | ended
  deriving DecidableEq

/-- A walk under way, with what the visits have made of a state. -/
structure Walking (C S : Type) where
  stage : Stage
  cursor : C
  state : S

/-- One round of the loops. The outer one visits a node, and goes down if there is a child. The
inner one goes on to the next sibling, or else up to the parent; without a parent the walk ends. -/
def step (m : Moves C) (visit : S → Node → S) (w : Walking C S) : Walking C S :=
  match w.stage with
  | .visiting =>
    ⟨if (m.firstChild w.cursor).1 then .visiting else .leaving, (m.firstChild w.cursor).2,
      visit w.state (m.node w.cursor)⟩
  | .leaving =>
    if (m.nextSibling w.cursor).1 then ⟨.visiting, (m.nextSibling w.cursor).2, w.state⟩
    else
      ⟨if (m.parent (m.nextSibling w.cursor).2).1 then .leaving else .ended,
        (m.parent (m.nextSibling w.cursor).2).2, w.state⟩
  | .ended => w

/-- The walk after a number of rounds. -/
def run (m : Moves C) (visit : S → Node → S) : Nat → Walking C S → Walking C S
  | 0, w => w
  | n + 1, w => run m visit n (m.step visit w)

section Run

variable (m : Moves C) (visit : S → Node → S)

theorem run_add (j k : Nat) (w : Walking C S) :
    m.run visit (j + k) w = m.run visit k (m.run visit j w) := by
  induction j generalizing w with
  | zero => rw [Nat.zero_add, run]
  | succ j ih => rw [Nat.succ_add, run, run, ih]

variable {m} {root : Tree} {At : C → Route → Prop} {c : C} {p : Route} {i : Nat} {t : Tree}

/-- Leaving the last child is going up to the parent, to leave it too. -/
theorem IsLawful.leave_last (h : m.IsLawful root At) (hc : At c (p ++ [i]))
    (hlast : root.at? (p ++ [i + 1]) = none) (s : S) :
    ∃ c', At c' p ∧ m.step visit ⟨.leaving, c, s⟩ = ⟨.leaving, c', s⟩ := by
  obtain ⟨hmoved, hat⟩ := h.nextSibling hc
  rw [hlast, Option.isSome_none] at hmoved
  rw [if_neg (by rw [hmoved]; exact Bool.false_ne_true)] at hat
  obtain ⟨hup, hat⟩ := h.parent hat
  exact ⟨_, hat, by simp only [step, hmoved, hup, if_true, Bool.false_eq_true, if_false]⟩

/-- Leaving a child that is not the last one is going on to the next, to visit it. -/
theorem IsLawful.leave_next (h : m.IsLawful root At) (hc : At c (p ++ [i]))
    (hnext : root.at? (p ++ [i + 1]) = some t) (s : S) :
    ∃ c', At c' (p ++ [i + 1]) ∧ m.step visit ⟨.leaving, c, s⟩ = ⟨.visiting, c', s⟩ := by
  obtain ⟨hmoved, hat⟩ := h.nextSibling hc
  rw [hnext, Option.isSome_some] at hmoved
  rw [if_pos hmoved] at hat
  exact ⟨_, hat, by simp only [step, hmoved, if_true]⟩

/-- Leaving the root is the end. -/
theorem IsLawful.leave_root (h : m.IsLawful root At) (hc : At c []) (s : S) :
    ∃ c', m.step visit ⟨.leaving, c, s⟩ = ⟨.ended, c', s⟩ := by
  obtain ⟨hsibling, hat⟩ := h.noSibling hc
  refine ⟨(m.parent (m.nextSibling c).2).2, ?_⟩
  simp only [step, hsibling, (h.noParent hat).1, Bool.false_eq_true, if_false]

theorem IsLawful.node_eq (h : m.IsLawful root At) (hc : At c p) (ht : root.at? p = some t) :
    m.node c = ⟨p, t⟩ := by
  obtain ⟨hroute, htree⟩ := h.node hc
  rw [← hroute, ← Option.some.inj (htree.symm.trans ht)]

/-- A node without children is visited, to be left. -/
theorem IsLawful.visit_bare (h : m.IsLawful root At) (hc : At c p) (ht : root.at? p = some t)
    (hbare : t.children = []) (s : S) :
    ∃ c', At c' p ∧ m.step visit ⟨.visiting, c, s⟩ = ⟨.leaving, c', visit s ⟨p, t⟩⟩ := by
  obtain ⟨hmoved, hat⟩ := h.firstChild hc
  rw [Tree.at?_child ht, hbare, List.getElem?_nil, Option.isSome_none] at hmoved
  rw [if_neg (by rw [hmoved]; exact Bool.false_ne_true)] at hat
  exact ⟨_, hat, by simp only [step, hmoved, h.node_eq hc ht, Bool.false_eq_true, if_false]⟩

/-- A node with children is visited, to go down to the first of them. -/
theorem IsLawful.visit_down (h : m.IsLawful root At) (hc : At c p) (ht : root.at? p = some t)
    {u : Tree} {ts : List Tree} (hchildren : t.children = u :: ts) (s : S) :
    ∃ c', At c' (p ++ [0]) ∧
      m.step visit ⟨.visiting, c, s⟩ = ⟨.visiting, c', visit s ⟨p, t⟩⟩ := by
  obtain ⟨hmoved, hat⟩ := h.firstChild hc
  rw [Tree.at?_child ht, hchildren, List.getElem?_cons_zero, Option.isSome_some] at hmoved
  rw [if_pos hmoved] at hat
  exact ⟨_, hat, by simp only [step, hmoved, h.node_eq hc ht, if_true]⟩

mutual
/-- From a node on, the node and all nodes below it are visited, and then the node is left. That
takes two rounds for each, but for the one in which the node is left. The induction is on the tree,
and goes on through the children from the first to the last. -/
theorem IsLawful.run_tree (h : m.IsLawful root At) : ∀ {t : Tree} {p : Route} {c : C} (s : S),
    At c p → root.at? p = some t →
      ∃ n c', n + 1 = 2 * (Tree.nodesFrom p t).length ∧ At c' p ∧
        m.run visit n ⟨.visiting, c, s⟩ =
          ⟨.leaving, c', (Tree.nodesFrom p t).foldl visit s⟩
  | .leaf k r tok, p, c, s, hc, ht => by
    obtain ⟨c', hc', hvisit⟩ := h.visit_bare visit hc ht rfl s
    exact ⟨1, c', rfl, hc', hvisit⟩
  | .node k r [], p, c, s, hc, ht => by
    obtain ⟨c', hc', hvisit⟩ := h.visit_bare visit hc ht rfl s
    exact ⟨1, c', rfl, hc', hvisit⟩
  | .node k r (u :: ts), p, c, s, hc, ht => by
    have hchildren : (Tree.node k r (u :: ts)).children.drop 0 = u :: ts := rfl
    obtain ⟨c₁, hc₁, hvisit⟩ := h.visit_down visit hc ht rfl s
    obtain ⟨c₂, hc₂, hrun⟩ :=
      h.run_children (visit s ⟨p, .node k r (u :: ts)⟩) hc₁ ht hchildren (List.cons_ne_nil u ts)
    refine ⟨2 * (Tree.nodesAmong p 0 (u :: ts)).length + 1, c₂, ?_, hc₂, ?_⟩
    · rw [Tree.nodesFrom, List.length_cons]
      omega
    · rw [run, hvisit, hrun]
      rfl

theorem IsLawful.run_children (h : m.IsLawful root At) : ∀ {us : List Tree} {t : Tree} {p : Route}
    {i : Nat} {c : C} (s : S), At c (p ++ [i]) → root.at? p = some t →
      t.children.drop i = us → us ≠ [] →
      ∃ c', At c' p ∧
        m.run visit (2 * (Tree.nodesAmong p i us).length) ⟨.visiting, c, s⟩ =
          ⟨.leaving, c', (Tree.nodesAmong p i us).foldl visit s⟩
  | [], t, p, i, c, s, hc, ht, hdrop, hne => absurd rfl hne
  | u :: ts, t, p, i, c, s, hc, ht, hdrop, hne => by
    have hchild : ∀ j, root.at? (p ++ [i + j]) = (u :: ts)[j]? := fun j => by
      rw [Tree.at?_child ht, ← hdrop, List.getElem?_drop]
    obtain ⟨n, c₁, hn, hc₁, hrun⟩ := h.run_tree s hc (hchild 0)
    have hlength : 2 * (Tree.nodesAmong p i (u :: ts)).length =
        n + (1 + 2 * (Tree.nodesAmong p (i + 1) ts).length) := by
      rw [Tree.nodesAmong, List.length_append]
      omega
    rw [hlength, run_add, run_add, hrun, Tree.nodesAmong, List.foldl_append]
    -- Only the last child is left upwards; any other is left for the child to its right.
    match ts with
    | [] =>
      obtain ⟨c₂, hc₂, hleave⟩ := h.leave_last visit hc₁ (hchild 1)
        ((Tree.nodesFrom (p ++ [i]) u).foldl visit s)
      exact ⟨c₂, hc₂, hleave⟩
    | v :: ts =>
      obtain ⟨c₂, hc₂, hleave⟩ := h.leave_next visit hc₁ (hchild 1)
        ((Tree.nodesFrom (p ++ [i]) u).foldl visit s)
      have hnext : t.children.drop (i + 1) = v :: ts := by
        rw [← List.drop_drop, hdrop]
        rfl
      obtain ⟨c₃, hc₃, hrun'⟩ := h.run_children _ hc₂ ht hnext (List.cons_ne_nil v ts)
      exact ⟨c₃, hc₃, by rw [run, hleave, run, hrun']⟩
end

/-- A walk from the root has ended after two rounds for each node, and has visited all of them. -/
theorem IsLawful.run_root (h : m.IsLawful root At) {start : C} (hstart : At start []) (s : S) :
    ∃ c, m.run visit (2 * root.nodes.length) ⟨.visiting, start, s⟩ =
      ⟨.ended, c, root.nodes.foldl visit s⟩ := by
  obtain ⟨n, c, hn, hc, hrun⟩ := h.run_tree visit s hstart rfl
  obtain ⟨c', hleave⟩ := h.leave_root visit hc (root.nodes.foldl visit s)
  refine ⟨c', ?_⟩
  rw [Tree.nodes, ← hn, run_add, hrun]
  exact hleave

end Run

/-! ### A cursor that is a route -/

/-- To a node, if there is one. -/
def goTo (root : Tree) (here there : Route) : Bool × Route :=
  if (root.at? there).isSome then (true, there) else (false, here)

/-- The cursor that knows the tree and the route to where it stands. -/
def byRoute (root : Tree) : Moves Route where
  node p := ⟨p, (root.at? p).getD root⟩
  firstChild p := goTo root p (p ++ [0])
  nextSibling p :=
    match p.getLast? with
    | some i => goTo root p (p.dropLast ++ [i + 1])
    | none => (false, p)
  parent p := if p.isEmpty then (false, p) else (true, p.dropLast)

theorem leads_goTo {root : Tree} {here there : Route} (h : (root.at? here).isSome = true) :
    Leads root (fun c p => c = p ∧ (root.at? p).isSome = true) here there
      (goTo root here there) := by
  unfold Leads goTo
  split
  · rename_i hthere
    exact ⟨hthere.symm, rfl, hthere⟩
  · rename_i hthere
    exact ⟨(Bool.eq_false_iff.mpr hthere).symm, rfl, h⟩

theorem isLawful_byRoute (root : Tree) :
    (byRoute root).IsLawful root fun c p => c = p ∧ (root.at? p).isSome = true where
  node := by
    rintro c p ⟨rfl, hat⟩
    obtain ⟨t, ht⟩ := Option.isSome_iff_exists.mp hat
    exact ⟨rfl, by simp [byRoute, ht]⟩
  firstChild := by
    rintro c p ⟨rfl, hat⟩
    exact leads_goTo hat
  nextSibling := by
    rintro c p i ⟨rfl, hat⟩
    simp only [byRoute, List.getLast?_concat, List.dropLast_concat]
    exact leads_goTo hat
  parent := by
    rintro c p i ⟨rfl, hat⟩
    have hup : (root.at? p).isSome = true := by
      rw [Tree.at?_append, Option.isSome_bind] at hat
      exact Option.isSome_of_any hat
    simp [byRoute, hup]
  noSibling := by
    rintro c ⟨rfl, -⟩
    exact ⟨rfl, rfl, rfl⟩
  noParent := by
    rintro c ⟨rfl, -⟩
    exact ⟨rfl, rfl, rfl⟩

end Moves

/-! ## What a walk lists -/

variable {α : Type}

/-- A visit that lists what the node states. -/
def listing (g : Tree → Option α) (xs : List α) (n : Node) : List α := xs ++ (g n.tree).toList

theorem foldl_listing (g : Tree → Option α) (xs : List α) (ns : List Node) :
    ns.foldl (listing g) xs = xs ++ (ns.map Node.tree).filterMap g := by
  induction ns generalizing xs with
  | nil => simp
  | cons n ns ih =>
    rw [List.foldl_cons, ih, listing, List.map_cons, List.append_assoc]
    cases hg : g n.tree with
    | none => rw [List.filterMap_cons_none hg]; rfl
    | some x => rw [List.filterMap_cons_some hg]; rfl

/-- If exactly the nodes of a kind state something, each of them is listed, in their order. -/
theorem map_filter_kind {k : Kind} {g : Tree → Option α} {ns : List Node}
    (hnone : ∀ t : Tree, t.kind ≠ k → g t = none)
    (hsome : ∀ n ∈ ns, n.tree.kind = k → ∃ x, g n.tree = some x) :
    (ns.filter fun n => n.tree.kind == k).map (fun n => g n.tree) =
      ((ns.map Node.tree).filterMap g).map some := by
  induction ns with
  | nil => rfl
  | cons n ns ih =>
    obtain ⟨hn, hns⟩ := List.forall_mem_cons.mp hsome
    by_cases hk : n.tree.kind = k
    · obtain ⟨x, hx⟩ := hn hk
      rw [List.filter_cons_of_pos (by simpa using hk), List.map_cons, List.map_cons,
        List.filterMap_cons_some hx, List.map_cons, ih hns, hx]
    · rw [List.filter_cons_of_neg (by simpa using hk), List.map_cons,
        List.filterMap_cons_none (hnone _ hk), ih hns]

theorem Tree.map_tree_nodes (t : Tree) : t.nodes.map Node.tree = t.preorder :=
  map_tree_nodesFrom [] t

/-- A walk through a tree of any shape, with a cursor that can only go to the first child, to the
next sibling and to the parent, ends after two rounds for each node. It has then visited each node
once, in the order in which the nodes are read off the tree by recursion: no node comes behind one
that stands below it. In a source all calls and all imports are listed, in this order. -/
theorem a_walk_visits_every_node_once {C : Type} {m : Moves C} {root : Tree}
    {At : C → Route → Prop} (h : m.IsLawful root At) {start : C} (hstart : At start []) :
    (∀ (S : Type) (visit : S → Node → S) (s : S),
      ∃ c, m.run visit (2 * root.nodes.length) ⟨.visiting, start, s⟩ =
        ⟨.ended, c, root.nodes.foldl visit s⟩) ∧
    (root.nodes.map Node.tree = root.preorder ∧ root.walk = root.preorder ∧
      (∀ n, n ∈ root.nodes ↔ root.at? n.route = some n.tree) ∧
      root.nodes.Pairwise fun a b => a.route < b.route ∧ ¬ b.route <+: a.route) ∧
    (∃ c, m.run (listing Tree.call?) (2 * root.nodes.length) ⟨.visiting, start, []⟩ =
      ⟨.ended, c, root.calls⟩) ∧
    (∃ c, m.run (listing Tree.import?) (2 * root.nodes.length) ⟨.visiting, start, []⟩ =
      ⟨.ended, c, root.imports⟩) ∧
    ∀ source, parse source = .ok root →
      (root.nodes.filter fun n => n.tree.kind == .callExpression).map (fun n => n.tree.call?) =
        root.calls.map some ∧
      (root.nodes.filter fun n => n.tree.kind == .importSpec).map (fun n => n.tree.import?) =
        root.imports.map some := by
  have hlisted : ∀ {α : Type} (g : Tree → Option α),
      root.nodes.foldl (listing g) [] = root.walk.filterMap g := fun g => by
    rw [foldl_listing, Tree.map_tree_nodes, Tree.walk_eq, List.nil_append]
  refine ⟨fun S visit s => h.run_root visit hstart s,
    ⟨root.map_tree_nodes, root.walk_eq, fun _ => Tree.mem_nodes, root.pairwise_nodes⟩,
    ?_, ?_, fun source hsource => ?_⟩
  · rw [Tree.calls, ← hlisted]
    exact h.run_root _ hstart []
  · rw [Tree.imports, ← hlisted]
    exact h.run_root _ hstart []
  have hcomplete : ∀ n ∈ root.nodes, n.tree.isComplete = true := fun n hn => by
    have hmem : n.tree ∈ root.preorder := root.map_tree_nodes ▸ List.mem_map_of_mem hn
    exact Tree.of_mem_preorder (fun ht _ => Tree.isComplete_of_mem_children ht)
      (isComplete_of_parse hsource) _ hmem
  rw [Tree.calls, Tree.imports, Tree.walk_eq, ← Tree.map_tree_nodes]
  exact ⟨map_filter_kind (fun _ ht => if_neg ht) fun n hn hk =>
      Tree.exists_call? (hcomplete n hn) hk,
    map_filter_kind (fun _ ht => if_neg ht) fun n hn hk =>
      Tree.exists_import? (hcomplete n hn) hk⟩

namespace Sample

def nestedText : String :=
  "package main\n\nimport \"log\"\n\nfunc main() \x7b log.Fatal(goyave.Start(route)) \x7d\n"

/-- The outer call is visited before the call that is its argument. -/
theorem the_nested_calls_of_the_program_are_visited_in_order :
    ∃ root, parse nestedText.toList = .ok root ∧
      (∃ c, (Moves.byRoute root).run (listing Tree.call?) (2 * root.nodes.length)
        ⟨.visiting, [], []⟩ = ⟨.ended, c, root.calls⟩) ∧
      root.calls.map (fun c => c.callee.display) = ["log.Fatal", "goyave.Start"] ∧
      (root.nodes.filter fun n => n.tree.kind == .callExpression).map (fun n => n.tree.call?) =
        root.calls.map some := by
  have hcalls : (parse nestedText.toList).toOption.map (fun root : Tree =>
      root.calls.map fun c => c.callee.display) = some ["log.Fatal", "goyave.Start"] := by
    decide +kernel
  obtain ⟨root, hroot, hcalls⟩ := exists_ok_of_toOption_map hcalls
  have hstart : ([] : Route) = [] ∧ (root.at? []).isSome = true := ⟨rfl, rfl⟩
  obtain ⟨-, -, hwalk, -, hall⟩ :=
    a_walk_visits_every_node_once (Moves.isLawful_byRoute root) hstart
  exact ⟨root, hroot, hwalk, hcalls, (hall _ hroot).1⟩

end Sample
end Graft.Go
