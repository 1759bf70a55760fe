-- A reference is written as the expression that it was made of. Marks are
-- written in one way, and a node is written as its parts, so nothing of an
-- expression is lost in a reference but the type arguments of a call.
import Graft.Proofs.NodeLayouts
import Graft.Proofs.SourceParts
import Graft.Proofs.StartCalls

namespace Graft

open Go

namespace Go

/-! ## The items of a source -/

/-- The mark is written as the table has it. -/
def Token.IsSpelled (t : Token) : Prop :=
  ∀ m, t.sort = .mark m → (String.ofList t.text, m) ∈ markTable

theorem number?_ne_mark {cs : List Char} {m : Mark} {n : Nat} : number? cs ≠ some (.mark m, n) := by
  intro h
  unfold number? at h
  dsimp only at h
  split at h
  · cases h
  · split at h
    · cases h
    · split at h <;> cases h

theorem wordClass_ne_mark (word : List Char) (m : Mark) : wordClass word ≠ .mark m := by
  unfold wordClass
  split <;> exact fun h => nomatch h

/-- Only what opens with a mark is scanned as one. -/
theorem mark?_of_scan {c : Char} {rest : List Char} {m : Mark} {n : Nat}
    (h : scan (c :: rest) = (.mark m, n)) : mark? (c :: rest) = some (m, n) := by
  unfold scan at h
  dsimp only at h
  split at h
  · cases h
  split at h
  · exact absurd (congrArg Prod.fst h) (wordClass_ne_mark _ _)
  split at h
  · split at h <;> cases h
  split at h
  · split at h <;> cases h
  split at h
  · split at h <;> cases h
  split at h
  · rename_i hnumber
    cases h
    exact absurd hnumber number?_ne_mark
  · split at h
    · rename_i hmark
      cases h
      exact hmark
    · cases h

/-- A mark is scanned as it is written. -/
theorem mem_markTable_of_scan {c : Char} {rest : List Char} {m : Mark}
    (h : (scan (c :: rest)).1 = .mark m) :
    (String.ofList (c :: rest.take ((scan (c :: rest)).2 - 1)), m) ∈ markTable := by
  have hscan : scan (c :: rest) = (.mark m, (scan (c :: rest)).2) := Prod.ext h rfl
  obtain ⟨e, hfound, hpair⟩ := Option.map_eq_some_iff.mp (mark?_of_scan hscan)
  obtain ⟨rfl, hlength⟩ := Prod.mk.inj hpair
  have hmem := List.mem_of_find?_eq_some hfound
  have hprefix := List.find?_some hfound
  have hne : ∀ e ∈ markTable, e.1.toList ≠ [] := by decide
  obtain ⟨d, text, htext⟩ := List.exists_cons_of_ne_nil (hne e hmem)
  rw [← hlength, htext, List.length_cons, Nat.add_sub_cancel]
  rw [htext, List.isPrefixOf_iff_prefix, List.cons_prefix_cons] at hprefix
  rw [← List.prefix_iff_eq_take.mp hprefix.2, ← hprefix.1, ← htext, String.ofList_toList]
  exact hmem

theorem isSpelled_of_mem_tokens {source : List Char} {t : Token} (h : t ∈ tokens source) :
    t.IsSpelled := by
  intro m hm
  rcases ending_or_isScanned_of_mem_tokens h with hending | ⟨c, rest, hsort, htext⟩
  · rw [hending] at hm
    cases hm
  · rw [hsort] at hm
    rw [htext]
    exact mem_markTable_of_scan hm

/-- The item is no comment, it keeps only comments as such, and if it is a mark, it is written as
one. -/
structure Item.IsPlain (i : Item) : Prop where
  noComment : i.token.sort ≠ .comment
  comments : ∀ c ∈ i.comments, c.sort = .comment
  spelled : i.token.IsSpelled

theorem isPlain_of_mem_itemsFrom {comments ts : List Token} {ended : Bool} {i : Item}
    (hc : ∀ c ∈ comments, c.sort = .comment) (ht : ∀ t ∈ ts, t.IsSpelled)
    (h : i ∈ itemsFrom comments ended ts) : i.IsPlain := by
  induction ts generalizing comments ended with
  | nil => cases h
  | cons t ts ih =>
    have hmore : ∀ u ∈ ts, u.IsSpelled := fun u hu => ht u (List.mem_cons_of_mem t hu)
    unfold itemsFrom at h
    dsimp only at h
    split at h
    · rename_i hcomment
      refine ih ?_ hmore h
      intro c hmem
      rcases List.mem_append.mp hmem with hmem | hmem
      · exact hc c hmem
      · rw [List.mem_singleton.mp hmem]
        exact hcomment
    · rename_i hitem
      rcases List.mem_cons.mp h with rfl | h
      · exact ⟨hitem, hc, ht t List.mem_cons_self⟩
      · exact ih (by simp) hmore h

theorem isPlain_of_mem_items {source : List Char} {i : Item} (h : i ∈ items (tokens source)) :
    i.IsPlain :=
  isPlain_of_mem_itemsFrom (by simp) (fun _ => isSpelled_of_mem_tokens) h

/-- A mark of the source is written in one way. -/
theorem Item.IsPlain.text_eq {i : Item} (h : i.IsPlain) {m : Mark} (hm : i.token.sort = .mark m)
    (text : String) (htext : ∀ e ∈ markTable, e.2 = m → e.1 = text) :
    i.token.text = text.toList := by
  rw [← htext _ (h.spelled m hm) rfl, String.toList_ofList]

/-! ## What is written -/

namespace Tree

/-- What is written in the source for the tree, without white space and comments. -/
def letters (t : Tree) : List Char :=
  (t.tokens.filter fun u => u.sort != .comment).flatMap Token.text

theorem tokensAll_eq (ts : List Tree) : tokensAll ts = ts.flatMap tokens := by
  induction ts with
  | nil => rfl
  | cons t ts ih => rw [tokensAll, ih, List.flatMap_cons]

theorem letters_node (k : Kind) (r : Option Role) (ts : List Tree) :
    (node k r ts).letters = ts.flatMap letters := by
  unfold letters
  rw [tokens, tokensAll_eq, List.filter_flatMap, List.flatMap_assoc]

end Tree

namespace Shape

theorem letters_leaf {i : Item} (h : i.IsPlain) (k : Kind) (r : Option Role) :
    (leaf k r i).tree.letters = i.token.text := by
  have hitem : (i.token.sort != .comment) = true := bne_iff_ne.mpr h.noComment
  simp [tree, Tree.letters, Tree.tokens, hitem]

theorem letters_comments {cs : List Token} (h : ∀ c ∈ cs, c.sort = .comment) :
    (cs.map commentTree).flatMap Tree.letters = [] := by
  rw [List.flatMap_eq_nil_iff]
  intro t ht
  obtain ⟨c, hc, rfl⟩ := List.mem_map.mp ht
  simp [commentTree, Tree.letters, Tree.tokens, h c hc]

mutual
theorem comments_of_made : ∀ {s : Shape}, s.Made Item.IsPlain → ∀ c ∈ s.comments, c.sort = .comment
  | leaf _ _ _, h => h.comments
  | node _ _ _, h => comments_of_madeAll h.2

theorem comments_of_madeAll : ∀ {ss : List Shape}, MadeAll Item.IsPlain ss →
    ∀ c ∈ commentsFirst ss, c.sort = .comment
  | [], _ => by simp [commentsFirst]
  | _ :: _, h => comments_of_made h.1
end

variable {ss : List Shape}

theorem letters_trees (h : MadeAll Item.IsPlain ss) :
    (trees ss).flatMap Tree.letters = ss.flatMap fun s => s.tree.letters := by
  induction ss with
  | nil => rfl
  | cons s ss ih =>
    rw [trees, List.flatMap_append, letters_comments (comments_of_made h.1), List.nil_append,
      List.flatMap_cons, List.flatMap_cons, ih h.2]

/-- A node is written as its parts, one after the other. -/
theorem letters_tree_node (h : MadeAll Item.IsPlain ss) (k : Kind) (r : Option Role) :
    (node k r ss).tree.letters = ss.flatMap fun s => s.tree.letters := by
  rw [tree_node, Tree.letters_node]
  cases ss with
  | nil => rfl
  | cons s ss => rw [parts, List.flatMap_cons, List.flatMap_cons, letters_trees h.2]

/-! ## The nodes of a source -/

theorem comment_of_mem_preorderAll {cs : List Token} {t : Tree}
    (h : t ∈ Tree.preorderAll (cs.map commentTree)) : ∃ c, t = commentTree c := by
  induction cs with
  | nil => cases h
  | cons c cs ih =>
    rw [List.map_cons, Tree.preorderAll, List.mem_append] at h
    rcases h with h | h
    · exact ⟨c, List.mem_singleton.mp h⟩
    · exact ih h

mutual
/-- A node of the tree of a shape is the tree of a part, or a comment. -/
theorem made_of_mem_preorder : ∀ {s : Shape}, s.Made Item.IsPlain → ∀ {t : Tree},
    t ∈ s.tree.preorder → (∃ p : Shape, p.Made Item.IsPlain ∧ t = p.tree) ∨ ∃ c, t = commentTree c
  | leaf k r i, h, t, ht => .inl ⟨leaf k r i, h, List.mem_singleton.mp ht⟩
  | node k r [], h, t, ht => .inl ⟨node k r [], h, List.mem_singleton.mp ht⟩
  | node k r (s :: ss), h, t, ht => by
    rw [tree_node, Tree.preorder, ← tree_node, parts, Tree.preorderAll, List.mem_cons,
      List.mem_append] at ht
    rcases ht with rfl | ht | ht
    · exact .inl ⟨_, h, rfl⟩
    · exact made_of_mem_preorder h.2.1 ht
    · exact made_of_mem_preorderAll h.2.2 ht

theorem made_of_mem_preorderAll : ∀ {ss : List Shape}, MadeAll Item.IsPlain ss → ∀ {t : Tree},
    t ∈ Tree.preorderAll (trees ss) →
      (∃ p : Shape, p.Made Item.IsPlain ∧ t = p.tree) ∨ ∃ c, t = commentTree c
  | [], _, t, ht => by cases ht
  | s :: ss, h, t, ht => by
    rw [trees, preorderAll_append, Tree.preorderAll, List.mem_append, List.mem_append] at ht
    rcases ht with ht | ht | ht
    · exact .inr (comment_of_mem_preorderAll ht)
    · exact made_of_mem_preorder h.1 ht
    · exact made_of_mem_preorderAll h.2 ht
end

end Shape

/-! ## What is read off the nodes -/

/-- A call with type arguments between what is called and the arguments. -/
def typedCallShape (r : Option Role) (callee : Shape) (types args : List Shape) : Shape :=
  .node .callExpression r
    [callee, .node .typeArguments none types, .node .argumentList (some .arguments) args]

theorem expr_typedCall {callee : Shape} (h : callee.role? = some .function) (r : Option Role)
    (types args : List Shape) :
    (typedCallShape r callee types args).expr =
      .call callee.expr (Expr.argumentsOf (Shape.parts args)) := by
  have hargs : Expr.argumentsAmong (Shape.parts [callee, .node .typeArguments none types,
      .node .argumentList (some .arguments) args]) = Expr.argumentsOf (Shape.parts args) := by
    rw [Shape.parts, argumentsAmong_of_role (by simp [h]), Shape.trees,
      Shape.argumentsAmong_comments,
      argumentsAmong_of_role (s := .node .typeArguments none types) (by simp [Shape.role?]),
      Shape.trees, Shape.argumentsAmong_comments, Shape.tree_node]
    rfl
  unfold Shape.expr typedCallShape
  rw [Shape.tree_node, Expr.ofTree, if_neg (by decide), if_pos rfl, ofRole_parts h, hargs]
  rfl

/-- The expressions in a list of arguments are its parts that are no punctuation. -/
theorem argumentsOf_eq (ts : List Tree) :
    Expr.argumentsOf ts = (ts.filter fun t => t.isNamed && !t.isComment).map Expr.ofTree := by
  induction ts with
  | nil => rfl
  | cons t ts ih =>
    rw [Expr.argumentsOf, List.filter_cons]
    split
    · rw [List.map_cons, ih]
    · exact ih

namespace Shape

variable {ss : List Shape} {s : Shape}

theorem mem_trees (h : s ∈ ss) : s.tree ∈ trees ss := by
  induction ss with
  | nil => cases h
  | cons t ss ih =>
    rw [trees, List.mem_append, List.mem_cons]
    rcases List.mem_cons.mp h with rfl | h
    · exact .inr (.inl rfl)
    · exact .inr (.inr (ih h))

theorem mem_parts (h : s ∈ ss) : s.tree ∈ parts ss := by
  cases ss with
  | nil => cases h
  | cons t ss =>
    rw [parts, List.mem_cons]
    rcases List.mem_cons.mp h with rfl | h
    · exact .inl rfl
    · exact .inr (mem_trees h)

theorem of_mem_trees {t : Tree} (h : t ∈ trees ss) :
    (∃ s ∈ ss, t = s.tree) ∨ ∃ c, t = commentTree c := by
  induction ss with
  | nil => cases h
  | cons s ss ih =>
    rw [trees, List.mem_append, List.mem_cons] at h
    rcases h with h | rfl | h
    · obtain ⟨c, -, rfl⟩ := List.mem_map.mp h
      exact .inr ⟨c, rfl⟩
    · exact .inl ⟨s, List.mem_cons_self, rfl⟩
    · rcases ih h with ⟨s', hs, rfl⟩ | hc
      · exact .inl ⟨s', List.mem_cons_of_mem s hs, rfl⟩
      · exact .inr hc

theorem of_mem_parts {t : Tree} (h : t ∈ parts ss) :
    (∃ s ∈ ss, t = s.tree) ∨ ∃ c, t = commentTree c := by
  cases ss with
  | nil => cases h
  | cons s ss =>
    rw [parts, List.mem_cons] at h
    rcases h with rfl | h
    · exact .inl ⟨s, List.mem_cons_self, rfl⟩
    · rcases of_mem_trees h with ⟨s', hs, rfl⟩ | hc
      · exact .inl ⟨s', List.mem_cons_of_mem s hs, rfl⟩
      · exact .inr hc

theorem argumentsOf_ne_nil (h : s ∈ ss) (hk : s.kind.isItem = true) :
    Expr.argumentsOf (parts ss) ≠ [] := by
  have hitem : (s.tree.isNamed && !s.tree.isComment) = true := by
    unfold Tree.isNamed Tree.isComment
    rw [kind_tree]
    exact hk
  rw [argumentsOf_eq]
  intro hnone
  have hmem : s.tree ∈ (parts ss).filter fun t => t.isNamed && !t.isComment :=
    List.mem_filter.mpr ⟨mem_parts h, hitem⟩
  rw [List.map_eq_nil_iff.mp hnone] at hmem
  cases hmem

/-- No part of the node is a list of type arguments. -/
theorem no_types_of_kinds {k : Kind} {r : Option Role} (h : ∀ s ∈ ss, s.kind ≠ .typeArguments) :
    ∀ c ∈ (node k r ss).tree.children, c.kind ≠ .typeArguments := by
  intro c hc
  rw [tree_node] at hc
  rcases of_mem_parts hc with ⟨s, hs, rfl⟩ | ⟨u, rfl⟩
  · rw [kind_tree]
    exact h s hs
  · exact fun hk => nomatch hk

/-- The forms of a shape that a reference can be made of. -/
inductive Form : Shape → Prop
  | ident (r : Option Role) (x : Item) : Form (identShape r x)
  | selection {r : Option Role} {base : Shape} {dot field : Item} (hb : base.role? = some .operand)
    (hd : dot.token.sort = .mark .dot) : Form (selectionShape r base dot field)
  | call {r : Option Role} {callee : Shape} {args : List Shape}
    (hc : callee.role? = some .function) : Form (callShape r callee args)
  | typedCall {r : Option Role} {callee : Shape} {opening : Item} {types args : List Shape}
    (hc : callee.role? = some .function) (ho : opening.token.sort = .mark .bracketOpen) :
    Form (typedCallShape r callee (.leaf .mark none opening :: types) args)
  | other {s : Shape} (h : ∃ kind text, s.expr = .other kind text) : Form s

theorem form_of_node {k : Kind} (hs : k ≠ .selectorExpression) (hc : k ≠ .callExpression)
    (r : Option Role) (ss : List Shape) : (node k r ss).Form := by
  refine .other ⟨k.name, (node k r ss).tree.text, ?_⟩
  unfold Shape.expr
  rw [tree_node, Expr.ofTree, if_neg hs, if_neg hc]
  rfl

theorem form_of_made {good : Item → Prop} (h : s.Made good) : s.Form := by
  cases s with
  | leaf k r i =>
    by_cases hk : k = .identifier
    · subst hk
      exact .ident r i
    · refine .other ⟨k.name, (Tree.leaf k r i.token).text, ?_⟩
      unfold Shape.expr
      rw [tree, Expr.ofTree, if_neg hk]
      rfl
  | node k r ss =>
    obtain ⟨hlaid, -⟩ := h
    cases hlaid with
    | selection hb hd => exact .selection hb hd
    | call hc => exact .call hc
    | typedCall hc ho => exact .typedCall hc ho
    | noArguments | someArguments => exact form_of_node (by decide) (by decide) r _
    | other hs hc ha => exact form_of_node hs hc r ss

/-! ## References and what is written -/

variable {imports : List Import} {q r : Reference}

theorem ident_of_expr (h : s.Made Item.IsPlain) {n : String} (hn : s.expr = .ident n) :
    s.tree.letters = n.toList ∧ s.kind = .identifier := by
  cases form_of_made h with
  | ident ro x =>
    cases hn
    exact ⟨by rw [identShape, letters_leaf h, String.toList_ofList], rfl⟩
  | selection hb hd =>
    rw [expr_selection hb] at hn
    cases hn
  | call hc =>
    rw [expr_call hc] at hn
    cases hn
  | typedCall hc ho =>
    rw [expr_typedCall hc] at hn
    cases hn
  | other ho =>
    obtain ⟨kind, text, ho⟩ := ho
    rw [ho] at hn
    cases hn

/-- A name, by itself or selected from a name, is written as the reference to it. -/
theorem letters_of_name (h : s.Made Item.IsPlain) (hq : Reference.ofName? imports s.expr = some q) :
    s.tree.letters = q.value.toList ∧ s.kind ≠ .typeArguments ∧
      ∀ c ∈ s.tree.children, c.kind ≠ .typeArguments := by
  cases form_of_made h with
  | ident ro x =>
    rw [expr_ident] at hq
    cases hq
    refine ⟨?_, fun hk => (nomatch hk), fun c hc => (nomatch hc)⟩
    rw [identShape, letters_leaf h, String.toList_ofList]
  | @selection ro base dot field hb hd =>
    rw [expr_selection hb] at hq
    cases hbase : base.expr with
    | ident n =>
      rw [hbase] at hq
      cases hq
      obtain ⟨-, hmade⟩ := h
      have hparts := hmade
      obtain ⟨hmbase, hmdot, hmfield, -⟩ := hparts
      obtain ⟨hletters, hkind⟩ := ident_of_expr hmbase hbase
      refine ⟨?_, fun hk => (nomatch hk), ?_⟩
      · have hdot := hmdot.text_eq hd "." (by decide)
        rw [selectionShape, letters_tree_node hmade]
        simp [hletters, letters_leaf hmdot, letters_leaf hmfield, hdot]
      · refine no_types_of_kinds fun s hs => ?_
        simp only [List.mem_cons, List.not_mem_nil, or_false] at hs
        rcases hs with rfl | rfl | rfl
        · rw [hkind]
          decide
        · exact fun hk => nomatch hk
        · exact fun hk => nomatch hk
    | _ =>
      rw [hbase] at hq
      cases hq
  | call hc =>
    rw [expr_call hc] at hq
    cases hq
  | typedCall hc ho =>
    rw [expr_typedCall hc] at hq
    cases hq
  | other ho =>
    obtain ⟨kind, text, ho⟩ := ho
    rw [ho] at hq
    cases hq

/-- A list of arguments without arguments is written as two brackets. -/
theorem letters_of_no_arguments {ro : Option Role} {args : List Shape}
    (h : (node .argumentList ro args).Made Item.IsPlain)
    (hnone : Expr.argumentsOf (parts args) = []) :
    (node .argumentList ro args).tree.letters = "()".toList := by
  obtain ⟨hlaid, hmade⟩ := h
  cases hlaid with
  | noArguments ho hc =>
    have hparts := hmade
    obtain ⟨hopening, hclosing, -⟩ := hparts
    have htext := hopening.text_eq ho "(" (by decide)
    have htext' := hclosing.text_eq hc ")" (by decide)
    rw [letters_tree_node hmade]
    simp [letters_leaf hopening, letters_leaf hclosing, htext, htext']
  | someArguments hs hk => exact absurd hnone (argumentsOf_ne_nil hs hk)
  | other _ _ ha => exact absurd rfl ha

theorem value_of_call {callee : Expr} {args : List Expr}
    (h : Reference.ofExpr? imports (.call callee args) = some r) :
    args = [] ∧ ∃ q, Reference.ofName? imports callee = some q ∧ r.value = q.value ++ "()" := by
  unfold Reference.ofExpr? at h
  split at h
  · rename_i callee' heq
    cases heq
    obtain ⟨q, hq, rfl⟩ := Option.map_eq_some_iff.mp h
    exact ⟨rfl, q, hq, rfl⟩
  · cases h

/-- A call with type arguments has one list of them. -/
theorem eq_types_of_kind {ro : Option Role} {callee : Shape} {types args : List Shape} {c : Tree}
    (hcallee : callee.kind ≠ .typeArguments)
    (hc : c ∈ (typedCallShape ro callee types args).tree.children)
    (hk : c.kind = .typeArguments) : c = (node .typeArguments none types).tree := by
  have hmem : c ∈ parts [callee, .node .typeArguments none types,
      .node .argumentList (some .arguments) args] := hc
  rcases of_mem_parts hmem with ⟨s, hs, rfl⟩ | ⟨u, rfl⟩
  · rw [kind_tree] at hk
    simp only [List.mem_cons, List.not_mem_nil, or_false] at hs
    rcases hs with rfl | rfl | rfl
    · exact absurd hk hcallee
    · rfl
    · cases hk
  · cases hk

/-- A reference is written as the shape that it is made of, but for type arguments. -/
theorem letters_of_reference (h : s.Made Item.IsPlain)
    (hr : Reference.ofExpr? imports s.expr = some r) :
    (s.tree.letters = r.value.toList ∧ ∀ c ∈ s.tree.children, c.kind ≠ .typeArguments) ∨
      ∃ types ∈ s.tree.children, types.kind = .typeArguments ∧
        (∀ c ∈ s.tree.children, c.kind = .typeArguments → c = types) ∧ types.letters ≠ [] ∧
        ∃ callee, s.tree.letters = callee ++ (types.letters ++ "()".toList) ∧
          r.value.toList = callee ++ "()".toList := by
  cases form_of_made h with
  | ident ro x =>
    have hq : Reference.ofName? imports (identShape ro x).expr = some r := hr
    obtain ⟨hletters, -, hnone⟩ := letters_of_name h hq
    exact .inl ⟨hletters, hnone⟩
  | @selection ro base dot field hb hd =>
    have hq : Reference.ofName? imports (selectionShape ro base dot field).expr = some r := by
      rw [expr_selection hb] at hr ⊢
      exact hr
    obtain ⟨hletters, -, hnone⟩ := letters_of_name h hq
    exact .inl ⟨hletters, hnone⟩
  | @call ro callee args hc =>
    rw [expr_call hc] at hr
    obtain ⟨hargs, q, hq, hvalue⟩ := value_of_call hr
    obtain ⟨-, hmade⟩ := h
    have hparts := hmade
    obtain ⟨hcallee, hlist, -⟩ := hparts
    obtain ⟨hletters, hkind, -⟩ := letters_of_name hcallee hq
    left
    constructor
    · rw [callShape, letters_tree_node hmade]
      simp [hletters, letters_of_no_arguments hlist hargs, hvalue]
    · refine no_types_of_kinds fun s hs => ?_
      simp only [List.mem_cons, List.not_mem_nil, or_false] at hs
      rcases hs with rfl | rfl
      · exact hkind
      · intro hk
        cases hk
  | @typedCall ro callee opening types args hc ho =>
    rw [expr_typedCall hc] at hr
    obtain ⟨hargs, q, hq, hvalue⟩ := value_of_call hr
    obtain ⟨-, hmade⟩ := h
    have hparts := hmade
    obtain ⟨hcallee, htypes, hlist, -⟩ := hparts
    obtain ⟨hletters, hkind, -⟩ := letters_of_name hcallee hq
    have hopening := htypes.2.1
    have htext := hopening.text_eq ho "[" (by decide)
    refine .inr ⟨_, mem_parts (List.mem_cons_of_mem callee List.mem_cons_self), rfl,
      fun c hc hk => eq_types_of_kind hkind hc hk, ?_, q.value.toList, ?_, ?_⟩
    · rw [letters_tree_node htypes.2, List.flatMap_cons, letters_leaf hopening, htext]
      simp
    · rw [typedCallShape, letters_tree_node hmade]
      simp [hletters, letters_of_no_arguments hlist hargs]
    · simp [hvalue]
  | other ho =>
    obtain ⟨kind, text, ho⟩ := ho
    rw [ho] at hr
    cases hr

end Shape

/-- A node of a source is the tree of a shape that is made by the rules, unless it is a comment or
the whole. -/
theorem exists_made_of_mem_walk {source : List Char} {tree t : Tree}
    (hp : parse source = .ok tree) (ht : t ∈ tree.walk) :
    (∃ s : Shape, s.Made Item.IsPlain ∧ t = s.tree) ∨ (∃ c, t = Shape.commentTree c) ∨
      t.kind = .sourceFile := by
  obtain ⟨ss, last, rfl, -, hss⟩ :=
    yields_of_parse (fun i hi => ⟨hi.noComment, hi.comments, hi.spelled⟩)
      (fun i => isPlain_of_mem_items) hp
  have hmade : Shape.MadeAll Item.IsPlain ss := by
    rcases hss with hss | rfl
    · exact (Rule.made_of_yields hss).1 Rule.isLaid_sourceRule
    · trivial
  rw [Tree.walk_eq, sourceTree, Tree.preorder, List.mem_cons, Shape.preorderAll_append,
    List.mem_append] at ht
  rcases ht with rfl | ht | ht
  · exact .inr (.inr rfl)
  · rcases Shape.made_of_mem_preorderAll hmade ht with hs | hc
    · exact .inl hs
    · exact .inr (.inl hc)
  · exact .inr (.inl (Shape.comment_of_mem_preorderAll ht))

end Go

/-- A reference that an expression of a source is made into is written as the expression, without
white space and comments, exactly if the expression is no call with type arguments. From such a
call the type arguments are missing, and nothing else is. -/
theorem a_reference_is_written_as_its_expression {source : List Char} {tree t : Tree}
    {imports : List Import} {r : Reference} (hp : parse source = .ok tree) (ht : t ∈ tree.walk)
    (hr : Reference.ofExpr? imports (Expr.ofTree t) = some r) :
    (r.value.toList = t.letters ↔ ∀ c ∈ t.children, c.kind ≠ .typeArguments) ∧
      ∀ types ∈ t.children, types.kind = .typeArguments →
        ∃ callee, t.letters = callee ++ types.letters ++ "()".toList ∧
          r.value.toList = callee ++ "()".toList := by
  rcases exists_made_of_mem_walk hp ht with ⟨s, hmade, rfl⟩ | ⟨c, rfl⟩ | hkind
  · rcases Shape.letters_of_reference hmade hr with
      ⟨hletters, hnone⟩ | ⟨types, htypes, hkind, honly, hne, callee, hletters, hvalue⟩
    · refine ⟨⟨fun _ => hnone, fun _ => hletters.symm⟩, ?_⟩
      intro types htypes hkind
      exact absurd hkind (hnone types htypes)
    · constructor
      · constructor
        · intro heq
          rw [hletters, hvalue, List.append_right_inj, List.self_eq_append_left] at heq
          exact absurd heq hne
        · intro hnone
          exact absurd hkind (hnone types htypes)
      · intro other hother hkind'
        rw [honly other hother hkind']
        exact ⟨callee, by rw [hletters, List.append_assoc], hvalue⟩
  · cases hr
  · cases t with
    | leaf k ro u =>
      cases hkind
      cases hr
    | node k ro ts =>
      cases hkind
      cases hr

namespace Sample

/-- A part of the tree holds type arguments. -/
def holdsTypes (t : Tree) : Bool := t.children.any fun c => c.kind == .typeArguments

/-- The references that are made of the trees, how these are written, and whether they hold type
arguments. -/
def referencesOf (ts : List Tree) : List (String × List Char × Bool) :=
  ts.filterMap fun t =>
    (Reference.ofExpr? [] (Expr.ofTree t)).map fun r => (r.value, t.letters, holdsTypes t)

theorem exists_of_mem_referencesOf {ts : List Tree} {value : String} {letters : List Char}
    {types : Bool} (h : (value, letters, types) ∈ referencesOf ts) :
    ∃ t ∈ ts, t.letters = letters ∧ holdsTypes t = types ∧
      ∃ r, Reference.ofExpr? [] (Expr.ofTree t) = some r ∧ r.value = value := by
  obtain ⟨t, ht, hsome⟩ := List.mem_filterMap.mp h
  obtain ⟨r, hr, hpair⟩ := Option.map_eq_some_iff.mp hsome
  cases hpair
  exact ⟨t, ht, rfl, rfl, r, hr, rfl⟩

def spacedText : String :=
  "package main\n\nfunc main() \x7b\n\tgoyave.Start(build /* all */ ( ))\n\x7d\n"

theorem a_spaced_call_is_written_as_its_reference :
    ∃ tree t r, parse spacedText.toList = .ok tree ∧ t ∈ tree.walk ∧
      Reference.ofExpr? [] (Expr.ofTree t) = some r ∧ r.value = "build()" ∧
      r.value.toList = t.letters := by
  have hfound : ((parse spacedText.toList).toOption.map fun tree =>
      (referencesOf tree.preorder).contains ("build()", "build()".toList, false)) =
        some true := by
    decide +kernel
  obtain ⟨tree, htree, hmem⟩ := exists_ok_of_toOption_map hfound
  obtain ⟨t, ht, -, htypes, r, hr, hvalue⟩ :=
    exists_of_mem_referencesOf (List.contains_iff_mem.mp hmem)
  rw [← Tree.walk_eq] at ht
  refine ⟨tree, t, r, htree, ht, hr, hvalue, ?_⟩
  refine (a_reference_is_written_as_its_expression htree ht hr).1.mpr fun c hc hkind => ?_
  have hany : holdsTypes t = true := List.any_eq_true.mpr ⟨c, hc, by simp [hkind]⟩
  rw [hany] at htypes
  cases htypes

def typedText : String :=
  "package main\n\nfunc main() \x7b\n\tgoyave.Start(build[int]())\n\x7d\n"

/-- The reference to what a call with a type argument returns is written without the argument. -/
theorem a_typed_call_is_not_written_as_its_reference :
    ∃ tree list t r, parse typedText.toList = .ok tree ∧ list ∈ tree.walk ∧
      list.kind = .argumentList ∧ t ∈ list.children ∧
      Reference.ofExpr? [] (Expr.ofTree t) = some r ∧ r.value = "build()" ∧
      t.letters = "build[int]()".toList := by
  have hfound : ((parse typedText.toList).toOption.map fun tree =>
      (tree.preorder.filter fun t => t.kind == .argumentList).any fun list =>
        (referencesOf list.children).contains ("build()", "build[int]()".toList, true)) =
          some true := by
    decide +kernel
  obtain ⟨tree, htree, hany⟩ := exists_ok_of_toOption_map hfound
  obtain ⟨list, hlist, hmem⟩ := List.any_eq_true.mp hany
  obtain ⟨hlist, hkind⟩ := List.mem_filter.mp hlist
  obtain ⟨t, ht, hletters, -, r, hr, hvalue⟩ :=
    exists_of_mem_referencesOf (List.contains_iff_mem.mp hmem)
  rw [← Tree.walk_eq] at hlist
  exact ⟨tree, list, t, r, htree, hlist, eq_of_beq hkind, ht, hr, hvalue, hletters⟩

end Sample

end Graft
