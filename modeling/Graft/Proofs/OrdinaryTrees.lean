-- Where comments, names and other single tokens stand in a tree. A comment
-- can be a child of any node, but it never plays a part in it, and what plays
-- the part of a name, a path or a field is a single token with nothing inside.
-- That is checked once on the rules, and holds of every tree of a source.
import Graft.Proofs.SpelledReferences

namespace Graft.Go

/-! ## Trees with comments anywhere -/

/-- What plays the part is a single token. -/
def Role.isToken : Role → Bool
  | .name | .path | .field => true
  | _ => false

/-- What is of the kind is a single token. -/
def Kind.isToken : Kind → Bool
  | .comment | .packageIdentifier => true
  | _ => false

namespace Tree

mutual
/-- Comments play no part, wherever they stand, and comments and names are single tokens. -/
def isOrdinary : Tree → Bool
  | leaf k r _ => k != .comment || r.isNone
  | node k r ts => !k.isToken && !r.any Role.isToken && isOrdinaryAll ts

def isOrdinaryAll : List Tree → Bool
  | [] => true
  | t :: ts => isOrdinary t && isOrdinaryAll ts
end

variable {t : Tree} {ts : List Tree}

theorem isOrdinaryAll_iff : isOrdinaryAll ts = true ↔ ∀ t ∈ ts, t.isOrdinary = true := by
  induction ts with
  | nil => simp [isOrdinaryAll]
  | cons t ts ih => simp [isOrdinaryAll, ih]

theorem isOrdinary_node {k : Kind} {r : Option Role} :
    (node k r ts).isOrdinary = true ↔
      k.isToken = false ∧ r.any Role.isToken = false ∧ ∀ t ∈ ts, t.isOrdinary = true := by
  simp [isOrdinary, isOrdinaryAll_iff, and_assoc]

theorem isOrdinary_of_mem_children {c : Tree} (h : t.isOrdinary = true) (hc : c ∈ t.children) :
    c.isOrdinary = true := by
  cases t with
  | leaf k r tok => cases hc
  | node k r ts => exact (isOrdinary_node.mp h).2.2 c hc

theorem role_of_isComment (h : t.isOrdinary = true) (hc : t.isComment = true) :
    t.role = none := by
  have hkind : t.kind = .comment := eq_of_beq hc
  cases t with
  | leaf k r tok =>
    subst hkind
    exact Option.isNone_iff_eq_none.mp h
  | node k r ts =>
    subst hkind
    cases (isOrdinary_node.mp h).1

/-- A comment is its token. -/
theorem eq_commentTree (h : t.isOrdinary = true) (hc : t.isComment = true) :
    ∃ c, t = Shape.commentTree c := by
  have hrole := role_of_isComment h hc
  have hkind : t.kind = .comment := eq_of_beq hc
  cases t with
  | leaf k r tok =>
    subst hkind
    subst hrole
    exact ⟨tok, rfl⟩
  | node k r ts =>
    subst hkind
    cases (isOrdinary_node.mp h).1

end Tree

/-! ## The trees of sources -/

namespace Shape

variable {s : Shape} {ss left : List Shape} {k : Kind} {r : Option Role}

/-- The tree of the shape is ordinary, and the shape is no comment. -/
def IsOrdinary (s : Shape) : Prop := s.tree.isOrdinary = true ∧ s.kind ≠ .comment

theorem isOrdinary_leaf {i : Item} (h : k ≠ .comment) : (leaf k r i).IsOrdinary := by
  refine ⟨?_, h⟩
  simp [tree, Tree.isOrdinary, h]

/-- The comments between the parts of a node are ordinary, whatever they are. -/
theorem isOrdinary_node_iff : (node k r ss).tree.isOrdinary = true ↔
    k.isToken = false ∧ r.any Role.isToken = false ∧ ∀ s ∈ ss, s.tree.isOrdinary = true := by
  rw [tree_node, Tree.isOrdinary_node]
  refine and_congr_right fun _ => and_congr_right fun _ => ⟨?_, ?_⟩
  · exact fun h s hs => h s.tree (mem_parts hs)
  · intro h t ht
    rcases of_mem_parts ht with ⟨s, hs, rfl⟩ | ⟨c, rfl⟩
    · exact h s hs
    · rfl

theorem isOrdinary_node (hk : k.isToken = false) (hr : r.any Role.isToken = false)
    (h : ∀ s ∈ ss, s.IsOrdinary) : (node k r ss).IsOrdinary := by
  refine ⟨isOrdinary_node_iff.mpr ⟨hk, hr, fun s hs => (h s hs).1⟩, ?_⟩
  rintro rfl
  cases hk

theorem IsOrdinary.withRole {ro : Role} (h : s.IsOrdinary)
    (hro : ro.isToken = false ∨ ∃ k r i, s = leaf k r i) : (s.withRole ro).IsOrdinary := by
  cases s with
  | leaf k r i => exact isOrdinary_leaf h.2
  | node k r ss =>
    rcases hro with hro | ⟨_, _, _, hleaf⟩
    · obtain ⟨hk, -, hss⟩ := isOrdinary_node_iff.mp h.1
      exact ⟨isOrdinary_node_iff.mpr ⟨hk, hro, hss⟩, h.2⟩
    · cases hleaf

theorem isToken_leftRole {ro : Role} (h : leftRole k = some ro) : ro.isToken = false := by
  unfold leftRole at h
  split at h
  · cases h
    rfl
  · cases h
    rfl
  · cases h

theorem IsOrdinary.takeLeft (h : s.IsOrdinary) (hl : ∀ t ∈ left, t.IsOrdinary) :
    (s.takeLeft left).IsOrdinary := by
  cases s with
  | leaf k r i => exact h
  | node k r ss =>
    obtain ⟨hk, hr, hss⟩ := isOrdinary_node_iff.mp h.1
    unfold Shape.takeLeft
    dsimp only
    split
    · rename_i ro hro
      refine ⟨isOrdinary_node_iff.mpr ⟨hk, hr, ?_⟩, h.2⟩
      intro t ht
      rcases List.mem_append.mp ht with ht | ht
      · obtain ⟨u, hu, rfl⟩ := List.mem_map.mp ht
        exact ((hl u hu).withRole (.inl (isToken_leftRole hro))).1
      · exact hss t ht
    · refine ⟨isOrdinary_node_iff.mpr ⟨hk, hr, ?_⟩, h.2⟩
      intro t ht
      exact (List.mem_append.mp ht).elim (fun ht => (hl t ht).1) (hss t)

end Shape

namespace Rule

/-- The rule makes only tokens. -/
def makesTokens : Rule → Bool
  | .token _ _ | .word _ _ => true
  | .alt r s => r.makesTokens && s.makesTokens
  | _ => false

/-- What the rule makes is ordinary: it gives the parts of tokens only to tokens. -/
def isOrdinary : Rule → Bool
  | .token _ k | .word _ k => k != .comment
  | .node k r => !k.isToken && r.isOrdinary
  | .role ro r => (!ro.isToken || r.makesTokens) && r.isOrdinary
  | .seq r s | .alt r s | .chain r s => r.isOrdinary && s.isOrdinary
  | .once alone r s => !alone.any Kind.isToken && r.isOrdinary && s.isOrdinary
  | .many r | .lines _ r | .literals _ r => r.isOrdinary
  | _ => true

theorem isOrdinary_grammar (p : Part) : (grammar p).isOrdinary = true := by cases p <;> decide

theorem isOrdinary_sourceRule : sourceRule.isOrdinary = true := by decide

variable {good : Item → Prop} {r : Rule} {ss : List Shape}

theorem leaf_of_yields (h : r.Yields good ss) (hr : r.makesTokens = true) :
    ∀ s ∈ ss, ∃ k ro i, s = .leaf k ro i := by
  induction h with
  | token hi hs | word hi hs =>
    intro s hs
    exact ⟨_, _, _, List.mem_singleton.mp hs⟩
  | left h ih =>
    simp only [makesTokens, Bool.and_eq_true] at hr
    exact ih hr.1
  | right h ih =>
    simp only [makesTokens, Bool.and_eq_true] at hr
    exact ih hr.2
  | _ => cases hr

/-- The induction is on the way in which the shapes are made. -/
theorem ordinary_of_yields (h : r.Yields good ss) (hr : r.isOrdinary = true) :
    ∀ s ∈ ss, s.IsOrdinary := by
  induction h with
  | done | lineEnd | here | openLiterals | absent | none => exact fun s hs => nomatch hs
  | token hi hs | word hi hs =>
    intro s hs
    rw [List.mem_singleton.mp hs]
    exact Shape.isOrdinary_leaf (bne_iff_ne.mp hr)
  | terminator hi =>
    intro s hs
    rw [List.mem_singleton.mp hs]
    exact Shape.isOrdinary_leaf (by decide)
  | seq hr' hs ihr ihs =>
    simp only [isOrdinary, Bool.and_eq_true] at hr
    exact fun s hs => (List.mem_append.mp hs).elim (ihr hr.1 s) (ihs hr.2 s)
  | left h ih | first h ih =>
    simp only [isOrdinary, Bool.and_eq_true] at hr
    exact ih hr.1
  | right h ih =>
    simp only [isOrdinary, Bool.and_eq_true] at hr
    exact ih hr.2
  | more hr' hm ihr ihm =>
    exact fun s hs => (List.mem_append.mp hs).elim (ihr hr s) (ihm hr s)
  | node h ih =>
    simp only [isOrdinary, Bool.and_eq_true, Bool.not_eq_true'] at hr
    intro s hs
    rw [List.mem_singleton.mp hs]
    exact Shape.isOrdinary_node hr.1 rfl (ih hr.2)
  | role h ih =>
    simp only [isOrdinary, Bool.and_eq_true, Bool.or_eq_true, Bool.not_eq_true'] at hr
    intro s hs
    obtain ⟨t, ht, rfl⟩ := List.mem_map.mp hs
    exact (ih hr.2 t ht).withRole (hr.1.imp id fun htokens => leaf_of_yields h htokens t ht)
  | goesOn hl hn ihl ihn =>
    have hleft := ihl hr
    simp only [isOrdinary, Bool.and_eq_true] at hr
    intro s hs
    rw [List.mem_singleton.mp hs]
    exact (ihn hr.2 _ List.mem_cons_self).takeLeft hleft
  | @alone alone _ _ _ h ih =>
    simp only [isOrdinary, Bool.and_eq_true, Bool.not_eq_true'] at hr
    cases alone with
    | none => exact ih hr.1.2
    | some k =>
      intro s hs
      rw [List.mem_singleton.mp hs]
      exact Shape.isOrdinary_node hr.1.1 rfl (ih hr.1.2)
  | once hl hn ihl ihn =>
    simp only [isOrdinary, Bool.and_eq_true] at hr
    intro s hs
    rw [List.mem_singleton.mp hs]
    exact (ihn hr.2 _ List.mem_cons_self).takeLeft (ihl hr.1.2)
  | lines h ih | literals h ih => exact ih hr
  | @part p _ h ih => exact ih (isOrdinary_grammar p)

end Rule

/-- Each part of a source is made by the rule for it, or is a comment. -/
theorem parts_of_parse {source : List Char} {tree : Tree} (h : parse source = .ok tree) :
    ∃ ts, tree = .node .sourceFile none ts ∧ ∀ t ∈ ts,
      (∃ ss, sourceRule.Yields (fun _ => True) ss ∧ ∃ s ∈ ss, t = s.tree) ∨
        ∃ c, t = Shape.commentTree c := by
  obtain ⟨ss, last, rfl, -, hss⟩ :=
    @yields_of_parse (fun _ => True) (fun _ hi => hi) source (fun _ _ => trivial) tree h
  refine ⟨_, rfl, fun t ht => ?_⟩
  rcases List.mem_append.mp ht with ht | ht
  · refine (Shape.of_mem_trees ht).imp_left fun ⟨s, hs, heq⟩ => ?_
    rcases hss with hss | rfl
    · exact ⟨ss, hss, s, hs, heq⟩
    · cases hs
  · obtain ⟨c, -, rfl⟩ := List.mem_map.mp ht
    exact .inr ⟨c, rfl⟩

/-- The tree of a source is ordinary, and it is no comment. -/
theorem isOrdinary_of_parse {source : List Char} {tree : Tree} (h : parse source = .ok tree) :
    tree.isOrdinary = true ∧ tree.kind = .sourceFile := by
  obtain ⟨ts, rfl, hparts⟩ := parts_of_parse h
  refine ⟨Tree.isOrdinary_node.mpr ⟨rfl, rfl, fun t ht => ?_⟩, rfl⟩
  rcases hparts t ht with ⟨ss, hss, s, hs, rfl⟩ | ⟨c, rfl⟩
  · exact (Rule.ordinary_of_yields hss Rule.isOrdinary_sourceRule s hs).1
  · rfl

end Graft.Go
