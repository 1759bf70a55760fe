-- Sources without their comments. Whatever is read off a tree passes over
-- comments: a child is found by its part or its kind, and a list of arguments
-- or parameters is counted without comments. What comments can change is the
-- text of an expression that is kept as it is written, and the lines.
import Graft.Proofs.OrdinaryTrees
import Mathlib.Data.List.Basic

namespace Graft

open Go

namespace Go

/-! ## Taking the comments out -/

namespace Tree

mutual
/-- The tree without the comments below its root. -/
def uncommented : Tree → Tree
  | leaf k r t => leaf k r t
  | node k r ts => node k r (uncommentedAll ts)

def uncommentedAll : List Tree → List Tree
  | [] => []
  | t :: ts => if t.isComment then uncommentedAll ts else uncommented t :: uncommentedAll ts
end

variable {α : Type} {t : Tree} {ts : List Tree}

@[simp] theorem kind_uncommented (t : Tree) : t.uncommented.kind = t.kind := by cases t <;> rfl

@[simp] theorem role_uncommented (t : Tree) : t.uncommented.role = t.role := by cases t <;> rfl

@[simp] theorem isComment_uncommented (t : Tree) : t.uncommented.isComment = t.isComment := by
  unfold isComment
  rw [kind_uncommented]

@[simp] theorem isNamed_uncommented (t : Tree) : t.uncommented.isNamed = t.isNamed := by
  unfold isNamed
  rw [kind_uncommented]

theorem children_uncommented (t : Tree) : t.uncommented.children = uncommentedAll t.children := by
  cases t <;> rfl

theorem uncommentedAll_eq (ts : List Tree) :
    uncommentedAll ts = (ts.filter fun t => !t.isComment).map uncommented := by
  induction ts with
  | nil => rfl
  | cons t ts ih =>
    rw [uncommentedAll, List.filter_cons]
    cases t.isComment with
    | true => simpa using ih
    | false => simpa using ih

/-- What is looked for among the children is no comment, and is found without them. -/
theorem find?_uncommentedAll {p : Tree → Bool} (hp : ∀ t, p t.uncommented = p t)
    (hc : ∀ t ∈ ts, t.isComment = true → p t = false) :
    (uncommentedAll ts).find? p = (ts.find? p).map uncommented := by
  induction ts with
  | nil => rfl
  | cons t ts ih =>
    have hmore := ih fun u hu => hc u (List.mem_cons_of_mem t hu)
    rw [uncommentedAll]
    split
    · rename_i hcomment
      rw [List.find?_cons_of_neg (by simp [hc t List.mem_cons_self hcomment]), hmore]
    · rw [List.find?_cons, List.find?_cons, hp, hmore]
      cases p t <;> rfl

theorem filterMap_uncommentedAll {g : Tree → Option α}
    (hg : ∀ t ∈ ts, g t.uncommented = g t) (hc : ∀ t ∈ ts, t.isComment = true → g t = none) :
    (uncommentedAll ts).filterMap g = ts.filterMap g := by
  rw [uncommentedAll_eq, List.filterMap_map, List.filterMap_filter]
  apply List.filterMap_congr
  intro t ht
  cases hcomment : t.isComment with
  | true => simp [hc t ht hcomment]
  | false => simp [hg t ht]

theorem find?_kind_uncommented {k : Kind} (hk : k ≠ .comment) (ts : List Tree) :
    (uncommentedAll ts).find? (fun t => t.kind == k) =
      (ts.find? fun t => t.kind == k).map uncommented := by
  apply find?_uncommentedAll
  · simp
  · intro t _ hcomment
    rw [eq_of_beq hcomment]
    exact beq_false_of_ne (Ne.symm hk)

theorem child?_uncommented (h : t.isOrdinary = true) (ro : Role) :
    t.uncommented.child? ro = (t.child? ro).map uncommented := by
  unfold child?
  rw [children_uncommented]
  apply find?_uncommentedAll
  · simp
  · intro c hc hcomment
    rw [role_of_isComment (isOrdinary_of_mem_children h hc) hcomment]
    rfl

/-- A single token has no comments in it. -/
theorem uncommented_of_kind (h : t.isOrdinary = true) (hk : t.kind.isToken = true) :
    t.uncommented = t := by
  cases t with
  | leaf k r tok => rfl
  | node k r ts =>
    have hkind : k.isToken = true := hk
    rw [(isOrdinary_node.mp h).1] at hkind
    cases hkind

theorem uncommented_of_role {ro : Role} (h : t.isOrdinary = true) (hr : t.role = some ro)
    (ho : ro.isToken = true) : t.uncommented = t := by
  cases t with
  | leaf k r tok => rfl
  | node k r ts =>
    have hrole : r = some ro := hr
    have hnot := (isOrdinary_node.mp h).2.1
    rw [hrole] at hnot
    cases ho.symm.trans hnot

theorem mem_of_child? {ro : Role} {c : Tree} (h : t.child? ro = some c) :
    c ∈ t.children ∧ c.role = some ro := by
  have hrole := List.find?_some h
  exact ⟨List.mem_of_find?_eq_some h, eq_of_beq hrole⟩

/-- A child that is a single token is found as it is. -/
theorem child?_uncommented_of_isToken (ro : Role) (h : t.isOrdinary = true)
    (ho : ro.isToken = true) : t.uncommented.child? ro = t.child? ro := by
  rw [child?_uncommented h]
  cases hchild : t.child? ro with
  | none => rfl
  | some c =>
    obtain ⟨hmem, hrole⟩ := mem_of_child? hchild
    rw [Option.map_some, uncommented_of_role (isOrdinary_of_mem_children h hmem) hrole ho]

/-- What is neither punctuation nor a comment stays. -/
theorem items_uncommented (t : Tree) : t.uncommented.items = t.items.map uncommented := by
  unfold items
  rw [children_uncommented, uncommentedAll_eq, List.filter_map, List.filter_filter]
  congr 1
  apply List.filter_congr
  intro c _
  simp only [Function.comp_apply, isNamed_uncommented, isComment_uncommented]
  cases c.isComment <;> simp

mutual
theorem preorder_uncommented : ∀ {t : Tree}, t.isOrdinary = true → t.isComment = false →
    t.uncommented.preorder = (t.preorder.filter fun u => !u.isComment).map uncommented
  | leaf k r tok, _, hc => by simp [uncommented, preorder, hc]
  | node k r ts, h, hc => by
    have hts := isOrdinaryAll_iff.mpr (isOrdinary_node.mp h).2.2
    rw [preorder, List.filter_cons_of_pos (by simp [hc]), List.map_cons,
      ← preorderAll_uncommented hts]
    rfl

theorem preorderAll_uncommented : ∀ {ts : List Tree}, isOrdinaryAll ts = true →
    preorderAll (uncommentedAll ts) =
      ((preorderAll ts).filter fun u => !u.isComment).map uncommented
  | [], _ => rfl
  | t :: ts, h => by
    rw [isOrdinaryAll, Bool.and_eq_true] at h
    have hmore := preorderAll_uncommented h.2
    rw [uncommentedAll, preorderAll, List.filter_append, List.map_append, ← hmore]
    split
    · rename_i hcomment
      obtain ⟨c, rfl⟩ := eq_commentTree h.1 hcomment
      rfl
    · rename_i hcomment
      rw [preorderAll, preorder_uncommented h.1 (Bool.eq_false_iff.mpr hcomment)]
end

/-- Exactly the comments are gone. -/
theorem walk_uncommented (h : t.isOrdinary = true) (hc : t.isComment = false) :
    t.uncommented.walk = (t.walk.filter fun u => !u.isComment).map uncommented := by
  rw [walk_eq, walk_eq, preorder_uncommented h hc]

/-- What every node gives without its comments, and a comment does not give, the walk gives. -/
theorem filterMap_walk_uncommented {g : Tree → Option α} (hg : PassesComments g)
    (h : t.isOrdinary = true) (hsame : ∀ u : Tree, u.isOrdinary = true → g u.uncommented = g u) :
    t.uncommented.walk.filterMap g = t.walk.filterMap g := by
  cases hc : t.isComment with
  | true =>
    obtain ⟨c, rfl⟩ := eq_commentTree h hc
    rfl
  | false =>
    rw [walk_uncommented h hc, List.filterMap_map, List.filterMap_filter, walk_eq]
    apply List.filterMap_congr
    intro u hu
    have hordinary := of_mem_preorder (fun ht _ => isOrdinary_of_mem_children ht) h u hu
    cases hcomment : u.isComment with
    | true =>
      obtain ⟨c, rfl⟩ := eq_commentTree hordinary hcomment
      simp [hg c]
    | false => simp [hsame u hordinary]

/-! ## The package, the imports and the functions -/

theorem packageName_uncommented (h : t.isOrdinary = true) :
    t.uncommented.packageName = t.packageName := by
  unfold packageName
  rw [children_uncommented, find?_kind_uncommented (by decide)]
  cases hclause : t.children.find? fun u => u.kind == .packageClause with
  | none => rfl
  | some clause =>
    have hordinary := isOrdinary_of_mem_children h (List.mem_of_find?_eq_some hclause)
    dsimp only [Option.map_some, Option.bind_eq_bind, Option.bind_some]
    rw [children_uncommented, find?_kind_uncommented (by decide)]
    cases hname : clause.children.find? fun u => u.kind == .packageIdentifier with
    | none => rfl
    | some name =>
      have hfound := List.find?_some hname
      have hkind : name.kind = .packageIdentifier := eq_of_beq hfound
      rw [Option.map_some, uncommented_of_kind
        (isOrdinary_of_mem_children hordinary (List.mem_of_find?_eq_some hname))
        (by rw [hkind]; rfl)]

theorem import?_uncommented (h : t.isOrdinary = true) : import? t.uncommented = import? t := by
  unfold import?
  rw [kind_uncommented, child?_uncommented_of_isToken .path h rfl,
    child?_uncommented_of_isToken .name h rfl]

theorem imports_uncommented (h : t.isOrdinary = true) : t.uncommented.imports = t.imports :=
  filterMap_walk_uncommented passesComments_import? h fun _ hu => import?_uncommented hu

theorem plainFunction?_uncommented (h : t.isOrdinary = true) :
    plainFunction? t.uncommented = plainFunction? t := by
  unfold plainFunction?
  rw [kind_uncommented, child?_uncommented h .result, Option.isNone_map,
    child?_uncommented h .parameters, child?_uncommented_of_isToken .name h rfl]
  cases t.child? .parameters with
  | none => rfl
  | some parameters =>
    dsimp only [Option.map_some]
    rw [items_uncommented, List.isEmpty_map]

theorem exportedFunctions_uncommented (h : t.isOrdinary = true) :
    t.uncommented.exportedFunctions = t.exportedFunctions := by
  unfold exportedFunctions
  rw [children_uncommented]
  congr 1
  apply filterMap_uncommentedAll
  · exact fun c hc => plainFunction?_uncommented (isOrdinary_of_mem_children h hc)
  · intro c hc hcomment
    obtain ⟨tok, rfl⟩ := eq_commentTree (isOrdinary_of_mem_children h hc) hcomment
    rfl

end Tree

/-! ## Outlines -/

namespace Expr

mutual
/-- The expression without the text of what is kept as it is written. -/
def outline : Expr → Expr
  | ident name => ident name
  | selector base field => selector (outline base) field
  | call callee args => call (outline callee) (outlineAll args)
  | other kind _ => other kind ""

def outlineAll : List Expr → List Expr
  | [] => []
  | e :: es => outline e :: outlineAll es
end

theorem outlineAll_eq (es : List Expr) : outlineAll es = es.map outline := by
  induction es with
  | nil => rfl
  | cons e es ih => rw [outlineAll, ih, List.map_cons]

@[simp] theorem ident?_outline (e : Expr) : e.outline.ident? = e.ident? := by cases e <;> rfl

theorem selector?_outline (e : Expr) :
    e.outline.selector? = e.selector?.map fun p => (p.1.outline, p.2) := by
  cases e <;> rfl

/-- Two results that are the same in outline are there together. -/
theorem cases_of_outline {o o' : Option Expr} (h : o.map outline = o'.map outline) :
    (o = none ∧ o' = none) ∨ ∃ e e', o = some e ∧ o' = some e' ∧ e.outline = e'.outline := by
  cases o with
  | none => exact .inl ⟨rfl, Option.map_eq_none_iff.mp h.symm⟩
  | some e =>
    obtain ⟨e', hold, heq⟩ := Option.map_eq_some_iff.mp h.symm
    exact .inr ⟨e, e', rfl, hold, heq.symm⟩

mutual
/-- Without comments, an expression is the same in outline. -/
theorem outline_ofTree : ∀ {t : Tree}, t.isOrdinary = true →
    (ofTree t.uncommented).outline = (ofTree t).outline
  | .leaf _ _ _, _ => rfl
  | .node k r ts, h => by
    have hts := Tree.isOrdinaryAll_iff.mpr (Tree.isOrdinary_node.mp h).2.2
    have hfield : (Tree.node k r (Tree.uncommentedAll ts)).child? .field =
        (Tree.node k r ts).child? .field := Tree.child?_uncommented_of_isToken .field h rfl
    have hbase := outline_ofRole .operand hts
    have hcallee := outline_ofRole .function hts
    have hargs := outline_argumentsAmong hts
    rw [Tree.uncommented, ofTree, ofTree]
    split
    · rw [hfield]
      rcases cases_of_outline hbase with ⟨hnew, hold⟩ | ⟨base, base', hnew, hold, heq⟩
      · rw [hnew, hold]
        rfl
      · rw [hnew, hold]
        cases (Tree.node k r ts).child? .field with
        | none => rfl
        | some field => exact congrArg (selector · field.text) heq
    · split
      · rcases cases_of_outline hcallee with ⟨hnew, hold⟩ | ⟨callee, callee', hnew, hold, heq⟩
        · rw [hnew, hold]
          rfl
        · rw [hnew, hold]
          dsimp only
          rw [outline, outline, outlineAll_eq, outlineAll_eq, hargs, heq]
      · rfl

theorem outline_ofRole (ro : Role) : ∀ {ts : List Tree}, Tree.isOrdinaryAll ts = true →
    (ofRole ro (Tree.uncommentedAll ts)).map outline = (ofRole ro ts).map outline
  | [], _ => rfl
  | t :: ts, h => by
    rw [Tree.isOrdinaryAll, Bool.and_eq_true] at h
    have hmore := outline_ofRole ro h.2
    rw [Tree.uncommentedAll, ofRole]
    split
    · rename_i hcomment
      rw [Tree.role_of_isComment h.1 hcomment, hmore]
      rfl
    · rw [ofRole, Tree.role_uncommented]
      split
      · exact congrArg some (outline_ofTree h.1)
      · exact hmore

theorem outline_argumentsAmong : ∀ {ts : List Tree}, Tree.isOrdinaryAll ts = true →
    (argumentsAmong (Tree.uncommentedAll ts)).map outline = (argumentsAmong ts).map outline
  | [], _ => rfl
  | .leaf k r tok :: ts, h => by
    rw [Tree.isOrdinaryAll, Bool.and_eq_true] at h
    have hmore := outline_argumentsAmong h.2
    rw [Tree.uncommentedAll, argumentsAmong]
    split
    · rename_i hcomment
      have hrole : r = none := Tree.role_of_isComment h.1 hcomment
      rw [hrole, hmore]
      rfl
    · rw [Tree.uncommented, argumentsAmong]
      split
      · rfl
      · exact hmore
  | .node k r us :: ts, h => by
    rw [Tree.isOrdinaryAll, Bool.and_eq_true] at h
    have hmore := outline_argumentsAmong h.2
    have hargs := outline_argumentsOf
      (Tree.isOrdinaryAll_iff.mpr (Tree.isOrdinary_node.mp h.1).2.2)
    rw [Tree.uncommentedAll, argumentsAmong]
    split
    · rename_i hcomment
      have hrole : r = none := Tree.role_of_isComment h.1 hcomment
      rw [hrole, hmore]
      rfl
    · rw [Tree.uncommented, argumentsAmong]
      split
      · exact hargs
      · exact hmore

theorem outline_argumentsOf : ∀ {ts : List Tree}, Tree.isOrdinaryAll ts = true →
    (argumentsOf (Tree.uncommentedAll ts)).map outline = (argumentsOf ts).map outline
  | [], _ => rfl
  | t :: ts, h => by
    rw [Tree.isOrdinaryAll, Bool.and_eq_true] at h
    have hmore := outline_argumentsOf h.2
    rw [Tree.uncommentedAll, argumentsOf]
    split
    · rename_i hcomment
      rw [hmore, if_neg (by simp [hcomment])]
    · rw [argumentsOf, Tree.isNamed_uncommented, Tree.isComment_uncommented]
      split
      · rw [List.map_cons, List.map_cons, outline_ofTree h.1, hmore]
      · exact hmore
end

end Expr

/-- The call in outline, wherever it stands. -/
def Call.outline (c : Call) : Call := ⟨c.callee.outline, c.args.map Expr.outline, 0⟩

theorem Tree.call?_uncommented {t : Tree} (h : t.isOrdinary = true) :
    (call? t.uncommented).map Call.outline = (call? t).map Call.outline := by
  unfold call?
  rw [kind_uncommented]
  split
  · cases t with
    | leaf k r tok => rfl
    | node k r ts =>
      have hts := isOrdinaryAll_iff.mpr (isOrdinary_node.mp h).2.2
      have hcallee := Expr.outline_ofRole .function hts
      have hargs := Expr.outline_argumentsAmong hts
      dsimp only [uncommented]
      rcases Expr.cases_of_outline hcallee with ⟨hnew, hold⟩ | ⟨callee, callee', hnew, hold, heq⟩
      · rw [hnew, hold]
        rfl
      · rw [hnew, hold]
        simp only [Option.map_some, Call.outline, hargs, heq]
  · rfl

/-- The calls are the same in outline, and in the same order. -/
theorem Tree.calls_uncommented {t : Tree} (h : t.isOrdinary = true) :
    t.uncommented.calls.map Call.outline = t.calls.map Call.outline := by
  unfold calls
  rw [List.map_filterMap, List.map_filterMap]
  exact filterMap_walk_uncommented (fun _ => rfl) h fun _ hu => call?_uncommented hu

end Go

/-! ## What is asked of a call -/

namespace Resolve

variable (imports : List Import) (importPath : String)

theorem answers_outline (c : Call) :
    Scan.answers (startsFramework importPath) imports c.outline =
      Scan.answers (startsFramework importPath) imports c := by
  have hselector := Expr.selector?_outline c.callee
  unfold Scan.answers Call.outline
  rw [hselector]
  cases c.callee.selector? with
  | none => rfl
  | some p => simp [startsFramework]

theorem ofName?_outline (e : Expr) :
    Reference.ofName? imports e.outline = Reference.ofName? imports e := by
  cases e with
  | selector base field => cases base <;> rfl
  | _ => rfl

theorem ofExpr?_outline (e : Expr) :
    Reference.ofExpr? imports e.outline = Reference.ofExpr? imports e := by
  cases e with
  | call callee args =>
    cases args with
    | nil =>
      change (Reference.ofName? imports callee.outline).map _ = _
      rw [ofName?_outline]
      rfl
    | cons arg args => rfl
  | ident name => rfl
  | selector base field => exact ofName?_outline imports (.selector base field)
  | other kind text => rfl

/-- The reference that the first argument of a call makes, if it makes one. -/
def argumentReference? (c : Call) : Option Reference :=
  c.args.head?.bind (Reference.ofExpr? imports)

theorem argumentReference?_outline (c : Call) :
    argumentReference? imports c.outline = argumentReference? imports c := by
  unfold argumentReference? Call.outline
  cases c.args with
  | nil => rfl
  | cons arg args => exact ofExpr?_outline imports arg

/-- The references of the start calls of a file, in their order. -/
def startReferences (s : Source) : List (Option Reference) :=
  (Scan.sitesIn (startsFramework importPath) s).map fun site => (ofSite site).toOption

theorem startReferences_eq (s : Source) :
    startReferences importPath s =
      (s.calls.filter (Scan.answers (startsFramework importPath) s.imports)).map
        (argumentReference? s.imports) := by
  unfold startReferences Scan.sitesIn
  rw [List.map_map]
  apply List.map_congr_left
  intro c _
  unfold argumentReference?
  simp only [Function.comp_apply, ofSite]
  cases c.args with
  | nil => rfl
  | cons arg args =>
    dsimp only [List.head?_cons, Option.bind_some]
    cases Reference.ofExpr? s.imports arg <;> rfl

/-- Only the outlines of the calls count. -/
theorem startReferences_of_outlines {s u : Source} (hi : s.imports = u.imports)
    (hc : s.calls.map Call.outline = u.calls.map Call.outline) :
    startReferences importPath s = startReferences importPath u := by
  have houtlines : ∀ z : Source, startReferences importPath z =
      ((z.calls.map Call.outline).filter
        (Scan.answers (startsFramework importPath) z.imports)).map
          (argumentReference? z.imports) := by
    intro z
    rw [startReferences_eq, List.filter_map, List.map_map]
    congr 1
    · exact funext fun c => (argumentReference?_outline z.imports c).symm
    · congr 1
      exact funext fun c => (answers_outline z.imports importPath c).symm
  rw [houtlines, houtlines, hi, hc]

end Resolve

/-- The tree of a source is ordinary: its comments play no part, and its names are single tokens.
If all comments are taken out of an ordinary tree, and nothing else, it states the same package,
imports and functions. It states the same calls in outline: up to their lines, and to the text of
expressions that are kept as they are written. The same of these calls start the framework, and
their arguments make the same references. -/
theorem comments_change_nothing_that_is_read :
    (∀ source tree, parse source = .ok tree →
      tree.isOrdinary = true ∧ tree.kind = .sourceFile) ∧
    ∀ tree : Tree, tree.isOrdinary = true →
      (tree.kind ≠ .comment → tree.uncommented.walk =
        (tree.walk.filter fun t => !t.isComment).map Tree.uncommented) ∧
      tree.uncommented.packageName = tree.packageName ∧
      tree.uncommented.imports = tree.imports ∧
      tree.uncommented.exportedFunctions = tree.exportedFunctions ∧
      tree.uncommented.calls.map Call.outline = tree.calls.map Call.outline ∧
      ∀ importPath : String,
        tree.uncommented.calls.map
            (Scan.answers (Resolve.startsFramework importPath) tree.uncommented.imports) =
          tree.calls.map (Scan.answers (Resolve.startsFramework importPath) tree.imports) ∧
        ∀ path : String, Resolve.startReferences importPath ⟨path, tree.uncommented⟩ =
          Resolve.startReferences importPath ⟨path, tree⟩ := by
  constructor
  · exact fun source tree hp => isOrdinary_of_parse hp
  · intro tree h
    have himports := Tree.imports_uncommented h
    have hcalls := Tree.calls_uncommented h
    refine ⟨fun hk => Tree.walk_uncommented h (beq_false_of_ne hk),
      Tree.packageName_uncommented h, himports, Tree.exportedFunctions_uncommented h, hcalls, ?_⟩
    intro importPath
    constructor
    · have hanswers : ∀ calls : List Call,
          calls.map (Scan.answers (Resolve.startsFramework importPath) tree.imports) =
            (calls.map Call.outline).map
              (Scan.answers (Resolve.startsFramework importPath) tree.imports) := by
        intro calls
        rw [List.map_map]
        exact List.map_congr_left fun c _ =>
          (Resolve.answers_outline tree.imports importPath c).symm
      rw [himports, hanswers, hanswers tree.calls, hcalls]
    · exact fun path => Resolve.startReferences_of_outlines importPath himports hcalls

namespace Sample

/-- A program with comments in a clause, an import, a list of parameters and a call. -/
def commentedText : String :=
  "package /* p */ main\n\nimport r /* i */ \"shop/route\"\n\nfunc Users(/* f */) \x7b\x7d\n\n" ++
    "func main() \x7b\n\tgoyave.Start(/* c */ r.Register)\n\x7d\n"

/-- What is read off a file, and how many comments it has. -/
structure Summary where
  comments : Nat
  package : Option String
  imports : List Import
  functions : List String
  starts : List (Option Reference)
  deriving DecidableEq

def summaryOf (tree : Tree) : Summary :=
  let imports := tree.preorder.filterMap Tree.import?
  let calls := tree.preorder.filterMap Tree.call?
  { comments := (tree.preorder.filter Tree.isComment).length
    package := tree.packageName
    imports
    functions := tree.exportedFunctions
    starts := (calls.filter
      (Scan.answers (Resolve.startsFramework "goyave.dev/goyave/v5") imports)).map
        (Resolve.argumentReference? imports) }

theorem the_commented_shop_reads_as_it_does_without_comments :
    ∃ tree, parse commentedText.toList = .ok tree ∧
      (tree.walk.filter Tree.isComment).length = 4 ∧
      tree.uncommented.walk.any Tree.isComment = false ∧
      tree.uncommented.packageName = some "main" ∧
      tree.uncommented.imports = [⟨some "r", "shop/route"⟩] ∧
      tree.uncommented.exportedFunctions = ["Users"] ∧
      Resolve.startReferences "goyave.dev/goyave/v5" ⟨"/shop/main.go", tree.uncommented⟩ =
        [some ⟨"r.Register", some ⟨some "r", "shop/route"⟩⟩] := by
  have hfound : (parse commentedText.toList).toOption.map summaryOf =
      some { comments := 4
             package := some "main"
             imports := [⟨some "r", "shop/route"⟩]
             functions := ["Users"]
             starts := [some ⟨"r.Register", some ⟨some "r", "shop/route"⟩⟩] } := by
    decide +kernel
  obtain ⟨tree, hparse, hread⟩ := exists_ok_of_toOption_map hfound
  obtain ⟨hcomments, hpackage, himports, hfunctions, hreferences⟩ := Summary.mk.inj hread
  obtain ⟨hordinary, hkind⟩ := comments_change_nothing_that_is_read.1 _ _ hparse
  obtain ⟨hwalk, hpackage', himports', hfunctions', -, hstarts⟩ :=
    comments_change_nothing_that_is_read.2 tree hordinary
  refine ⟨tree, hparse, ?_, ?_, hpackage'.trans hpackage, ?_, hfunctions'.trans hfunctions, ?_⟩
  · rw [Tree.walk_eq]
    exact hcomments
  · rw [hwalk (by rw [hkind]; decide), List.any_map, List.any_eq_false]
    intro t ht
    have hcomment := (List.mem_filter.mp ht).2
    simpa using hcomment
  · rw [himports', Tree.imports, Tree.walk_eq]
    exact himports
  · rw [(hstarts _).2, Resolve.startReferences_eq]
    unfold Source.calls Source.imports Tree.calls Tree.imports
    rw [Tree.walk_eq]
    exact hreferences

end Sample

end Graft
