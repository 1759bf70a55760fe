-- The parts of a source that hold names from outside: import lists, bodies of
-- functions, and the calls in them. Whatever the names are, these parts are
-- read as the imports and the calls that they are written for.
import Graft.Proofs.SourceLines

namespace Graft.Go

open Rule

section Steps

variable {n : Nat} {mode : Mode} {i : Item} {items : List Item}

theorem reads_token_not {sort : Class} {kind : Kind} (h : i.token.sort ≠ sort) :
    Reads 1 mode (.token sort kind) (i :: items) none :=
  reads_succ fun _ _ => by simp [Rule.read, readItem, h]

theorem reads_word_not {avoided : List Keyword} {kind : Kind}
    (h : canName avoided i.token.sort = false) :
    Reads 1 mode (.word avoided kind) (i :: items) none :=
  reads_succ fun _ _ => by simp [Rule.read, readItem, h]

theorem reads_here (h : i.opensLine = false) :
    Reads 1 mode .here (i :: items) (some ([], i :: items)) :=
  reads_succ fun _ _ => by simp [Rule.read, h]

theorem Reads.role_none {r : Rule} (hr : Reads n mode r items none) (ro : Role) :
    Reads (n + 1) mode (.role ro r) items none :=
  reads_succ fun fuel hf => by simp only [Rule.read, hr fuel hf, Option.map_none]

theorem reads_string (h : i.token.sort = .string) :
    Reads 2 mode stringLiteral (i :: items)
      (some ([.leaf .interpretedStringLiteral none i], items)) := (reads_token h).alt_left

end Steps

/-! ## Imports -/

/-- A text that can stand between quotes as the path of an import. -/
def IsImportPath (path : String) : Prop :=
  ∀ c ∈ path.toList, isPlain c = true ∧ Tree.isQuote c = false

-- Characters can also be decided by going through all of them, so the instance is named.
instance (path : String) : Decidable (IsImportPath path) :=
  List.decidableBAll (fun c => isPlain c = true ∧ Tree.isQuote c = false) path.toList

theorem IsImportPath.append {path more : String} (h : IsImportPath path)
    (hm : IsImportPath more) : IsImportPath (path ++ more) := by
  intro c hc
  rw [String.toList_append] at hc
  exact (List.mem_append.mp hc).elim (h c) (hm c)

theorem trimEnds_quoted {path : List Char} (h : ∀ c ∈ path, Tree.isQuote c = false) :
    Text.trimEnds Tree.isQuote ('"' :: path ++ ['"']) = path := by
  have hfront : ∀ cs : List Char, (∀ c ∈ cs, Tree.isQuote c = false) →
      cs.dropWhile Tree.isQuote = cs := by
    intro cs hcs
    cases cs with
    | nil => rfl
    | cons c cs => rw [List.dropWhile_cons_of_neg (by simp [hcs c])]
  have hquote : Tree.isQuote '"' = true := rfl
  unfold Text.trimEnds
  cases path with
  | nil => rfl
  | cons c cs =>
    rw [List.cons_append, List.dropWhile_cons_of_pos hquote, List.cons_append,
      List.dropWhile_cons_of_neg (by simp [h c]), ← List.cons_append, List.reverse_append,
      List.reverse_singleton, List.singleton_append, List.dropWhile_cons_of_pos hquote,
      hfront _ fun d hd => h d (List.mem_reverse.mp hd), List.reverse_reverse]

/-- The items are the import as it is written. -/
inductive IsSpec (i : Import) : List Item → Prop
  | named {name : String} {x y : Item} (hi : i.name = some name)
    (hx : canName [] x.token.sort = true) (hname : x.token.text = name.toList)
    (hy : y.token.sort = .string) (hpath : y.token.text = '"' :: i.path.toList ++ ['"']) :
    IsSpec i [x, y]
  | plain {y : Item} (hi : i.name = none) (hy : y.token.sort = .string)
    (hpath : y.token.text = '"' :: i.path.toList ++ ['"']) : IsSpec i [y]

theorem IsSpec.unlinedHead {i : Import} {xs : List Item} (h : IsSpec i xs) :
    IsSpec i (unlinedHead xs) := by
  cases h with
  | named hi hx hname hy hpath => exact .named hi hx hname hy hpath
  | plain hi hy hpath => exact .plain hi hy hpath

/-- The shapes over the name and the path of an import. -/
def nameShape (x : Item) : Shape := .leaf .packageIdentifier (some .name) x

def pathShape (y : Item) : Shape := .leaf .interpretedStringLiteral (some .path) y

theorem states_import {i : Import} {ss : List Shape} (hlacks : Shape.lackAll .importSpec ss = true)
    (hi : Tree.import? (.node .importSpec none (Shape.parts ss)) = some i) :
    States ⟨[i], []⟩ [.node .importSpec none ss] where
  imports := by
    rw [List.flatMap_singleton, Shape.found_node Tree.passesComments_import?, hi,
      (states_none hlacks).imports]
    rfl
  calls := List.nil_sublist _

theorem text_leaf (k : Kind) (r : Option Role) (t : Token) :
    (Tree.leaf k r t).text = String.ofList t.text := by
  simp [Tree.text, Tree.tokens, spell]

section Specs

variable {x y : Item} {name path : String}

/-- The import that is read off a specification. -/
theorem import?_of_children {ts : List Tree} {name? : Option Tree}
    (hname : (Tree.node .importSpec none ts).child? .name = name?)
    (hpath : (Tree.node .importSpec none ts).child? .path = some (pathShape y).tree)
    (hy : y.token.text = '"' :: path.toList ++ ['"']) (hp : IsImportPath path) :
    Tree.import? (.node .importSpec none ts) = some ⟨name?.map Tree.text, path⟩ := by
  have hkind : (Tree.node .importSpec none ts).kind = .importSpec := rfl
  have htext : (pathShape y).tree.text = String.ofList ('"' :: path.toList ++ ['"']) := by
    rw [← hy]
    exact text_leaf _ _ _
  unfold Tree.import?
  rw [if_pos hkind, hname, hpath, Option.map_some, htext, String.toList_ofList,
    trimEnds_quoted fun c hc => (hp c hc).2, String.ofList_toList]

theorem import?_named (hx : x.token.text = name.toList)
    (hy : y.token.text = '"' :: path.toList ++ ['"']) (hp : IsImportPath path) :
    Tree.import? (.node .importSpec none (Shape.parts [nameShape x, pathShape y])) =
      some ⟨some name, path⟩ := by
  have hpath : (Tree.node .importSpec none (Shape.parts [nameShape x, pathShape y])).child? .path =
      some (pathShape y).tree := by
    change (_ :: (y.comments.map Shape.commentTree ++ _)).find? _ = _
    rw [List.find?_cons_of_neg Bool.false_ne_true, Shape.find?_comments _ _ fun _ => rfl]
    rfl
  have hname : (Tree.node .importSpec none (Shape.parts [nameShape x, pathShape y])).child? .name =
      some (nameShape x).tree := rfl
  have htext : (nameShape x).tree.text = name := by
    rw [← String.ofList_toList (s := name), ← hx]
    exact text_leaf _ _ _
  rw [import?_of_children hname hpath hy hp, Option.map_some, htext]

theorem import?_plain (hy : y.token.text = '"' :: path.toList ++ ['"']) (hp : IsImportPath path) :
    Tree.import? (.node .importSpec none (Shape.parts [pathShape y])) = some ⟨none, path⟩ := by
  have hname : (Tree.node .importSpec none (Shape.parts [pathShape y])).child? .name = none := rfl
  exact import?_of_children hname rfl hy hp

/-- The optional name of an import, as the rule for it reads. -/
def specName : Rule :=
  Rule.maybe (.role .name (.alt (.token (.mark .dot) .dot) (anyWord .packageIdentifier)))

theorem reads_specName {mode : Mode} (hx : canName [] x.token.sort = true) (rest : List Item) :
    Reads 4 mode specName (x :: rest) (some ([nameShape x], rest)) := by
  have hdot : x.token.sort ≠ .mark .dot := by
    intro heq
    rw [heq] at hx
    cases hx
  exact (((reads_token_not hdot).alt_right (reads_word hx rest)).role .name).alt_left

theorem reads_specName_not {mode : Mode} (hy : y.token.sort = .string) (rest : List Item) :
    Reads 4 mode specName (y :: rest) (some ([], y :: rest)) := by
  have hdot : y.token.sort ≠ .mark .dot := by
    rw [hy]
    decide
  have hword : canName [] y.token.sort = false := by
    rw [hy]
    rfl
  have hnoDot : Reads 1 mode (.token (.mark .dot) .dot) (y :: rest) none := reads_token_not hdot
  have hnoWord : Reads 1 mode (anyWord .packageIdentifier) (y :: rest) none := reads_word_not hword
  have hno := (hnoDot.alt_right hnoWord).role_none .name
  exact hno.alt_right (reads_done.mono (by omega))

/-- An import is read as it is written. -/
theorem reads_spec {i : Import} {xs : List Item} (mode : Mode) (h : IsSpec i xs)
    (hp : IsImportPath i.path) (rest : List Item) :
    ∃ ss, Reads 6 mode importSpec (xs ++ rest) (some (ss, rest)) ∧ States ⟨[i], []⟩ ss := by
  have hquoted : ∀ y : Item, y.token.sort = .string → Reads 4 mode (.role .path stringLiteral)
      (y :: rest) (some ([pathShape y], rest)) :=
    fun y hy => ((reads_string hy).role .path).mono (by omega)
  obtain ⟨name?, path⟩ := i
  cases h with
  | @named name x y hi hx hname hy hpath =>
    cases hi
    exact ⟨_, ((reads_specName hx _).seq (hquoted y hy)).node .importSpec,
      states_import rfl (import?_named hname hpath hp)⟩
  | @plain y hi hy hpath =>
    cases hi
    exact ⟨_, ((reads_specName_not hy _).seq (hquoted y hy)).node .importSpec,
      states_import rfl (import?_plain hpath hp)⟩

theorem isEntry_spec {i : Import} {xs : List Item} {mode : Mode} {n : Nat} (h : IsSpec i xs)
    (hp : IsImportPath i.path) (ho : Opens (fun _ => True) xs) (hn : 6 ≤ n) :
    IsEntry n mode importSpec (fun _ => True) xs ⟨[i], []⟩ where
  opens := ho
  reads := fun rest _ => by
    obtain ⟨ss, hread, hss⟩ := reads_spec mode h.unlinedHead hp rest
    exact ⟨ss, hread.mono hn, hss⟩

end Specs

/-! ## Import declarations -/

section Outlines

variable {n : Nat} {mode : Mode} {r : Rule} {i : Item} {outline : Outline}

theorem reads_refused (h : refuses n mode r [outline] = true) (hi : i.outline = outline)
    (items : List Item) : Reads n mode r (i :: items) none := by
  have hitem : refuses n mode r ([i].map Item.outline) = true := by
    rwa [List.map_singleton, hi]
  exact reads_of_refuses hitem items

theorem sort_of_outline {sort : Class} {line : Bool} (h : i.outline = (sort, line)) :
    i.token.sort = sort := congrArg Prod.fst h

theorem opensLine_of_outline {sort : Class} {line : Bool} (h : i.outline = (sort, line)) :
    i.opensLine = line := congrArg Prod.snd h

end Outlines

/-- What cannot be read where an import declaration stands. -/
theorem refuses_at_imports :
    (refuses 20 ⟨true, true⟩ packageClause [(.keyword .importWord, false)] = true ∧
      refuses 20 ⟨true, true⟩ functionDeclaration [(.keyword .importWord, false)] = true ∧
      refuses 20 ⟨true, true⟩ methodDeclaration [(.keyword .importWord, false)] = true) ∧
      refuses 20 ⟨true, true⟩ importSpec [(.mark .parenOpen, false)] = true ∧
      refuses 20 ⟨true, true⟩ importSpec [(.mark .parenClose, false)] = true := by
  decide

/-- Imports between brackets, each on a line of its own, are one declaration. -/
theorem isDeclaration_imports {next : Class} {word first close : Item} {x : List Item} {i : Import}
    {es : List (List Item × Gist)} (hword : word.outline = (.keyword .importWord, false))
    (hfirst : first.outline = (.mark .parenOpen, false)) (hx : IsSpec i x)
    (hi : IsImportPath i.path)
    (hes : ∀ e ∈ es, IsEntry 20 ⟨true, true⟩ importSpec (fun _ => True) e.1 e.2)
    (hclose : close.outline = (.mark .parenClose, true)) :
    IsDeclaration (50 + es.length) next
      (word :: first :: (x ++ (es.flatMap Prod.fst ++ [close])))
      (.all (⟨[i], []⟩ :: es.map Prod.snd)) := by
  obtain ⟨⟨hpackage, hfunction, hmethod⟩, hnoGroup, hnoClose⟩ := refuses_at_imports
  refine (isDeclaration_of_part (n := es.length + 48) (fun rest _ => ?_) (by omega)).mono (by omega)
  have hends : close.unlined.outline = (.mark .parenClose, false) := by
    rw [← sort_of_outline hclose]
    rfl
  have hopens : Opens (fun _ => True) (close :: rest) :=
    ⟨close, rest, rfl, opensLine_of_outline hclose, trivial⟩
  obtain ⟨ss, hread, hss⟩ := reads_spec ⟨true, true⟩ hx hi
    (es.flatMap Prod.fst ++ close :: rest)
  obtain ⟨ts, hmany, hts⟩ := readsMany_entries hes hopens (reads_refused hnoClose hends rest)
    (by omega)
  have hlist := reads_entries (n := 21 + es.length) (hread.mono (by omega)) hmany
    (opensLine_of_outline hclose) (by omega)
  obtain ⟨us, hgroup, hus⟩ := reads_between ⟨true, true⟩ (sort_of_outline hfirst)
    (sort_of_outline hends) hlist (hss.append hts)
    (by omega)
  have hspecs : Reads (es.length + 33) ⟨true, true⟩
      (.alt importSpec (node .importSpecList (lineGroup .parenOpen .parenClose importSpec))) _ _ :=
    (reads_refused hnoGroup hfirst _).mono (by omega) |>.alt_right
      ((hgroup.node .importSpecList).mono (by omega))
  have hdeclaration : Reads (es.length + 35) ⟨true, true⟩ importDeclaration _ _ :=
    ((reads_token (sort_of_outline hword)).mono (by omega)).seq hspecs |>.node .importDeclaration
  have htop : Reads (es.length + 48) ⟨true, true⟩ (.part .topDeclaration) _ _ :=
    (reads_refused hpackage hword _).mono (by omega) |>.alt_right
      ((reads_refused hfunction hword _).mono (by omega) |>.alt_right
        ((reads_refused hmethod hword _).mono (by omega) |>.alt_right
          (hdeclaration.alt_left.mono (by omega)))) |>.part
  have hitems : word :: first :: (x ++ (es.flatMap Prod.fst ++ [close])) ++ rest =
      word :: first :: (x ++ (es.flatMap Prod.fst ++ close :: rest)) := by simp
  rw [hitems]
  refine ⟨_, htop, ?_⟩
  rw [← Gist.all_pair]
  exact ((hus.node (by decide) none).after (states_none rfl)).node (by decide) none

/-! ## Functions -/

/-- The outline goes from the parameters of a function to the brace of its body; the parameters
go up to entry `k`. -/
def isSignature (n k : Nat) (gs : List Outline) : Bool :=
  decide (k < gs.length) && leaves n ⟨true, true⟩ (Rule.maybe typeParameters) gs 0 false &&
    leaves n ⟨true, true⟩ (.role .parameters (.part .parameters)) gs k false &&
    leaves n ⟨true, true⟩ (Rule.maybe (.seq .here (.role .result result))) (gs.drop k)
      (gs.length - 1 - k) false

/-- A block between braces, over a list of statements. -/
theorem reads_block (mode : Mode) {n : Nat} {brace close : Item} {body rest : List Item}
    {ss : List Shape} {g : Gist} (hbrace : brace.token.sort = .mark .braceOpen)
    (hclose : close.token.sort = .mark .braceClose)
    (hbody : Reads n ⟨true, true⟩ (.part .statementList) body (some (ss, close :: rest)))
    (hs : States g ss) (hn : 1 ≤ n) :
    ∃ ts, Reads (n + 8) mode (.part .block) (brace :: body) (some (ts, rest)) ∧ States g ts := by
  obtain ⟨ts, hread, hts⟩ := reads_between mode hbrace hclose hbody hs hn
  exact ⟨_, (hread.node .block).part, hts.node (by decide) none⟩

/-- What cannot be read where a function stands. -/
theorem refuses_at_functions :
    refuses 20 ⟨true, true⟩ packageClause [(.keyword .funcWord, false)] = true := by
  decide

/-- A function is one declaration if its body is a list of statements. -/
theorem isDeclaration_function {next : Class} {n k : Nat} {word name brace close : Item}
    {header body : List Item} {g : Gist}
    (hword : word.outline = (.keyword .funcWord, false)) (hname : canName [] name.token.sort = true)
    (hheader : isSignature 60 k ((header ++ [brace]).map Item.outline) = true)
    (hbrace : brace.outline = (.mark .braceOpen, false))
    (hbody : ∀ rest, ∃ ss, Reads n ⟨true, true⟩ (.part .statementList) (body ++ close :: rest)
      (some (ss, close.unlined :: rest)) ∧ States g ss)
    (hclose : close.token.sort = .mark .braceClose) (hn : 60 ≤ n) :
    IsDeclaration (n + 30) next (word :: name :: (header ++ brace :: (body ++ [close]))) g := by
  simp only [isSignature, Bool.and_eq_true, decide_eq_true_eq, ← List.map_drop] at hheader
  obtain ⟨⟨⟨hk, htypes⟩, hparameters⟩, hresult⟩ := hheader
  refine (isDeclaration_of_part (n := n + 28) (fun rest _ => ?_) (by omega))
  obtain ⟨ss, hstatements, hss⟩ := hbody rest
  obtain ⟨block, hblock, hgist⟩ := reads_block ⟨true, true⟩ (sort_of_outline hbrace)
    (show close.unlined.token.sort = _ from hclose) hstatements hss (by omega)
  obtain ⟨ts₁, hread₁, hts₁⟩ := reads_of_leaves htypes (body ++ close :: rest)
  obtain ⟨ts₂, hread₂, hts₂⟩ := reads_of_leaves hparameters (body ++ close :: rest)
  obtain ⟨ts₃, hread₃, hts₃⟩ := reads_of_leaves hresult (body ++ close :: rest)
  have hleft : ((header ++ [brace]).drop k).drop
      (((header ++ [brace]).map Item.outline).length - 1 - k) = [brace] := by
    simp only [List.length_map, List.length_append, List.length_singleton] at hk ⊢
    rw [List.drop_drop, show k + (header.length + 1 - 1 - k) = header.length by omega,
      List.drop_left]
  simp only [Bool.false_eq_true, if_false, hleft, List.drop_zero, List.append_assoc,
    List.singleton_append] at hread₁ hread₂ hread₃
  have hbraced : Reads (n + 10) ⟨true, true⟩ (Rule.maybe (.seq .here (.part .block))) _ _ :=
    (((reads_here (opensLine_of_outline hbrace)).mono (by omega)).seq hblock).alt_left
  have hsignature : Reads (n + 13) ⟨true, true⟩ signature _ _ :=
    (hread₂.mono (by omega)).seq
      ((hread₃.mono (by omega)).seq (hbraced.seq (reads_done.mono (by omega))))
  have hfunction : Reads (n + 18) ⟨true, true⟩ functionDeclaration _ _ :=
    (((reads_token (sort_of_outline hword)).mono (by omega)).seq
      ((((reads_word hname _).role .name).mono (by omega)).seq
        ((hread₁.mono (by omega)).seq (hsignature.seq (reads_done.mono (by omega)))))).node
      .functionDeclaration
  have htop : Reads (n + 28) ⟨true, true⟩ (.part .topDeclaration) _ _ :=
    (reads_refused refuses_at_functions hword _).mono (by omega) |>.alt_right
      (hfunction.alt_left.mono (by omega)) |>.part
  have hitems : word :: name :: (header ++ brace :: (body ++ [close])) ++ rest =
      word :: name :: (header ++ brace :: (body ++ close :: rest)) := by simp
  rw [hitems]
  refine ⟨_, htop, States.node ?_ (by decide) none⟩
  have hnothing : States .none [] := states_none rfl
  have hinner := (hgist.after hnothing).before hnothing
  exact (((hinner.after hts₃).after hts₂).before hnothing |>.after hts₁
    |>.after (states_none rfl)).after (states_none rfl)

/-! ## Statements -/

/-- What opens the line behind a statement in the bodies of the stubs. -/
def lineWords : List Class :=
  [.name, .keyword .deferWord, .keyword .returnWord, .mark .braceClose]

/-- The rule reads the outline before each of the classes, and there is no import in it. -/
def leavesNext (n : Nat) (r : Rule) (gs : List Outline) : Bool :=
  lineWords.all fun next =>
    leaves n ⟨true, true⟩ r (gs ++ [(next, true)]) gs.length false

/-- The outline is an entry that opens a line. -/
def isPlainEntry (n : Nat) (r : Rule) (gs : List Outline) : Bool :=
  (gs.head?.any fun g => g.2 && lineWords.contains g.1) && leavesNext n r (unlinedOutlines gs)

theorem outline_next {i : Item} (hline : i.opensLine = true) :
    i.outline = (i.token.sort, true) := by
  rw [Item.outline, hline]

theorem reads_of_leavesNext {n : Nat} {r : Rule} {xs : List Item} {gs : List Outline}
    (hx : xs.map Item.outline = gs) (h : leavesNext n r gs = true) {rest : List Item}
    (hrest : Opens (· ∈ lineWords) rest) :
    ∃ ss, Reads n ⟨true, true⟩ r (xs ++ rest) (some (ss, rest)) ∧ States .none ss := by
  subst hx
  obtain ⟨i, is, rfl, hline, hclass⟩ := hrest
  have hleaves := List.all_eq_true.mp h _ hclass
  rw [← outline_next hline, ← List.map_singleton, ← List.map_append, List.length_map] at hleaves
  obtain ⟨ss, hread, hss⟩ := reads_of_leaves hleaves is
  exact ⟨ss, by simpa using hread, hss⟩

theorem opens_of_outlines {xs : List Item}
    (h : ((xs.map Item.outline).head?.any fun g => g.2 && lineWords.contains g.1) = true) :
    Opens (· ∈ lineWords) xs := by
  cases xs with
  | nil => cases h
  | cons i is =>
    simp only [List.map_cons, List.head?_cons, Option.any_some, Bool.and_eq_true,
      List.contains_eq_mem, decide_eq_true_eq] at h
    exact ⟨i, is, rfl, h.1, h.2⟩

theorem isEntry_of_isPlainEntry {n : Nat} {r : Rule} {xs : List Item} {gs : List Outline}
    (hx : xs.map Item.outline = gs) (h : isPlainEntry n r gs = true) :
    IsEntry n ⟨true, true⟩ r (· ∈ lineWords) xs .none := by
  subst hx
  simp only [isPlainEntry, Bool.and_eq_true] at h
  exact ⟨opens_of_outlines h.1, fun rest hrest =>
    reads_of_leavesNext (outlines_unlinedHead xs) h.2 hrest⟩

theorem length_unlinedHead (xs : List Item) : (unlinedHead xs).length = xs.length := by
  cases xs <;> rfl

/-! ## Calls -/

def identShape (r : Option Role) (x : Item) : Shape := .leaf .identifier r x

def selectionShape (r : Option Role) (base : Shape) (dot field : Item) : Shape :=
  .node .selectorExpression r
    [base, .leaf .mark none dot, .leaf .fieldIdentifier (some .field) field]

def callShape (r : Option Role) (callee : Shape) (args : List Shape) : Shape :=
  .node .callExpression r [callee, .node .argumentList (some .arguments) args]

/-- The expression that a shape stands for. -/
def Shape.expr (s : Shape) : Expr := Expr.ofTree s.tree

section Calls

variable {r : Option Role} {callee base : Shape} {args : List Shape}

theorem expr_ident (r : Option Role) (x : Item) :
    (identShape r x).expr = .ident (String.ofList x.token.text) := rfl

theorem ofRole_parts {ro : Role} {s : Shape} (h : s.role? = some ro) (ss : List Shape) :
    Expr.ofRole ro (Shape.parts (s :: ss)) = some s.expr := by
  unfold Shape.parts Expr.ofRole
  rw [Shape.role_tree, h, if_pos (by simp)]
  rfl

theorem expr_selection (h : base.role? = some .operand) (r : Option Role) (dot field : Item) :
    (selectionShape r base dot field).expr =
      .selector base.expr (String.ofList field.token.text) := by
  have hbase : (base.tree.role == some Role.field) = false := by
    rw [Shape.role_tree, h]
    rfl
  have hfield : (Tree.node .selectorExpression r (Shape.parts [base, .leaf .mark none dot,
      .leaf .fieldIdentifier (some .field) field])).child? .field =
        some (.leaf .fieldIdentifier (some .field) field.token) := by
    change (_ :: (dot.comments.map Shape.commentTree ++ Tree.leaf .mark none dot.token ::
      (field.comments.map Shape.commentTree ++ _))).find? _ = _
    rw [List.find?_cons_of_neg (by simp [hbase]), Shape.find?_comments _ _ fun _ => rfl,
      List.find?_cons_of_neg Bool.false_ne_true, Shape.find?_comments _ _ fun _ => rfl]
    rfl
  unfold Shape.expr selectionShape
  rw [Shape.tree_node, Expr.ofTree, if_pos rfl, ofRole_parts h, hfield]
  dsimp only
  rw [text_leaf]
  rfl

/-- What plays another part in its node holds none of the arguments. -/
theorem argumentsAmong_of_role {s : Shape} (h : s.role? ≠ some .arguments) (ts : List Tree) :
    Expr.argumentsAmong (s.tree :: ts) = Expr.argumentsAmong ts := by
  have hrole : (s.tree.role == some Role.arguments) = false := by
    rw [Shape.role_tree]
    simpa using h
  cases hs : s.tree with
  | leaf k r t =>
    rw [hs] at hrole
    simp only [Expr.argumentsAmong, show (r == some Role.arguments) = false from hrole]
    rfl
  | node k r us =>
    rw [hs] at hrole
    simp only [Expr.argumentsAmong, show (r == some Role.arguments) = false from hrole]
    rfl

theorem argumentsAmong_parts (h : callee.role? = some .function) (args : List Shape) :
    Expr.argumentsAmong (Shape.parts [callee, .node .argumentList (some .arguments) args]) =
      Expr.argumentsOf (Shape.parts args) := by
  rw [Shape.parts, argumentsAmong_of_role (by simp [h]), Shape.trees,
    Shape.argumentsAmong_comments, Shape.tree_node]
  rfl

theorem expr_call (h : callee.role? = some .function) (r : Option Role) (args : List Shape) :
    (callShape r callee args).expr = .call callee.expr (Expr.argumentsOf (Shape.parts args)) := by
  unfold Shape.expr callShape
  rw [Shape.tree_node, Expr.ofTree, if_neg (by decide), if_pos rfl, ofRole_parts h,
    argumentsAmong_parts h]
  rfl

theorem states_call (h : callee.role? = some .function)
    (hlacks : Shape.lackAll .importSpec (callee :: args) = true) :
    States ⟨[], [(callee.expr, Expr.argumentsOf (Shape.parts args))]⟩
      [.node .expressionStatement none [callShape none callee args]] := by
  have hcall : States ⟨[], [(callee.expr, Expr.argumentsOf (Shape.parts args))]⟩
      [callShape none callee args] := ⟨?_, ?_⟩
  · exact hcall.node (by decide) none
  · refine (states_none ?_).imports
    simp only [Shape.lackAll, Bool.and_eq_true] at hlacks
    simp [callShape, Shape.lackAll, Shape.lacks, hlacks]
  · have hsite : Tree.site? (.node .callExpression none (Shape.parts
        [callee, .node .argumentList (some .arguments) args])) =
          some (callee.expr, Expr.argumentsOf (Shape.parts args)) := by
      unfold Tree.site? Tree.call?
      rw [if_pos (by rfl)]
      dsimp only
      rw [ofRole_parts h, argumentsAmong_parts h]
      rfl
    rw [List.flatMap_singleton, callShape, Shape.found_node Tree.passesComments_site?, hsite]
    exact List.sublist_append_left _ _

/-- Punctuation is no argument. -/
theorem argumentsOf_mark (i : Item) (ts : List Tree) :
    Expr.argumentsOf (.leaf .mark none i.token :: ts) = Expr.argumentsOf ts := rfl

theorem argumentsOf_none (o c : Item) :
    Expr.argumentsOf (Shape.parts [.leaf .mark none o, .leaf .mark none c]) = [] := by
  change Expr.argumentsOf (.leaf .mark none o.token :: (c.comments.map Shape.commentTree ++ _)) = _
  rw [argumentsOf_mark, Shape.argumentsOf_comments]
  rfl

theorem argumentsOf_one (o x c : Item) :
    Expr.argumentsOf (Shape.parts [.leaf .mark none o, identShape none x, .leaf .mark none c]) =
      [.ident (String.ofList x.token.text)] := by
  change Expr.argumentsOf (.leaf .mark none o.token :: (x.comments.map Shape.commentTree ++
    (identShape none x).tree :: (c.comments.map Shape.commentTree ++ _))) = _
  rw [argumentsOf_mark, Shape.argumentsOf_comments]
  change Expr.ofTree (identShape none x).tree :: Expr.argumentsOf _ = _
  rw [Shape.argumentsOf_comments]
  rfl

end Calls

/-! ## Statements that are calls -/

/-- An item that is known by its class and its number. -/
def numberedItem (sort : Class) (k : Nat) : Item := ⟨⟨sort, [], [], k, 0⟩, [], false⟩

/-- The glyphs are read as this call, where the next line opens with one of the classes. -/
def ReadsCall (gs : List Glyph) (callee : Shape) (args : List Shape) : Prop :=
  ∀ next ∈ lineWords,
    (Rule.part .statement).glimpse grammar 110 ⟨true, true⟩
        (numbered (unlinedOutlines (gs.map Glyph.outline) ++ [(next, true)])) =
      some (some ([.node .expressionStatement none [callShape none callee args]],
        [⟨⟨next, [], [], gs.length, 0⟩, [], true⟩]))

theorem forall_lineWords {p : Class → Prop} (hname : p .name) (hdefer : p (.keyword .deferWord))
    (hreturn : p (.keyword .returnWord)) (hclose : p (.mark .braceClose)) :
    ∀ next ∈ lineWords, p next := by
  simp [lineWords, hname, hdefer, hreturn, hclose]

/-- Numbered items are exchanged for items with these texts. -/
def Restores (gs : List Glyph) (f : Item → Item) : Prop :=
  ∀ k g, gs[k]? = some g → (f (numberedItem g.sort k)).token.text = g.text

theorem getElem?_unlinedHead {xs : List Item} {k : Nat} {x : Item} (h : xs[k]? = some x) :
    ∃ b, (unlinedHead xs)[k]? = some { x with opensLine := b } := by
  cases xs with
  | nil => cases h
  | cons i is =>
    cases k with
    | zero =>
      cases h
      exact ⟨false, rfl⟩
    | succ k => exact ⟨x.opensLine, h⟩

theorem restores_fillFrom {xs : List Item} {gs : List Glyph} (hx : xs.map Item.glyph = gs)
    (tail : List Item) : Restores gs (fillFrom (unlinedHead xs ++ tail)) := by
  intro k g hk
  subst hx
  obtain ⟨x, hx, rfl⟩ := List.getElem?_map .. ▸ hk |> Option.map_eq_some_iff.mp
  obtain ⟨b, hb⟩ := getElem?_unlinedHead hx
  have hlength : k < (unlinedHead xs).length := (List.getElem?_eq_some_iff.mp hb).1
  have hlonger : (unlinedHead xs ++ tail)[k]? = _ := List.getElem?_append_left hlength
  rw [← hlonger] at hb
  have htext := congrArg (fun i : Item => i.token.text) (fillFrom_number hb false)
  exact htext

theorem role?_map (f : Item → Item) (s : Shape) : (s.map f).role? = s.role? := by
  cases s <;> rfl

/-- Glyphs that are read as a call are an entry that states this call. -/
theorem isEntry_call {xs : List Item} {gs : List Glyph} {callee : Shape} {args : List Shape}
    {site : Site} (hx : xs.map Item.glyph = gs) (h : ReadsCall gs callee args)
    (hopens : ((gs.map Glyph.outline).head?.any fun g => g.2 && lineWords.contains g.1) = true)
    (hrole : callee.role? = some .function)
    (hlacks : Shape.lackAll .importSpec (callee :: args) = true)
    (hsite : ∀ f, Restores gs f →
      ((callee.map f).expr, Expr.argumentsOf (Shape.parts (Shape.mapAll f args))) = site) :
    IsEntry 110 ⟨true, true⟩ (.part .statement) (· ∈ lineWords) xs ⟨[], [site]⟩ := by
  have houtlines := outlines_of_glyphs hx
  refine ⟨opens_of_outlines (houtlines ▸ hopens), ?_⟩
  rintro rest ⟨i, is, rfl, hline, hclass⟩
  have hall : (unlinedHead xs ++ [i]).map Item.outline =
      unlinedOutlines (gs.map Glyph.outline) ++ [(i.token.sort, true)] := by
    rw [List.map_append, outlines_unlinedHead, houtlines, List.map_singleton, outline_next hline]
  have hread := Reads.of_glimpse hall (h _ hclass) is
  have hlength : (unlinedHead xs).length = gs.length := by
    rw [length_unlinedHead, ← hx, List.length_map]
  have hnext : fillFrom (unlinedHead xs ++ [i]) ⟨⟨i.token.sort, [], [], gs.length, 0⟩, [], true⟩ =
      i := by
    have hi : (unlinedHead xs ++ [i])[gs.length]? = some i := by simp [← hlength]
    rw [fillFrom_number hi, ← hline]
  refine ⟨_, by simpa [carried, hnext] using hread, ?_⟩
  have hlacksAll := Shape.lackAll_map (fillFrom (unlinedHead xs ++ [i])) .importSpec (callee :: args)
  have hstates := states_call ((role?_map _ callee).trans hrole) (hlacksAll.trans hlacks)
  rw [hsite _ (restores_fillFrom hx [i])] at hstates
  exact hstates

/-! ## The calls of the stubs -/

def dotGlyph : Glyph := ⟨.mark .dot, false, ['.']⟩

def openGlyph : Glyph := ⟨.mark .parenOpen, false, ['(']⟩

def closeGlyph : Glyph := ⟨.mark .parenClose, false, [')']⟩

def nameGlyph (line : Bool) (name : String) : Glyph := ⟨.name, line, name.toList⟩

theorem Restores.name {gs : List Glyph} {f : Item → Item} (hf : Restores gs f) {k : Nat}
    {line : Bool} {name : String} (h : gs[k]? = some (nameGlyph line name)) :
    String.ofList (f (numberedItem .name k)).token.text = name := by
  rw [show (f (numberedItem .name k)).token.text = name.toList from hf k _ h,
    String.ofList_toList]

/-- The shapes of a name that opens the line, and of a name selected from it. -/
def leadShape (r : Option Role) : Shape := identShape r (numberedItem .name 0)

def selectedShape (r : Option Role) : Shape :=
  selectionShape r (leadShape (some .operand)) (numberedItem (.mark .dot) 1) (numberedItem .name 2)

/-- The shapes of arguments that open at item `k`: none, and a name. -/
def bracketShapes (k : Nat) : List Shape :=
  [.leaf .mark none (numberedItem (.mark .parenOpen) k),
    .leaf .mark none (numberedItem (.mark .parenClose) (k + 1))]

def argumentShapes (k : Nat) : List Shape :=
  [.leaf .mark none (numberedItem (.mark .parenOpen) k),
    identShape none (numberedItem .name (k + 1)),
    .leaf .mark none (numberedItem (.mark .parenClose) (k + 2))]

section

variable {gs : List Glyph} {f : Item → Item} {lead field : String} {k : Nat}

theorem expr_leadShape (hf : Restores gs f) (h : gs[0]? = some (nameGlyph true lead))
    (r : Option Role) : ((leadShape r).map f).expr = .ident lead := by
  change (identShape r (f _)).expr = _
  rw [expr_ident, hf.name h]

theorem expr_selectedShape (hf : Restores gs f) (h : gs[0]? = some (nameGlyph true lead))
    (hfield : gs[2]? = some (nameGlyph false field)) (r : Option Role) :
    ((selectedShape r).map f).expr = .selector (.ident lead) field := by
  change (selectionShape r ((leadShape (some .operand)).map f) (f _) (f _)).expr = _
  rw [expr_selection rfl, expr_leadShape hf h, hf.name hfield]

theorem argumentsOf_bracketShapes (f : Item → Item) (k : Nat) :
    Expr.argumentsOf (Shape.parts (Shape.mapAll f (bracketShapes k))) = [] :=
  argumentsOf_none _ _

theorem argumentsOf_argumentShapes (hf : Restores gs f)
    (h : gs[k + 1]? = some (nameGlyph false field)) :
    Expr.argumentsOf (Shape.parts (Shape.mapAll f (argumentShapes k))) = [.ident field] := by
  change Expr.argumentsOf (Shape.parts
    [.leaf .mark none (f _), identShape none (f _), .leaf .mark none (f _)]) = _
  rw [argumentsOf_one, hf.name h]

end

/-- A call of a function of a package, on a line of its own. -/
def selectedGlyphs (package name : String) : List Glyph :=
  [nameGlyph true package, dotGlyph, nameGlyph false name, openGlyph, closeGlyph]

theorem isEntry_selected {package name : String} {xs : List Item}
    (hx : xs.map Item.glyph = selectedGlyphs package name) :
    IsEntry 110 ⟨true, true⟩ (.part .statement) (· ∈ lineWords) xs
      ⟨[], [(.selector (.ident package) name, [])]⟩ := by
  have hcall : ReadsCall (selectedGlyphs package name) (selectedShape (some .function))
      (bracketShapes 3) := forall_lineWords rfl rfl rfl rfl
  refine isEntry_call hx hcall rfl rfl rfl fun f hf => ?_
  rw [expr_selectedShape hf rfl rfl, argumentsOf_bracketShapes]

/-- A function that takes the router: a name, a name selected from a name, or what a call of
one of these gives. -/
structure Registrer where
  lead : String
  field : Option String
  called : Bool
  deriving DecidableEq, Repr

namespace Registrer

/-- The name, without the call. -/
def named (r : Registrer) : Expr :=
  match r.field with
  | none => .ident r.lead
  | some field => .selector (.ident r.lead) field

def expr (r : Registrer) : Expr := if r.called then .call r.named [] else r.named

/-- What stands behind the names: the router between brackets. -/
def glyphsBehind (called : Bool) : List Glyph :=
  let argument := [openGlyph, nameGlyph false "router", closeGlyph]
  if called then openGlyph :: closeGlyph :: argument else argument

/-- The call of the function with the router, on a line of its own. -/
def glyphs (r : Registrer) : List Glyph :=
  match r.field with
  | none => nameGlyph true r.lead :: glyphsBehind r.called
  | some field => nameGlyph true r.lead :: dotGlyph :: nameGlyph false field :: glyphsBehind r.called

theorem isEntry {r : Registrer} {xs : List Item} (hx : xs.map Item.glyph = r.glyphs) :
    IsEntry 110 ⟨true, true⟩ (.part .statement) (· ∈ lineWords) xs
      ⟨[], [(r.expr, [.ident "router"])]⟩ := by
  obtain ⟨lead, field, called⟩ := r
  cases field with
  | none =>
    cases called with
    | false =>
      have hcall : ReadsCall (glyphs ⟨lead, none, false⟩) (leadShape (some .function))
          (argumentShapes 1) := forall_lineWords rfl rfl rfl rfl
      refine isEntry_call hx hcall rfl rfl rfl fun f hf => ?_
      rw [expr_leadShape hf rfl, argumentsOf_argumentShapes hf rfl]
      rfl
    | true =>
      have hcall : ReadsCall (glyphs ⟨lead, none, true⟩)
          (callShape (some .function) (leadShape (some .function)) (bracketShapes 1))
          (argumentShapes 3) := forall_lineWords rfl rfl rfl rfl
      refine isEntry_call hx hcall rfl rfl rfl fun f hf => ?_
      change ((callShape _ ((leadShape _).map f) (Shape.mapAll f _)).expr, _) = _
      rw [expr_call rfl, expr_leadShape hf rfl, argumentsOf_bracketShapes,
        argumentsOf_argumentShapes hf rfl]
      rfl
  | some field =>
    cases called with
    | false =>
      have hcall : ReadsCall (glyphs ⟨lead, some field, false⟩) (selectedShape (some .function))
          (argumentShapes 3) := forall_lineWords rfl rfl rfl rfl
      refine isEntry_call hx hcall rfl rfl rfl fun f hf => ?_
      rw [expr_selectedShape hf rfl rfl, argumentsOf_argumentShapes hf rfl]
      rfl
    | true =>
      have hcall : ReadsCall (glyphs ⟨lead, some field, true⟩)
          (callShape (some .function) (selectedShape (some .function)) (bracketShapes 3))
          (argumentShapes 5) := forall_lineWords rfl rfl rfl rfl
      refine isEntry_call hx hcall rfl rfl rfl fun f hf => ?_
      change ((callShape _ ((selectedShape _).map f) (Shape.mapAll f _)).expr, _) = _
      rw [expr_call rfl, expr_selectedShape hf rfl rfl, argumentsOf_bracketShapes,
        argumentsOf_argumentShapes hf rfl]
      rfl

end Registrer

end Graft.Go
