-- Names in Go source are words. What the lexer takes for a name or a keyword
-- opens with a character that can open a word and goes on with those that
-- can go on; the reader makes identifiers of nothing else, and the tree and
-- the expressions read off it keep them. So a name that an analysis gives is
-- always a word.
import Graft.Proofs.Readings
import Graft.Proofs.SourceTrees

namespace Graft.Go

/-- A word: it opens with a character that can open one, and goes on with characters that
can go on. -/
def IsWord (cs : List Char) : Prop :=
  ∃ c rest, cs = c :: rest ∧ Text.isWordStart c = true ∧ ∀ d ∈ rest, Text.isWordPart d = true

/-- The word that a text opens with. -/
def firstWord : List Char → List Char
  | [] => []
  | c :: cs => c :: cs.takeWhile Text.isWordPart

/-- What stands behind a word is none of its characters. -/
theorem firstWord_append {word rest : List Char} (h : IsWord word)
    (hr : ∀ c ∈ rest.head?, Text.isWordPart c = false) : firstWord (word ++ rest) = word := by
  obtain ⟨c, cs, rfl, -, hcs⟩ := h
  have hrest : rest.takeWhile Text.isWordPart = [] := by
    cases rest with
    | nil => rfl
    | cons d ds => rw [List.takeWhile_cons, hr d rfl, if_neg Bool.false_ne_true]
  unfold firstWord
  rw [List.cons_append]
  dsimp only
  rw [List.takeWhile_append_of_pos hcs, hrest, List.append_nil]

/-! ## Tokens -/

/-- The token can stand for a name only if it is a word. -/
def Token.IsNamed (t : Token) : Prop := canName [] t.sort = true → IsWord t.text

theorem canName_of_avoided {avoided : List Keyword} {sort : Class}
    (h : canName avoided sort = true) : canName [] sort = true := by
  cases sort <;> first | rfl | cases h

theorem number?_cannot_name {cs : List Char} {sort : Class} {n : Nat}
    (h : number? cs = some (sort, n)) : canName [] sort = false := by
  unfold number? at h
  dsimp only at h
  split at h
  · cases h
  · split at h
    · cases h
      rfl
    · split at h <;> cases h <;> rfl

/-- Only words can stand for names. -/
theorem isWord_of_scan {c : Char} {rest : List Char}
    (h : canName [] (scan (c :: rest)).1 = true) :
    IsWord (c :: rest.take ((scan (c :: rest)).2 - 1)) := by
  unfold scan at h ⊢
  dsimp only at h ⊢
  by_cases hcomment : 0 < commentLength (c :: rest)
  · rw [if_pos hcomment] at h
    cases h
  rw [if_neg hcomment] at h ⊢
  by_cases hword : Text.isWordStart c = true
  · rw [if_pos hword]
    refine ⟨c, _, rfl, hword, ?_⟩
    intro d hd
    dsimp only at hd
    rw [Nat.add_sub_cancel_left, ← List.prefix_iff_eq_take.mp (List.takeWhile_prefix _)] at hd
    exact List.all_eq_true.mp List.all_takeWhile d hd
  -- What opens with no word is a string, a rune, a number or a mark.
  rw [if_neg hword] at h
  by_cases hstring : (c == '"') = true
  · rw [if_pos hstring] at h
    split at h <;> cases h
  rw [if_neg hstring] at h
  by_cases hraw : (c == '\x60') = true
  · rw [if_pos hraw] at h
    split at h <;> cases h
  rw [if_neg hraw] at h
  by_cases hrune : (c == '\'') = true
  · rw [if_pos hrune] at h
    split at h <;> cases h
  rw [if_neg hrune] at h
  cases hnumber : number? (c :: rest) with
  | some found =>
    rw [hnumber] at h
    dsimp only at h
    rw [number?_cannot_name hnumber] at h
    cases h
  | none =>
    rw [hnumber] at h
    dsimp only at h
    split at h <;> cases h

/-- What a scan cuts off the text makes up the token. -/
def Token.IsScanned (t : Token) : Prop :=
  ∃ c rest, t.sort = (scan (c :: rest)).1 ∧
    t.text = c :: rest.take ((scan (c :: rest)).2 - 1)

theorem ending_or_isScanned_of_mem_tokensFrom {place : Place} {gap cs : List Char} {t : Token}
    (h : t ∈ tokensFrom place gap cs) : t.sort = .ending ∨ t.IsScanned := by
  fun_induction tokensFrom place gap cs with
  | case1 place gap =>
    rw [List.mem_singleton.mp h]
    exact .inl rfl
  | case2 place gap c rest hgap ih => exact ih h
  | case3 place gap c rest hgap r more ih =>
    rcases List.mem_cons.mp h with rfl | h
    · exact .inr ⟨c, rest, rfl, rfl⟩
    · exact ih h

/-- The tokens of a source are its ending and what was scanned. -/
theorem ending_or_isScanned_of_mem_tokens {source : List Char} {t : Token}
    (h : t ∈ tokens source) : t.sort = .ending ∨ t.IsScanned := by
  unfold tokens at h
  split at h
  · exact ending_or_isScanned_of_mem_tokensFrom h
  · split at h <;> exact ending_or_isScanned_of_mem_tokensFrom h

theorem isNamed_of_mem_tokens {source : List Char} {t : Token} (h : t ∈ tokens source) :
    t.IsNamed := by
  intro hn
  rcases ending_or_isScanned_of_mem_tokens h with hending | ⟨c, rest, hsort, htext⟩
  · rw [hending] at hn
    cases hn
  · rw [hsort] at hn
    rw [htext]
    exact isWord_of_scan hn

theorem token_mem_of_mem_itemsFrom {comments ts : List Token} {ended : Bool} {i : Item}
    (h : i ∈ itemsFrom comments ended ts) : i.token ∈ ts := by
  induction ts generalizing comments ended with
  | nil => cases h
  | cons t ts ih =>
    unfold itemsFrom at h
    dsimp only at h
    split at h
    · exact List.mem_cons_of_mem _ (ih h)
    · rcases List.mem_cons.mp h with rfl | h
      · exact List.mem_cons_self
      · exact List.mem_cons_of_mem _ (ih h)

/-! ## What the reader reads -/

namespace Shape

mutual
/-- The identifiers are words. -/
def Named : Shape → Prop
  | leaf kind _ i => kind = .identifier → IsWord i.token.text
  | node _ _ ss => NamedAll ss

def NamedAll : List Shape → Prop
  | [] => True
  | s :: ss => Named s ∧ NamedAll ss
end

theorem namedAll_iff {ss : List Shape} : NamedAll ss ↔ ∀ s ∈ ss, Named s := by
  induction ss with
  | nil => simp [NamedAll]
  | cons s ss ih => simp [NamedAll, ih]

theorem NamedAll.append {ss ts : List Shape} (hs : NamedAll ss) (ht : NamedAll ts) :
    NamedAll (ss ++ ts) := by
  rw [namedAll_iff] at hs ht ⊢
  intro s h
  exact (List.mem_append.mp h).elim (hs s) (ht s)

theorem namedAll_singleton {s : Shape} : NamedAll [s] ↔ s.Named := by
  unfold NamedAll
  exact and_iff_left trivial

theorem Named.withRole {s : Shape} (h : s.Named) (r : Role) : (s.withRole r).Named := by
  cases s with
  | leaf kind role i => exact h
  | node kind role ss => exact h

theorem NamedAll.withRole {ss : List Shape} (h : NamedAll ss) (r : Role) :
    NamedAll (ss.map (Shape.withRole r)) := by
  rw [namedAll_iff] at h ⊢
  intro s hs
  obtain ⟨t, ht, rfl⟩ := List.mem_map.mp hs
  exact (h t ht).withRole r

theorem Named.takeLeft {s : Shape} (h : s.Named) {left : List Shape} (hl : NamedAll left) :
    (s.takeLeft left).Named := by
  cases s with
  | leaf kind role i => exact h
  | node kind role ss =>
    unfold Shape.takeLeft
    dsimp only
    cases leftRole kind with
    | none => exact hl.append h
    | some ro => exact (hl.withRole ro).append h

theorem NamedAll.standAlone {left : List Shape} (h : NamedAll left) (alone : Option Kind) :
    NamedAll (Shape.standAlone alone left) := by
  cases alone with
  | none => exact h
  | some kind => exact namedAll_singleton.mpr h

end Shape

/-- The rule makes identifiers of what can be a name only. -/
def Rule.NamesWords : Rule → Bool
  | .token sort kind => kind != .identifier || canName [] sort
  | .absent r => r.NamesWords
  | .seq r s => r.NamesWords && s.NamesWords
  | .alt r s => r.NamesWords && s.NamesWords
  | .many r => r.NamesWords
  | .node _ r => r.NamesWords
  | .role _ r => r.NamesWords
  | .chain r s => r.NamesWords && s.NamesWords
  | .once _ r s => r.NamesWords && s.NamesWords
  | .lines _ r => r.NamesWords
  | .literals _ r => r.NamesWords
  | _ => true

theorem grammar_namesWords (p : Part) : (grammar p).NamesWords = true := by
  cases p <;> decide

theorem sourceRule_namesWords : sourceRule.NamesWords = true := by decide

/-- One case for each way in which a rule makes shapes. -/
theorem namedAll_of_yields {r : Rule} {ss : List Shape}
    (h : r.Yields (fun i => i.token.IsNamed) ss) (hr : r.NamesWords = true) :
    Shape.NamedAll ss := by
  induction h with
  | done | lineEnd | here | openLiterals | absent | none => trivial
  | @token sort kind i hi hs =>
    refine Shape.namedAll_singleton.mpr fun hk => hi ?_
    rw [Rule.NamesWords, hk] at hr
    rw [hs]
    simpa using hr
  | word hi hs => exact Shape.namedAll_singleton.mpr fun _ => hi (canName_of_avoided hs)
  | terminator => exact Shape.namedAll_singleton.mpr fun hk => nomatch hk
  | seq _ _ ihr ihs =>
    obtain ⟨hr, hs⟩ := Bool.and_eq_true_iff.mp hr
    exact (ihr hr).append (ihs hs)
  | left _ ih | first _ ih => exact ih (Bool.and_eq_true_iff.mp hr).1
  | right _ ih => exact ih (Bool.and_eq_true_iff.mp hr).2
  | more _ _ ihr ihm => exact (ihr hr).append (ihm hr)
  | node _ ih => exact Shape.namedAll_singleton.mpr (ih hr)
  | role _ ih => exact (ih hr).withRole _
  | goesOn _ _ ihl ihn =>
    have hnext := Shape.namedAll_singleton.mp (ihn (Bool.and_eq_true_iff.mp hr).2)
    exact Shape.namedAll_singleton.mpr (hnext.takeLeft (ihl hr))
  | alone _ ih => exact (ih (Bool.and_eq_true_iff.mp hr).1).standAlone _
  | once _ _ ihl ihn =>
    obtain ⟨hr, hs⟩ := Bool.and_eq_true_iff.mp hr
    have hnext := Shape.namedAll_singleton.mp (ihn hs)
    exact Shape.namedAll_singleton.mpr (hnext.takeLeft (ihl hr))
  | lines _ ih | literals _ ih => exact ih hr
  | @part p _ _ ih => exact ih (grammar_namesWords p)

/-! ## Trees -/

namespace Tree

mutual
/-- The identifiers are words. -/
def Named : Tree → Prop
  | leaf kind _ t => kind = .identifier → IsWord t.text
  | node _ _ ts => NamedAll ts

def NamedAll : List Tree → Prop
  | [] => True
  | t :: ts => Named t ∧ NamedAll ts
end

theorem namedAll_iff {ts : List Tree} : NamedAll ts ↔ ∀ t ∈ ts, Named t := by
  induction ts with
  | nil => simp [NamedAll]
  | cons t ts ih => simp [NamedAll, ih]

theorem NamedAll.append {ss ts : List Tree} (hs : NamedAll ss) (ht : NamedAll ts) :
    NamedAll (ss ++ ts) := by
  rw [namedAll_iff] at hs ht ⊢
  intro t h
  exact (List.mem_append.mp h).elim (hs t) (ht t)

theorem namedAll_commentTrees (comments : List Token) :
    NamedAll (comments.map Shape.commentTree) := by
  rw [namedAll_iff]
  intro t h
  obtain ⟨c, -, rfl⟩ := List.mem_map.mp h
  intro hk
  cases hk

theorem Named.children {t : Tree} (h : t.Named) : NamedAll t.children := by
  cases t with
  | leaf kind role tok => trivial
  | node kind role ts => exact h

end Tree

mutual
theorem Shape.named_tree : ∀ {s : Shape}, s.Named → s.tree.Named
  | .leaf _ _ _, h => h
  | .node _ _ [], _ => trivial
  | .node _ _ (_ :: _), h => ⟨Shape.named_tree h.1, Shape.namedAll_trees h.2⟩

theorem Shape.namedAll_trees : ∀ {ss : List Shape}, NamedAll ss → Tree.NamedAll (trees ss)
  | [], _ => trivial
  | s :: _, h =>
    (Tree.namedAll_commentTrees s.comments).append
      ⟨Shape.named_tree h.1, Shape.namedAll_trees h.2⟩
end

theorem named_of_parse {source : List Char} {tree : Tree} (h : parse source = .ok tree) :
    tree.Named := by
  obtain ⟨ss, last, rfl, -, hss⟩ := yields_of_parse (fun _ hi => hi)
    (fun _ hi => isNamed_of_mem_tokens (token_mem_of_mem_itemsFrom hi)) h
  have hnamed : Shape.NamedAll ss := by
    rcases hss with hss | rfl
    · exact namedAll_of_yields hss sourceRule_namesWords
    · trivial
  exact (Shape.namedAll_trees hnamed).append (Tree.namedAll_commentTrees _)

/-! ## Expressions -/

namespace Expr

/-- The name that an expression opens with. -/
def leading? : Expr → Option String
  | ident name => some name
  | selector base _ => leading? base
  | call callee _ => leading? callee
  | other _ _ => none

/-- The name that the expression opens with is a word. -/
def LeadsWithWord (e : Expr) : Prop := ∀ name, e.leading? = some name → IsWord name.toList

mutual
theorem leadsWithWord_ofTree : ∀ {t : Tree}, t.Named → (ofTree t).LeadsWithWord
  | .leaf kind role tok, h => by
    unfold ofTree
    split
    · next hk =>
      intro name hn
      cases hn
      rw [String.toList_ofList]
      exact h hk
    · intro name hn
      cases hn
  | .node kind role children, h => by
    unfold ofTree
    split
    · split
      · next base field hb hf =>
        intro name hn
        exact leadsWithWord_ofRole h hb name hn
      · intro name hn
        cases hn
    · split
      · split
        · next callee hc =>
          intro name hn
          exact leadsWithWord_ofRole h hc name hn
        · intro name hn
          cases hn
      · intro name hn
        cases hn

theorem leadsWithWord_ofRole : ∀ {ts : List Tree} {r : Role} {e : Expr}, Tree.NamedAll ts →
    ofRole r ts = some e → e.LeadsWithWord
  | [], _, _, _, he => by cases he
  | t :: ts, r, e, h, he => by
    unfold ofRole at he
    split at he
    · cases he
      exact leadsWithWord_ofTree h.1
    · exact leadsWithWord_ofRole h.2 he
end

theorem leadsWithWord_of_mem_argumentsOf {ts : List Tree} {e : Expr} (h : Tree.NamedAll ts)
    (he : e ∈ argumentsOf ts) : e.LeadsWithWord := by
  induction ts with
  | nil => cases he
  | cons t ts ih =>
    unfold argumentsOf at he
    split at he
    · rcases List.mem_cons.mp he with rfl | he
      · exact leadsWithWord_ofTree h.1
      · exact ih h.2 he
    · exact ih h.2 he

theorem leadsWithWord_of_mem_argumentsAmong {ts : List Tree} {e : Expr}
    (h : Tree.NamedAll ts) (he : e ∈ argumentsAmong ts) : e.LeadsWithWord := by
  induction ts with
  | nil => cases he
  | cons t ts ih =>
    cases t with
    | leaf kind role tok =>
      unfold argumentsAmong at he
      split at he
      · cases he
      · exact ih h.2 he
    | node kind role children =>
      unfold argumentsAmong at he
      split at he
      · exact leadsWithWord_of_mem_argumentsOf h.1 he
      · exact ih h.2 he

end Expr

/-- Each argument of a call in a file opens with a word, if it opens with a name. -/
theorem Source.leadsWithWord_of_mem_args {path text : String} {s : Source}
    (hs : Source.parse path text = .ok s) {c : Call} (hc : c ∈ s.calls) {e : Expr}
    (he : e ∈ c.args) : e.LeadsWithWord := by
  unfold Source.parse at hs
  cases hp : Go.parse text.toList with
  | error p =>
    rw [hp] at hs
    cases hs
  | ok tree =>
    rw [hp] at hs
    cases hs
    obtain ⟨t, ht, hcall⟩ := List.mem_filterMap.mp hc
    have htree : t.Named :=
      Tree.of_mem_walk (fun h => Tree.namedAll_iff.mp h.children) (named_of_parse hp) t ht
    unfold Tree.call? at hcall
    split at hcall
    · split at hcall
      · obtain ⟨callee, -, rfl⟩ := Option.map_eq_some_iff.mp hcall
        exact Expr.leadsWithWord_of_mem_argumentsAmong htree he
      · cases hcall
    · cases hcall

end Graft.Go
