-- What the rules of the grammar make of the items that they read. A rule takes
-- shapes off the front of the items, in one of a few ways for each kind of
-- rule. The reader bounds the depth of rules, but what it comes to is taken in
-- these ways. So a law of all shapes, or of what is left, has one case for
-- each way.
import Graft.Go.Grammar

namespace Graft.Go

/-- The ways in which a rule takes shapes off the front of items, and what it leaves. -/
inductive Rule.Takes : Rule → List Item → List Shape → List Item → Prop
  | done {items : List Item} : Takes .done items [] items
  | token {sort : Class} {kind : Kind} {i : Item} {rest : List Item}
    (hs : i.token.sort = sort) : Takes (.token sort kind) (i :: rest) [.leaf kind none i] rest
  | word {avoided : List Keyword} {kind : Kind} {i : Item} {rest : List Item}
    (hs : canName avoided i.token.sort = true) :
    Takes (.word avoided kind) (i :: rest) [.leaf kind none i] rest
  | lineEnd {i : Item} {rest : List Item} :
    Takes .terminator (i :: rest) [] ({ i with opensLine := false } :: rest)
  | terminator {i : Item} {rest : List Item}
    (hs : i.token.sort = .mark .semicolon ∨ i.token.sort = .mark .nul) :
    Takes .terminator (i :: rest) [.leaf .mark none i] rest
  | here {items : List Item} : Takes .here items [] items
  | openLiterals {items : List Item} : Takes .openLiterals items [] items
  | absent {r : Rule} {items : List Item} : Takes (.absent r) items [] items
  | seq {r s : Rule} {items behind rest : List Item} {ss ts : List Shape}
    (hr : Takes r items ss behind) (hs : Takes s behind ts rest) :
    Takes (.seq r s) items (ss ++ ts) rest
  | left {r s : Rule} {items rest : List Item} {ss : List Shape} (hr : Takes r items ss rest) :
    Takes (.alt r s) items ss rest
  | right {r s : Rule} {items rest : List Item} {ss : List Shape} (hs : Takes s items ss rest) :
    Takes (.alt r s) items ss rest
  | none {r : Rule} {items : List Item} : Takes (.many r) items [] items
  | more {r : Rule} {items behind rest : List Item} {ss ts : List Shape}
    (hr : Takes r items ss behind) (hm : Takes (.many r) behind ts rest) :
    Takes (.many r) items (ss ++ ts) rest
  | node {kind : Kind} {r : Rule} {items rest : List Item} {ss : List Shape}
    (hr : Takes r items ss rest) : Takes (.node kind r) items [.node kind none ss] rest
  | role {ro : Role} {r : Rule} {items rest : List Item} {ss : List Shape}
    (hr : Takes r items ss rest) : Takes (.role ro r) items (ss.map (Shape.withRole ro)) rest
  | first {r s : Rule} {items rest : List Item} {ss : List Shape} (hr : Takes r items ss rest) :
    Takes (.chain r s) items ss rest
  | goesOn {r s : Rule} {items behind rest : List Item} {left : List Shape} {next : Shape}
    (hl : Takes (.chain r s) items left behind) (hn : Takes s behind [next] rest) :
    Takes (.chain r s) items [next.takeLeft left] rest
  | alone {kind? : Option Kind} {r s : Rule} {items rest : List Item} {left : List Shape}
    (hr : Takes r items left rest) :
    Takes (.once kind? r s) items (Shape.standAlone kind? left) rest
  | once {kind? : Option Kind} {r s : Rule} {items behind rest : List Item} {left : List Shape}
    {next : Shape} (hr : Takes r items left behind) (hn : Takes s behind [next] rest) :
    Takes (.once kind? r s) items [next.takeLeft left] rest
  | lines {matter : Bool} {r : Rule} {items rest : List Item} {ss : List Shape}
    (hr : Takes r items ss rest) : Takes (.lines matter r) items ss rest
  | literals {opens : Bool} {r : Rule} {items rest : List Item} {ss : List Shape}
    (hr : Takes r items ss rest) : Takes (.literals opens r) items ss rest
  | part {p : Part} {items rest : List Item} {ss : List Shape}
    (hp : Takes (grammar p) items ss rest) : Takes (.part p) items ss rest

namespace Rule

/-! ## What is read is taken by the rule -/

section Steps

variable {r s : Rule} {step : List Item → Reading} {items rest : List Item} {ss : List Shape}

/-- What is read of an item is its leaf. -/
theorem takes_readItem {p : Class → Bool} {kind : Kind}
    (h : ∀ i rest, p i.token.sort = true → r.Takes (i :: rest) [.leaf kind none i] rest)
    (hread : readItem p kind items = some (ss, rest)) : r.Takes items ss rest := by
  cases items with
  | nil => cases hread
  | cons i items =>
    unfold readItem at hread
    dsimp only at hread
    split at hread
    · rename_i hp
      cases hread
      exact h i _ hp
    · cases hread

theorem takes_readTerminator (hread : readTerminator items = some (ss, rest)) :
    Rule.terminator.Takes items ss rest := by
  cases items with
  | nil => cases hread
  | cons i items =>
    unfold readTerminator at hread
    dsimp only at hread
    split at hread
    · cases hread
      exact .lineEnd
    · split at hread
      · rename_i hs
        cases hread
        exact .terminator (by simpa using hs)
      · cases hread

theorem takes_readMany (h : ∀ {items ss rest}, step items = some (ss, rest) → r.Takes items ss rest)
    (n : Nat) (items : List Item) :
    (many r).Takes items (readMany step n items).1 (readMany step n items).2 := by
  induction n generalizing items with
  | zero => exact .none
  | succ n ih =>
    unfold readMany
    split
    · exact .none
    · rename_i ss rest hread
      exact .more (h hread) (ih rest)

/-- A chain goes on from what it has taken so far. -/
theorem takes_readOn (h : ∀ {items ss rest}, step items = some (ss, rest) → s.Takes items ss rest)
    (n : Nat) {left : List Shape} {behind : List Item}
    (hl : (chain r s).Takes items left behind) :
    (chain r s).Takes items (readOn step n left behind).1 (readOn step n left behind).2 := by
  induction n generalizing left behind with
  | zero => exact hl
  | succ n ih =>
    unfold readOn
    split
    · rename_i next rest hread
      exact ih (.goesOn hl (h hread))
    · exact hl

end Steps

/-- One case for each kind of rule; the depth bounds the rules below it. -/
theorem takes_read {fuel : Nat} {mode : Mode} {rule : Rule} {items rest : List Item}
    {ss : List Shape} (hread : rule.read grammar fuel mode items = some (ss, rest)) :
    rule.Takes items ss rest := by
  induction fuel generalizing mode rule items ss rest with
  | zero => cases hread
  | succ fuel ih =>
    unfold read at hread
    cases rule with
    | done =>
      cases hread
      exact .done
    | never => cases hread
    | token sort kind => exact takes_readItem (fun i rest hs => .token (eq_of_beq hs)) hread
    | word avoided kind => exact takes_readItem (fun i rest hs => .word hs) hread
    | terminator => exact takes_readTerminator hread
    | here =>
      dsimp only at hread
      split at hread
      · split at hread <;> cases hread
        exact .here
      · cases hread
        exact .here
    | openLiterals =>
      dsimp only at hread
      split at hread <;> cases hread
      exact .openLiterals
    | absent r =>
      dsimp only at hread
      split at hread <;> cases hread
      exact .absent
    | seq r s =>
      dsimp only at hread
      split at hread
      · cases hread
      · rename_i ts behind hr
        split at hread <;> cases hread
        rename_i us hs
        exact .seq (ih hr) (ih hs)
    | alt r s =>
      dsimp only at hread
      split at hread
      · rename_i found hr
        cases hread
        exact .left (ih hr)
      · exact .right (ih hread)
    | many r =>
      obtain ⟨rfl, rfl⟩ := Prod.ext_iff.mp (Option.some.inj hread)
      exact takes_readMany ih fuel items
    | node kind r =>
      obtain ⟨found, hr, hfound⟩ := Option.map_eq_some_iff.mp hread
      cases hfound
      exact .node (ih hr)
    | role ro r =>
      obtain ⟨found, hr, hfound⟩ := Option.map_eq_some_iff.mp hread
      cases hfound
      exact .role (ih hr)
    | chain r s =>
      dsimp only at hread
      split at hread
      · cases hread
      · rename_i left behind hr
        obtain ⟨rfl, rfl⟩ := Prod.ext_iff.mp (Option.some.inj hread)
        exact takes_readOn ih fuel (.first (ih hr))
    | once kind? r s =>
      dsimp only at hread
      split at hread
      · cases hread
      · rename_i left behind hr
        split at hread
        · rename_i next last hs
          cases hread
          exact .once (ih hr) (ih hs)
        · cases hread
          exact .alone (ih hr)
    | lines matter r => exact .lines (ih hread)
    | literals opens r => exact .literals (ih hread)
    | part p => exact .part (ih hread)

end Rule

/-! ## What is taken of good items -/

/-- The shapes that a rule can make of good items. -/
inductive Rule.Yields (good : Item → Prop) : Rule → List Shape → Prop
  | done : Yields good .done []
  | token {sort : Class} {kind : Kind} {i : Item} (hi : good i) (hs : i.token.sort = sort) :
    Yields good (.token sort kind) [.leaf kind none i]
  | word {avoided : List Keyword} {kind : Kind} {i : Item} (hi : good i)
    (hs : canName avoided i.token.sort = true) :
    Yields good (.word avoided kind) [.leaf kind none i]
  | lineEnd : Yields good .terminator []
  | terminator {i : Item} (hi : good i) : Yields good .terminator [.leaf .mark none i]
  | here : Yields good .here []
  | openLiterals : Yields good .openLiterals []
  | absent {r : Rule} : Yields good (.absent r) []
  | seq {r s : Rule} {ss ts : List Shape} (hr : Yields good r ss) (hs : Yields good s ts) :
    Yields good (.seq r s) (ss ++ ts)
  | left {r s : Rule} {ss : List Shape} (hr : Yields good r ss) : Yields good (.alt r s) ss
  | right {r s : Rule} {ss : List Shape} (hs : Yields good s ss) : Yields good (.alt r s) ss
  | none {r : Rule} : Yields good (.many r) []
  | more {r : Rule} {ss ts : List Shape} (hr : Yields good r ss)
    (hm : Yields good (.many r) ts) : Yields good (.many r) (ss ++ ts)
  | node {kind : Kind} {r : Rule} {ss : List Shape} (hr : Yields good r ss) :
    Yields good (.node kind r) [.node kind none ss]
  | role {ro : Role} {r : Rule} {ss : List Shape} (hr : Yields good r ss) :
    Yields good (.role ro r) (ss.map (Shape.withRole ro))
  | first {r s : Rule} {ss : List Shape} (hr : Yields good r ss) : Yields good (.chain r s) ss
  | goesOn {r s : Rule} {left : List Shape} {next : Shape} (hl : Yields good (.chain r s) left)
    (hn : Yields good s [next]) : Yields good (.chain r s) [next.takeLeft left]
  | alone {kind? : Option Kind} {r s : Rule} {left : List Shape} (hr : Yields good r left) :
    Yields good (.once kind? r s) (Shape.standAlone kind? left)
  | once {kind? : Option Kind} {r s : Rule} {left : List Shape} {next : Shape}
    (hr : Yields good r left) (hn : Yields good s [next]) :
    Yields good (.once kind? r s) [next.takeLeft left]
  | lines {matter : Bool} {r : Rule} {ss : List Shape} (hr : Yields good r ss) :
    Yields good (.lines matter r) ss
  | literals {opens : Bool} {r : Rule} {ss : List Shape} (hr : Yields good r ss) :
    Yields good (.literals opens r) ss
  | part {p : Part} {ss : List Shape} (hp : Yields good (grammar p) ss) : Yields good (.part p) ss

namespace Rule

variable {good : Item → Prop}

/-- What the step reads of good items is made by the rule, and the items that are left are
good. -/
def Follows (good : Item → Prop) (r : Rule) (step : List Item → Reading) : Prop :=
  ∀ items ss rest, (∀ i ∈ items, good i) → step items = some (ss, rest) →
    r.Yields good ss ∧ ∀ i ∈ rest, good i

/-- Each way in which a rule takes shapes off good items makes them; a line end is taken from
its item, which stays good. -/
theorem Takes.yields (hgood : ∀ i, good i → good { i with opensLine := false }) {r : Rule}
    {items rest : List Item} {ss : List Shape} (h : r.Takes items ss rest)
    (hi : ∀ i ∈ items, good i) : r.Yields good ss ∧ ∀ i ∈ rest, good i := by
  induction h with
  | done => exact ⟨.done, hi⟩
  | token hs =>
    obtain ⟨hi, hrest⟩ := List.forall_mem_cons.mp hi
    exact ⟨.token hi hs, hrest⟩
  | word hs =>
    obtain ⟨hi, hrest⟩ := List.forall_mem_cons.mp hi
    exact ⟨.word hi hs, hrest⟩
  | lineEnd =>
    obtain ⟨hi, hrest⟩ := List.forall_mem_cons.mp hi
    exact ⟨.lineEnd, List.forall_mem_cons.mpr ⟨hgood _ hi, hrest⟩⟩
  | terminator =>
    obtain ⟨hi, hrest⟩ := List.forall_mem_cons.mp hi
    exact ⟨.terminator hi, hrest⟩
  | here => exact ⟨.here, hi⟩
  | openLiterals => exact ⟨.openLiterals, hi⟩
  | absent => exact ⟨.absent, hi⟩
  | seq _ _ ihr ihs =>
    obtain ⟨hr, hbehind⟩ := ihr hi
    exact (ihs hbehind).imp (.seq hr) id
  | left _ ih => exact (ih hi).imp .left id
  | right _ ih => exact (ih hi).imp .right id
  | none => exact ⟨.none, hi⟩
  | more _ _ ihr ihm =>
    obtain ⟨hr, hbehind⟩ := ihr hi
    exact (ihm hbehind).imp (.more hr) id
  | node _ ih => exact (ih hi).imp .node id
  | role _ ih => exact (ih hi).imp .role id
  | first _ ih => exact (ih hi).imp .first id
  | goesOn _ _ ihl ihn =>
    obtain ⟨hl, hbehind⟩ := ihl hi
    exact (ihn hbehind).imp (.goesOn hl) id
  | alone _ ih => exact (ih hi).imp .alone id
  | once _ _ ihr ihn =>
    obtain ⟨hr, hbehind⟩ := ihr hi
    exact (ihn hbehind).imp (.once hr) id
  | lines _ ih => exact (ih hi).imp .lines id
  | literals _ ih => exact (ih hi).imp .literals id
  | part _ ih => exact (ih hi).imp .part id

theorem follows_read (hgood : ∀ i, good i → good { i with opensLine := false }) (fuel : Nat)
    (mode : Mode) (rule : Rule) : rule.Follows good (rule.read grammar fuel mode) :=
  fun _ _ _ hi hread => (takes_read hread).yields hgood hi

end Rule

/-- The shapes of a file are made by the rule for it, if anything of it could be read. -/
theorem yields_of_parse {good : Item → Prop}
    (hgood : ∀ i, good i → good { i with opensLine := false }) {source : List Char}
    (hi : ∀ i ∈ items (tokens source), good i) {tree : Tree} (h : parse source = .ok tree) :
    ∃ ss last, tree = sourceTree ss last.comments ∧ good last ∧
      (sourceRule.Yields good ss ∨ ss = []) := by
  have hread : ∀ ss rest, readSource (items (tokens source)) = (ss, rest) →
      (sourceRule.Yields good ss ∨ ss = []) ∧ ∀ i ∈ rest, good i := by
    intro ss rest hr
    unfold readSource at hr
    split at hr
    · rename_i found hfound
      subst hr
      obtain ⟨hss, hrest⟩ := Rule.follows_read hgood _ _ _ _ _ _ hi hfound
      exact ⟨.inl hss, hrest⟩
    · cases hr
      exact ⟨.inr rfl, hi⟩
  unfold parse at h
  split at h
  · rename_i ss last hr
    obtain ⟨hss, hrest⟩ := hread _ _ hr
    split at h
    · cases h
      exact ⟨ss, last, rfl, hrest last (List.mem_singleton.mpr rfl), hss⟩
    · cases h
  · cases h

end Graft.Go
