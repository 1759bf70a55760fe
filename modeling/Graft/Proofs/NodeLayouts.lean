-- How the nodes of a source are laid out. A rule that makes a call or a
-- selection fixes its parts: a selection is a part, a dot and a name, and a
-- call is a part and its arguments, with type arguments between them or not.
-- Most of these nodes go on from a part to their left, and are laid out once
-- they have taken it.
import Graft.Proofs.Readings
import Graft.Proofs.SourceTrees

namespace Graft.Go

deriving instance DecidableEq for Rule

/-! ## Rules that make one part -/

/-- The kind is neither the one of punctuation nor the one of comments. -/
def Kind.isItem (k : Kind) : Bool := k != .mark && k != .comment

namespace Shape

def kind : Shape → Kind
  | leaf k _ _ => k
  | node k _ _ => k

theorem kind_withRole (ro : Role) (s : Shape) : (s.withRole ro).kind = s.kind := by
  cases s <;> rfl

theorem kind_takeLeft (left : List Shape) (s : Shape) : (s.takeLeft left).kind = s.kind := by
  cases s with
  | leaf k r i => rfl
  | node k r ss =>
    unfold takeLeft
    dsimp only
    split <;> rfl

theorem kind_tree (s : Shape) : s.tree.kind = s.kind := by
  cases s with
  | leaf k r i => rfl
  | node k r ss => cases ss <;> rfl

end Shape

/-- The parts of the grammar that make one part of a node. -/
def Part.isSingle : Part → Bool
  | .expression | .comparison | .sum | .product | .unary | .primary | .type | .namedType => true
  | _ => false

namespace Rule

/-- The rule makes nothing. -/
def isSilent : Rule → Bool
  | .done | .never | .here | .openLiterals | .absent _ => true
  | .seq r s | .alt r s => r.isSilent && s.isSilent
  | _ => false

/-- The rule makes one shape, which is no punctuation. -/
def isSingle : Rule → Bool
  | .never => true
  | .token _ kind | .word _ kind | .node kind _ => kind.isItem
  | .seq r s => (r.isSingle && s.isSilent) || (r.isSilent && s.isSingle)
  | .alt r s | .chain r s => r.isSingle && s.isSingle
  | .once alone r s => alone.all Kind.isItem && r.isSingle && s.isSingle
  | .role _ r | .lines _ r | .literals _ r => r.isSingle
  | .part p => p.isSingle
  | _ => false

theorem isSingle_grammar {p : Part} (h : p.isSingle = true) : (grammar p).isSingle = true := by
  revert h
  cases p <;> decide

variable {good : Item → Prop} {r : Rule} {ss : List Shape}

theorem nothing_of_yields (h : r.Yields good ss) (hr : r.isSilent = true) : ss = [] := by
  induction h with
  | done | here | openLiterals | absent => rfl
  | seq hr hs ihr ihs =>
    simp only [isSilent, Bool.and_eq_true] at hr
    rw [ihr hr.1, ihs hr.2]
    rfl
  | left h ih =>
    simp only [isSilent, Bool.and_eq_true] at hr
    exact ih hr.1
  | right h ih =>
    simp only [isSilent, Bool.and_eq_true] at hr
    exact ih hr.2
  | _ => cases hr

/-- One case for each way in which a rule makes shapes. -/
theorem one_of_yields (h : r.Yields good ss) (hr : r.isSingle = true) :
    ∃ s, ss = [s] ∧ s.kind.isItem = true := by
  induction h with
  | token | word | node => exact ⟨_, rfl, hr⟩
  | seq hyr hys ihr ihs =>
    simp only [isSingle, Bool.or_eq_true, Bool.and_eq_true] at hr
    rcases hr with ⟨hr, hs⟩ | ⟨hr, hs⟩
    · rw [nothing_of_yields hys hs, List.append_nil]
      exact ihr hr
    · rw [nothing_of_yields hyr hr, List.nil_append]
      exact ihs hs
  | left h ih | first h ih =>
    simp only [isSingle, Bool.and_eq_true] at hr
    exact ih hr.1
  | right h ih =>
    simp only [isSingle, Bool.and_eq_true] at hr
    exact ih hr.2
  | role h ih =>
    obtain ⟨s, rfl, hs⟩ := ih hr
    exact ⟨_, rfl, by rw [Shape.kind_withRole]; exact hs⟩
  | goesOn hl hn ihl ihn =>
    simp only [isSingle, Bool.and_eq_true] at hr
    obtain ⟨s, hs, hkind⟩ := ihn hr.2
    cases hs
    exact ⟨_, rfl, by rw [Shape.kind_takeLeft]; exact hkind⟩
  | once hl hn ihl ihn =>
    simp only [isSingle, Bool.and_eq_true] at hr
    obtain ⟨s, hs, hkind⟩ := ihn hr.2
    cases hs
    exact ⟨_, rfl, by rw [Shape.kind_takeLeft]; exact hkind⟩
  | @alone alone _ _ _ h ih =>
    simp only [isSingle, Bool.and_eq_true] at hr
    cases alone with
    | none => exact ih hr.1.2
    | some k => exact ⟨_, rfl, hr.1.1⟩
  | lines h ih | literals h ih => exact ih hr
  | part h ih => exact ih (isSingle_grammar hr)
  | _ => cases hr

end Rule

/-! ## How calls and selections are laid out -/

namespace Shape

/-- The parts of a call, a selection or a list of arguments. -/
inductive Laid : Kind → List Shape → Prop
  | selection {base : Shape} {dot field : Item} (hb : base.role? = some .operand)
    (hd : dot.token.sort = .mark .dot) :
    Laid .selectorExpression
      [base, .leaf .mark none dot, .leaf .fieldIdentifier (some .field) field]
  | call {callee : Shape} {args : List Shape} (hc : callee.role? = some .function) :
    Laid .callExpression [callee, .node .argumentList (some .arguments) args]
  | typedCall {callee : Shape} {opening : Item} {types args : List Shape}
    (hc : callee.role? = some .function) (ho : opening.token.sort = .mark .bracketOpen) :
    Laid .callExpression [callee, .node .typeArguments none (.leaf .mark none opening :: types),
      .node .argumentList (some .arguments) args]
  | noArguments {opening closing : Item} (ho : opening.token.sort = .mark .parenOpen)
    (hc : closing.token.sort = .mark .parenClose) :
    Laid .argumentList [.leaf .mark none opening, .leaf .mark none closing]
  | someArguments {ss : List Shape} {s : Shape} (hs : s ∈ ss) (hk : s.kind.isItem = true) :
    Laid .argumentList ss
  | other {k : Kind} {ss : List Shape} (hs : k ≠ .selectorExpression) (hc : k ≠ .callExpression)
    (ha : k ≠ .argumentList) : Laid k ss

mutual
/-- The shape is made of good items, and each of its nodes is laid out as its kind. -/
def Made (good : Item → Prop) : Shape → Prop
  | leaf _ _ i => good i
  | node k _ ss => Laid k ss ∧ MadeAll good ss

def MadeAll (good : Item → Prop) : List Shape → Prop
  | [] => True
  | s :: ss => Made good s ∧ MadeAll good ss
end

variable {good : Item → Prop} {ss ts : List Shape}

theorem madeAll_iff : MadeAll good ss ↔ ∀ s ∈ ss, s.Made good := by
  induction ss with
  | nil => simp [MadeAll]
  | cons s ss ih => simp [MadeAll, ih]

theorem MadeAll.append (hs : MadeAll good ss) (ht : MadeAll good ts) :
    MadeAll good (ss ++ ts) := by
  rw [madeAll_iff] at hs ht ⊢
  intro s h
  exact (List.mem_append.mp h).elim (hs s) (ht s)

theorem madeAll_singleton {s : Shape} : MadeAll good [s] ↔ s.Made good := by
  unfold MadeAll
  exact and_iff_left trivial

theorem Made.withRole {s : Shape} (h : s.Made good) (ro : Role) : (s.withRole ro).Made good := by
  cases s with
  | leaf k r i => exact h
  | node k r ss => exact h

theorem MadeAll.withRole (h : MadeAll good ss) (ro : Role) :
    MadeAll good (ss.map (Shape.withRole ro)) := by
  rw [madeAll_iff] at h ⊢
  intro s hs
  obtain ⟨t, ht, rfl⟩ := List.mem_map.mp hs
  exact (h t ht).withRole ro

theorem role?_withRole (ro : Role) (s : Shape) : (s.withRole ro).role? = some ro := by
  cases s <;> rfl

/-- The node is made once it has taken one part to its left. -/
def Hangs (good : Item → Prop) (s : Shape) : Prop :=
  ∀ left : Shape, left.Made good → (s.takeLeft [left]).Made good

theorem hangs_of_laid {k : Kind} (hlaid : ∀ left : Shape,
      Laid k ((match leftRole k with
        | some ro => left.withRole ro
        | none => left) :: ss)) (hss : MadeAll good ss) :
    (node k none ss).Hangs good := by
  intro left hleft
  have h := hlaid left
  unfold takeLeft
  dsimp only
  cases hrole : leftRole k with
  | none =>
    rw [hrole] at h
    exact ⟨h, hleft, hss⟩
  | some ro =>
    rw [hrole] at h
    exact ⟨h, hleft.withRole ro, hss⟩

end Shape

namespace Rule

/-- What stands between the brackets of the arguments of a call. -/
def argumentRules : List Rule :=
  [enclosed .parenOpen .parenClose
    (maybe (seq (sepBy .comma argument) (maybe (mark .comma)))),
   enclosed .parenOpen .parenClose
    (maybe (all [part .type, many (seq (mark .comma) (part .expression)), maybe (mark .comma)]))]

/-- How a call goes on from what is called. -/
def callRules : List Rule := [all [here, typeList, arguments], seq here arguments]

/-- How a selection goes on from what is selected from. -/
def selectionRule : Rule := all [here, mark .dot, role .field (anyWord .fieldIdentifier)]

/-- A call that does not go on from an expression. -/
def allocation : Rule := seq (role .function allocator) typeFirstArguments

/-- A node of the kind that the rule reads whole is laid out. -/
def laysOut (k : Kind) (r : Rule) : Bool :=
  if k = .selectorExpression then false
  else if k = .callExpression then r == allocation
  else if k = .argumentList then argumentRules.contains r
  else true

/-- A node of the kind is laid out when a part to its left stands before what the rule reads. -/
def goesOn (k : Kind) (r : Rule) : Bool :=
  if k = .selectorExpression then r == selectionRule
  else if k = .callExpression then callRules.contains r
  else k != .argumentList

mutual
/-- The nodes that the rule makes are laid out as their kinds. -/
def isLaid : Rule → Bool
  | .node k r => laysOut k r && r.isLaid
  | .seq r s | .alt r s => r.isLaid && s.isLaid
  | .many r | .role _ r | .lines _ r | .literals _ r => r.isLaid
  | .chain r s => r.isLaid && r.isSingle && s.isSingle && s.isHanging
  | .once alone r s => r.isLaid && r.isSingle && s.isHanging &&
      (alone == none || alone == some .expressionStatement)
  | _ => true

/-- The node that the rule makes is laid out as its kind once it has taken a part to its left. -/
def isHanging : Rule → Bool
  | .never => true
  | .alt r s => r.isHanging && s.isHanging
  | .node k r => goesOn k r && r.isLaid
  | _ => false
end

theorem isLaid_grammar (p : Part) : (grammar p).isLaid = true := by cases p <;> decide

theorem isLaid_sourceRule : sourceRule.isLaid = true := by decide

variable {good : Item → Prop} {ss : List Shape}

theorem of_arguments (h : arguments.Yields good ss) :
    ∃ args, ss = [.node .argumentList (some .arguments) args] := by
  unfold arguments at h
  cases h with
  | role h =>
    cases h with
    | node h => exact ⟨_, rfl⟩

theorem of_allocation (h : allocation.Yields good ss) : ∃ callee args,
    ss = [callee, .node .argumentList (some .arguments) args] ∧
      callee.role? = some .function := by
  unfold allocation typeFirstArguments at h
  cases h with
  | seq hcallee hargs =>
    cases hcallee with
    | role hcallee =>
      obtain ⟨callee, rfl, -⟩ := one_of_yields hcallee (by decide)
      cases hargs with
      | role hargs =>
        cases hargs with
        | node hargs => exact ⟨_, _, rfl, Shape.role?_withRole _ _⟩

theorem of_selectionRule (h : selectionRule.Yields good ss) : ∃ dot field,
    ss = [.leaf .mark none dot, .leaf .fieldIdentifier (some .field) field] ∧
      dot.token.sort = .mark .dot := by
  unfold selectionRule all at h
  cases h with
  | seq hhere h =>
    cases hhere
    cases h with
    | seq hdot h =>
      cases hdot with
      | token _ hdot =>
        cases h with
        | seq hfield h =>
          cases h
          cases hfield with
          | role hfield =>
            cases hfield with
            | word => exact ⟨_, _, rfl, hdot⟩

theorem laid_of_callRules {r : Rule} (hr : r ∈ callRules) (h : r.Yields good ss) (left : Shape) :
    Shape.Laid .callExpression (left.withRole .function :: ss) := by
  have hrole := Shape.role?_withRole .function left
  simp only [callRules, List.mem_cons, List.not_mem_nil, or_false] at hr
  rcases hr with rfl | rfl
  · unfold all typeList at h
    cases h with
    | seq hhere h =>
      cases hhere
      cases h with
      | seq htypes h =>
        cases h with
        | seq hargs h =>
          cases h
          obtain ⟨args, rfl⟩ := of_arguments hargs
          cases htypes with
          | node htypes =>
            unfold enclosed all at htypes
            cases htypes with
            | seq hopening htypes =>
              cases hopening with
              | token _ hopening => exact .typedCall hrole hopening
  · cases h with
    | seq hhere hargs =>
      cases hhere
      obtain ⟨args, rfl⟩ := of_arguments hargs
      exact .call hrole

/-- Between the brackets stands nothing, or a part that is no punctuation. -/
theorem laid_of_enclosed {r : Rule}
    (hr : ∀ inside, r.Yields good inside → ∃ s ∈ inside, s.kind.isItem = true)
    (h : (enclosed .parenOpen .parenClose (maybe r)).Yields good ss) :
    Shape.Laid .argumentList ss := by
  unfold enclosed all inner maybe at h
  cases h with
  | seq hopening h =>
    cases hopening with
    | token _ hopening =>
      cases h with
      | seq hinside h =>
        cases h with
        | seq hclosing h =>
          cases h
          cases hclosing with
          | token _ hclosing =>
            cases hinside with
            | lines hinside =>
              cases hinside with
              | literals hinside =>
                cases hinside with
                | left hinside =>
                  obtain ⟨s, hs, hk⟩ := hr _ hinside
                  exact .someArguments (by simp [hs]) hk
                | right hinside =>
                  cases hinside
                  exact .noArguments hopening hclosing

theorem laid_of_argumentRules {r : Rule} (hr : r ∈ argumentRules) (h : r.Yields good ss) :
    Shape.Laid .argumentList ss := by
  simp only [argumentRules, List.mem_cons, List.not_mem_nil, or_false] at hr
  rcases hr with rfl | rfl
  · refine laid_of_enclosed (fun inside hinside => ?_) h
    cases hinside with
    | seq hfirst _ =>
      unfold sepBy at hfirst
      cases hfirst with
      | seq hargument _ =>
        obtain ⟨s, rfl, hk⟩ := one_of_yields hargument (by decide)
        exact ⟨s, by simp, hk⟩
  · refine laid_of_enclosed (fun inside hinside => ?_) h
    unfold all at hinside
    cases hinside with
    | seq htype _ =>
      obtain ⟨s, rfl, hk⟩ := one_of_yields htype (by decide)
      exact ⟨s, by simp, hk⟩

theorem laid_of_laysOut {k : Kind} {r : Rule} (h : laysOut k r = true) (hy : r.Yields good ss) :
    Shape.Laid k ss := by
  unfold laysOut at h
  split at h
  · cases h
  rename_i hs
  split at h
  · rename_i hk
    subst hk
    rw [eq_of_beq h] at hy
    obtain ⟨callee, args, rfl, hcallee⟩ := of_allocation hy
    exact .call hcallee
  rename_i hc
  split at h
  · rename_i hk
    subst hk
    exact laid_of_argumentRules (List.contains_iff_mem.mp h) hy
  · rename_i ha
    exact .other hs hc ha

theorem laid_of_goesOn {k : Kind} {r : Rule} (h : goesOn k r = true) (hy : r.Yields good ss)
    (left : Shape) :
    Shape.Laid k ((match Shape.leftRole k with
      | some ro => left.withRole ro
      | none => left) :: ss) := by
  unfold goesOn at h
  split at h
  · rename_i hk
    subst hk
    rw [eq_of_beq h] at hy
    obtain ⟨dot, field, rfl, hdot⟩ := of_selectionRule hy
    exact .selection (Shape.role?_withRole _ _) hdot
  rename_i hs
  split at h
  · rename_i hk
    subst hk
    exact laid_of_callRules (List.contains_iff_mem.mp h) hy left
  · rename_i hc
    exact .other hs hc (bne_iff_ne.mp h)

/-- What a rule makes is laid out. The induction is on the way in which it is made; a node that
goes on from a part to its left is laid out with this part only. -/
theorem made_of_yields {r : Rule} (h : r.Yields good ss) :
    (r.isLaid = true → Shape.MadeAll good ss) ∧
      (r.isHanging = true → ∃ s, ss = [s] ∧ s.Hangs good) := by
  induction h with
  | done | lineEnd | here | openLiterals | absent | none =>
    exact ⟨fun _ => trivial, fun hr => by cases hr⟩
  | token hi | word hi | terminator hi =>
    exact ⟨fun _ => Shape.madeAll_singleton.mpr hi, fun hr => by cases hr⟩
  | seq hr hs ihr ihs =>
    refine ⟨fun hr => ?_, fun hr => by cases hr⟩
    simp only [isLaid, Bool.and_eq_true] at hr
    exact (ihr.1 hr.1).append (ihs.1 hr.2)
  | left h ih =>
    refine ⟨fun hr => ?_, fun hr => ?_⟩
    · simp only [isLaid, Bool.and_eq_true] at hr
      exact ih.1 hr.1
    · simp only [isHanging, Bool.and_eq_true] at hr
      exact ih.2 hr.1
  | right h ih =>
    refine ⟨fun hr => ?_, fun hr => ?_⟩
    · simp only [isLaid, Bool.and_eq_true] at hr
      exact ih.1 hr.2
    · simp only [isHanging, Bool.and_eq_true] at hr
      exact ih.2 hr.2
  | more hr hm ihr ihm =>
    exact ⟨fun hr => (ihr.1 hr).append (ihm.1 hr), fun hr => by cases hr⟩
  | node h ih =>
    refine ⟨fun hr => ?_, fun hr => ?_⟩
    · simp only [isLaid, Bool.and_eq_true] at hr
      exact Shape.madeAll_singleton.mpr ⟨laid_of_laysOut hr.1 h, ih.1 hr.2⟩
    · simp only [isHanging, Bool.and_eq_true] at hr
      exact ⟨_, rfl, Shape.hangs_of_laid (laid_of_goesOn hr.1 h) (ih.1 hr.2)⟩
  | role h ih => exact ⟨fun hr => (ih.1 hr).withRole _, fun hr => by cases hr⟩
  | first h ih =>
    refine ⟨fun hr => ?_, fun hr => by cases hr⟩
    simp only [isLaid, Bool.and_eq_true] at hr
    exact ih.1 hr.1.1.1
  | goesOn hl hn ihl ihn =>
    refine ⟨fun hr => ?_, fun hr => by cases hr⟩
    have hlaid := ihl.1 hr
    simp only [isLaid, Bool.and_eq_true] at hr
    obtain ⟨left, rfl, -⟩ := one_of_yields hl (by simp [isSingle, hr])
    obtain ⟨s, hs, hhangs⟩ := ihn.2 hr.2
    cases hs
    exact Shape.madeAll_singleton.mpr (hhangs left (Shape.madeAll_singleton.mp hlaid))
  | @alone alone _ _ _ h ih =>
    refine ⟨fun hr => ?_, fun hr => by cases hr⟩
    simp only [isLaid, Bool.and_eq_true, Bool.or_eq_true, beq_iff_eq] at hr
    have hlaid := ih.1 hr.1.1.1
    rcases hr.2 with rfl | rfl
    · exact hlaid
    · exact Shape.madeAll_singleton.mpr ⟨.other (by decide) (by decide) (by decide), hlaid⟩
  | once hl hn ihl ihn =>
    refine ⟨fun hr => ?_, fun hr => by cases hr⟩
    simp only [isLaid, Bool.and_eq_true] at hr
    have hlaid := ihl.1 hr.1.1.1
    obtain ⟨left, rfl, -⟩ := one_of_yields hl hr.1.1.2
    obtain ⟨s, hs, hhangs⟩ := ihn.2 hr.1.2
    cases hs
    exact Shape.madeAll_singleton.mpr (hhangs left (Shape.madeAll_singleton.mp hlaid))
  | lines h ih | literals h ih => exact ⟨ih.1, fun hr => by cases hr⟩
  | @part p _ h ih => exact ⟨fun _ => ih.1 (isLaid_grammar p), fun hr => by cases hr⟩

end Rule

end Graft.Go
