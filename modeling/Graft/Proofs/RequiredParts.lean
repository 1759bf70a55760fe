-- The parts that calls and imports are never without: what is called, and the
-- path. A call that goes on from an expression gets its part when it takes the
-- expression to its left. That is checked once on the rules, and so each call
-- and each import of a source is listed.
import Graft.Proofs.OrdinaryTrees

namespace Graft.Go

/-- The part that every node of the kind has. -/
def Kind.required? : Kind → Option Role
  | .callExpression => some .function
  | .importSpec => some .path
  | _ => none

namespace Tree

mutual
/-- Every node has the part that its kind requires, at any depth. -/
def isComplete : Tree → Bool
  | leaf k _ _ => k.required?.isNone
  | node k _ ts => (k.required?.all fun ro => ts.any fun t => t.role == some ro) &&
      isCompleteAll ts

def isCompleteAll : List Tree → Bool
  | [] => true
  | t :: ts => isComplete t && isCompleteAll ts
end

variable {t : Tree} {ts : List Tree} {k : Kind} {r : Option Role}

theorem isCompleteAll_iff : isCompleteAll ts = true ↔ ∀ t ∈ ts, t.isComplete = true := by
  induction ts with
  | nil => simp [isCompleteAll]
  | cons t ts ih => simp [isCompleteAll, ih]

theorem isComplete_node : (node k r ts).isComplete = true ↔
    (∀ ro, k.required? = some ro → ∃ t ∈ ts, t.role = some ro) ∧
      ∀ t ∈ ts, t.isComplete = true := by
  rw [isComplete, Bool.and_eq_true, isCompleteAll_iff]
  refine and_congr_left fun _ => ?_
  cases k.required? with
  | none => simp
  | some ro => simp

theorem isComplete_of_mem_children {c : Tree} (h : t.isComplete = true) (hc : c ∈ t.children) :
    c.isComplete = true := by
  cases t with
  | leaf k r tok => cases hc
  | node k r ts => exact (isComplete_node.mp h).2 c hc

/-- A complete node of a kind that requires a part has it. -/
theorem exists_of_isComplete (ro : Role) (h : t.isComplete = true)
    (hk : t.kind.required? = some ro) :
    ∃ ts, (∃ r, t = .node t.kind r ts) ∧ ∃ c ∈ ts, c.role = some ro := by
  cases t with
  | leaf k r tok =>
    rw [isComplete, show k.required? = some ro from hk] at h
    cases h
  | node k r ts => exact ⟨ts, ⟨r, rfl⟩, (isComplete_node.mp h).1 ro hk⟩

theorem exists_ofRole {ro : Role} (h : ∃ c ∈ ts, c.role = some ro) :
    ∃ e, Expr.ofRole ro ts = some e := by
  induction ts with
  | nil =>
    obtain ⟨c, hc, -⟩ := h
    cases hc
  | cons t ts ih =>
    rw [Expr.ofRole]
    by_cases ht : t.role = some ro
    · exact ⟨_, if_pos (beq_iff_eq.mpr ht)⟩
    · rw [if_neg (by simpa using ht)]
      obtain ⟨c, hc, hrole⟩ := h
      obtain rfl | hc := List.mem_cons.mp hc
      · exact absurd hrole ht
      · exact ih ⟨c, hc, hrole⟩

theorem exists_call? (h : t.isComplete = true) (hk : t.kind = .callExpression) :
    ∃ c, t.call? = some c := by
  obtain ⟨ts, ⟨r, ht⟩, hfunction⟩ := exists_of_isComplete .function h (by rw [hk]; rfl)
  obtain ⟨callee, hcallee⟩ := exists_ofRole hfunction
  rw [ht, hk]
  simp only [call?, kind, if_true, hcallee, Option.map_some]
  exact ⟨_, rfl⟩

theorem exists_import? (h : t.isComplete = true) (hk : t.kind = .importSpec) :
    ∃ i, t.import? = some i := by
  obtain ⟨ts, ⟨r, ht⟩, c, hc, hpath⟩ := exists_of_isComplete .path h (by rw [hk]; rfl)
  have hsome : (t.child? .path).isSome = true := by
    rw [child?, List.find?_isSome, ht]
    exact ⟨c, hc, beq_iff_eq.mpr hpath⟩
  obtain ⟨path, hpath⟩ := Option.isSome_iff_exists.mp hsome
  exact ⟨_, by rw [import?, if_pos hk, hpath, Option.map_some]⟩

end Tree

/-! ## The trees of sources -/

namespace Shape

variable {s : Shape} {ss : List Shape} {k : Kind} {r : Option Role}

/-- The tree of the shape is complete. -/
def IsComplete (s : Shape) : Prop := s.tree.isComplete = true

theorem isComplete_node_iff : (node k r ss).IsComplete ↔
    (∀ ro, k.required? = some ro → ∃ s ∈ ss, s.role? = some ro) ∧ ∀ s ∈ ss, s.IsComplete := by
  rw [IsComplete, tree_node, Tree.isComplete_node]
  refine and_congr (forall_congr' fun ro => imp_congr_right fun _ => ⟨?_, ?_⟩) ⟨?_, ?_⟩
  · rintro ⟨t, ht, hrole⟩
    rcases of_mem_parts ht with ⟨s, hs, rfl⟩ | ⟨c, rfl⟩
    · exact ⟨s, hs, (role_tree s).symm.trans hrole⟩
    · cases hrole
  · rintro ⟨s, hs, hrole⟩
    exact ⟨s.tree, mem_parts hs, (role_tree s).trans hrole⟩
  · exact fun h s hs => h s.tree (mem_parts hs)
  · intro h t ht
    rcases of_mem_parts ht with ⟨s, hs, rfl⟩ | ⟨c, rfl⟩
    · exact h s hs
    · rfl

theorem IsComplete.withRole (h : s.IsComplete) (ro : Role) : (s.withRole ro).IsComplete := by
  cases s with
  | leaf k r i => exact h
  | node k r ss => exact isComplete_node_iff.mpr (isComplete_node_iff.mp h)

/-- The node is complete once it has taken one part to its left. -/
def Completes (s : Shape) : Prop := ∀ left : Shape, left.IsComplete → (s.takeLeft [left]).IsComplete

theorem completes_node (hk : k.required? = none ∨ k.required? = leftRole k)
    (h : ∀ s ∈ ss, s.IsComplete) : (node k r ss).Completes := by
  intro left hleft
  unfold takeLeft
  dsimp only
  split
  · rename_i ro hro
    refine isComplete_node_iff.mpr ⟨fun ro' hro' => ?_,
      List.forall_mem_cons.mpr ⟨hleft.withRole ro, h⟩⟩
    obtain hk | hk := hk
    · cases hk.symm.trans hro'
    · cases (hk.symm.trans hro').symm.trans hro
      exact ⟨_, List.mem_cons_self, role?_withRole ro left⟩
  · rename_i hro
    refine isComplete_node_iff.mpr ⟨fun ro' hro' => ?_, List.forall_mem_cons.mpr ⟨hleft, h⟩⟩
    obtain hk | hk := hk
    · cases hk.symm.trans hro'
    · cases (hk.symm.trans hro').symm.trans hro

end Shape

namespace Rule

/-- The rule makes a shape that plays the part. -/
def supplies (ro : Role) : Rule → Bool
  | .role ro' r => ro' == ro && r.isSingle
  | .seq r s => r.supplies ro || s.supplies ro
  | _ => false

mutual
/-- The nodes that the rule makes have the parts that their kinds require. -/
def isComplete : Rule → Bool
  | .token _ k | .word _ k => k.required?.isNone
  | .node k r => (k.required?.all fun ro => r.supplies ro) && r.isComplete
  | .seq r s | .alt r s => r.isComplete && s.isComplete
  | .many r | .role _ r | .lines _ r | .literals _ r => r.isComplete
  | .chain r s => r.isComplete && r.isSingle && s.isSingle && s.isCompleting
  | .once alone r s => r.isComplete && r.isSingle && s.isCompleting &&
      alone.all fun k => k.required?.isNone
  | _ => true

/-- The node that the rule makes is complete once it has taken a part to its left. -/
def isCompleting : Rule → Bool
  | .never => true
  | .alt r s => r.isCompleting && s.isCompleting
  | .node k r => (k.required? == none || k.required? == Shape.leftRole k) && r.isComplete
  | _ => false
end

theorem isComplete_grammar (p : Part) : (grammar p).isComplete = true := by cases p <;> decide

theorem isComplete_sourceRule : sourceRule.isComplete = true := by decide

variable {good : Item → Prop} {r : Rule} {ss : List Shape}

theorem exists_of_supplies {ro : Role} (h : r.Yields good ss) (hr : r.supplies ro = true) :
    ∃ s ∈ ss, s.role? = some ro := by
  induction h with
  | seq hr' hs ihr ihs =>
    rw [supplies, Bool.or_eq_true] at hr
    obtain hr | hs := hr
    · obtain ⟨s, hs, hrole⟩ := ihr hr
      exact ⟨s, List.mem_append_left _ hs, hrole⟩
    · obtain ⟨s, hs, hrole⟩ := ihs hs
      exact ⟨s, List.mem_append_right _ hs, hrole⟩
  | role h ih =>
    rw [supplies, Bool.and_eq_true, beq_iff_eq] at hr
    obtain ⟨s, rfl, -⟩ := one_of_yields h hr.2
    exact ⟨_, List.mem_singleton_self _, by rw [Shape.role?_withRole, hr.1]⟩
  | _ => cases hr

/-- What a rule makes is complete. The induction is on the way in which it is made; a node that goes
on from a part to its left is complete with this part only. -/
theorem complete_of_yields (h : r.Yields good ss) :
    (r.isComplete = true → ∀ s ∈ ss, s.IsComplete) ∧
      (r.isCompleting = true → ∃ s, ss = [s] ∧ s.Completes) := by
  induction h with
  | done | lineEnd | here | openLiterals | absent | none =>
    exact ⟨fun _ => nofun, fun hr => by cases hr⟩
  | token hi | word hi =>
    exact ⟨fun hr => List.forall_mem_singleton.mpr hr, fun hr => by cases hr⟩
  | terminator hi =>
    exact ⟨fun _ => List.forall_mem_singleton.mpr rfl, fun hr => by cases hr⟩
  | seq hr hs ihr ihs =>
    refine ⟨fun hr => ?_, fun hr => by cases hr⟩
    rw [isComplete, Bool.and_eq_true] at hr
    exact List.forall_mem_append.mpr ⟨ihr.1 hr.1, ihs.1 hr.2⟩
  | left h ih =>
    refine ⟨fun hr => ?_, fun hr => ?_⟩
    · rw [isComplete, Bool.and_eq_true] at hr
      exact ih.1 hr.1
    · rw [isCompleting, Bool.and_eq_true] at hr
      exact ih.2 hr.1
  | right h ih =>
    refine ⟨fun hr => ?_, fun hr => ?_⟩
    · rw [isComplete, Bool.and_eq_true] at hr
      exact ih.1 hr.2
    · rw [isCompleting, Bool.and_eq_true] at hr
      exact ih.2 hr.2
  | more hr hm ihr ihm =>
    exact ⟨fun hr => List.forall_mem_append.mpr ⟨ihr.1 hr, ihm.1 hr⟩, fun hr => by cases hr⟩
  | node h ih =>
    refine ⟨fun hr => ?_, fun hr => ?_⟩
    · rw [isComplete, Bool.and_eq_true, Option.all_eq_true] at hr
      exact List.forall_mem_singleton.mpr (Shape.isComplete_node_iff.mpr
        ⟨fun ro hro => exists_of_supplies h (hr.1 ro hro), ih.1 hr.2⟩)
    · rw [isCompleting, Bool.and_eq_true, Bool.or_eq_true, beq_iff_eq, beq_iff_eq] at hr
      exact ⟨_, rfl, Shape.completes_node hr.1 (ih.1 hr.2)⟩
  | role h ih =>
    exact ⟨fun hr => List.forall_mem_map.mpr fun s hs => (ih.1 hr s hs).withRole _,
      fun hr => by cases hr⟩
  | first h ih =>
    refine ⟨fun hr => ?_, fun hr => by cases hr⟩
    simp only [isComplete, Bool.and_eq_true] at hr
    exact ih.1 hr.1.1.1
  | goesOn hl hn ihl ihn =>
    refine ⟨fun hr => ?_, fun hr => by cases hr⟩
    have hleft := ihl.1 hr
    simp only [isComplete, Bool.and_eq_true] at hr
    obtain ⟨left, rfl, -⟩ := one_of_yields hl (by simp [isSingle, hr])
    obtain ⟨s, hs, hcompletes⟩ := ihn.2 hr.2
    cases hs
    exact List.forall_mem_singleton.mpr (hcompletes left (List.forall_mem_singleton.mp hleft))
  | @alone alone _ _ _ h ih =>
    refine ⟨fun hr => ?_, fun hr => by cases hr⟩
    simp only [isComplete, Bool.and_eq_true] at hr
    have hparts := ih.1 hr.1.1.1
    cases alone with
    | none => exact hparts
    | some k =>
      refine List.forall_mem_singleton.mpr
        (Shape.isComplete_node_iff.mpr ⟨fun ro hro => ?_, hparts⟩)
      rw [Option.all_some, hro] at hr
      cases hr.2
  | once hl hn ihl ihn =>
    refine ⟨fun hr => ?_, fun hr => by cases hr⟩
    simp only [isComplete, Bool.and_eq_true] at hr
    have hleft := ihl.1 hr.1.1.1
    obtain ⟨left, rfl, -⟩ := one_of_yields hl hr.1.1.2
    obtain ⟨s, hs, hcompletes⟩ := ihn.2 hr.1.2
    cases hs
    exact List.forall_mem_singleton.mpr (hcompletes left (List.forall_mem_singleton.mp hleft))
  | lines h ih | literals h ih => exact ⟨ih.1, fun hr => by cases hr⟩
  | @part p _ h ih => exact ⟨fun _ => ih.1 (isComplete_grammar p), fun hr => by cases hr⟩

end Rule

/-- The tree of a source is complete. -/
theorem isComplete_of_parse {source : List Char} {tree : Tree} (h : parse source = .ok tree) :
    tree.isComplete = true := by
  obtain ⟨ts, rfl, hparts⟩ := parts_of_parse h
  refine Tree.isComplete_node.mpr ⟨fun _ => nofun, fun t ht => ?_⟩
  rcases hparts t ht with ⟨ss, hss, s, hs, rfl⟩ | ⟨c, rfl⟩
  · exact (Rule.complete_of_yields hss).1 Rule.isComplete_sourceRule s hs
  · rfl

end Graft.Go
