-- Where the reading of a manifest stops. Lines are read one after the other,
-- so the first line with a fault decides, whatever follows it, and the lines
-- in front of it have no fault. Only a block that is still open at the end is
-- a fault of another kind: then every line can be read, and the fault is the
-- line that opened the block.
import Graft.Proofs.ManifestLayouts
import Graft.Proofs.SpelledLines
import Graft.Proofs.Steps

namespace Graft

/-- Each number of lines at the front of a text are the lines of a text of their own. -/
theorem Text.exists_front {k : Nat} {text : List Char} (h : k < (lines text).length) :
    ∃ front, front <+: text ∧ lines front = (lines text).take k := by
  induction k generalizing text with
  | zero => exact ⟨[], List.nil_prefix, rfl⟩
  | succ k ih =>
    by_cases hend : '\n' ∈ text
    · obtain ⟨line, rest, rfl, hline⟩ := List.eq_append_cons_of_mem hend
      rw [lines_append hline, List.length_cons] at h
      obtain ⟨front, hfront, hlines⟩ := ih (Nat.lt_of_succ_lt_succ h)
      refine ⟨line ++ '\n' :: front, ?_, ?_⟩
      · exact (List.prefix_append_right_inj line).mpr ((List.prefix_cons_inj _).mpr hfront)
      · rw [lines_append hline, lines_append hline, hlines, List.take_succ_cons]
    · rw [lines_of_not_mem hend] at h
      split at h
      · exact absurd h (Nat.not_lt_zero _)
      · exact absurd h (by simp)

namespace Manifest

/-! ## One line -/

/-- The line opens a block of the verb. -/
def Opens (line : List Char) (verb : String) : Prop :=
  ∃ l, lex line = .ok l ∧ l.words = [verb, "("]

/-- The line closes the block that is open. -/
def Closes (line : List Char) : Prop := ∃ l, lex line = .ok l ∧ l.words = [")"]

section

variable {r r' : Reading} {number : Nat} {line : List Char}

/-- Taking a directive over is never refused because of a block. -/
theorem apply_ne_unterminatedBlock (m : Manifest) (verb : String) (args : List String)
    (comment : Option (List Char)) (open_ : String) :
    apply m verb args comment ≠ .error (.unterminatedBlock open_) := by
  unfold apply
  intro h
  repeat' split at h
  all_goals cases h

/-- The words of a line that can be read decide what it says. -/
theorem step_of_lex {l : Line} (h : lex line = .ok l) (r : Reading) (number : Nat) :
    r.step number line =
      match l.words, r.block with
      | [], _ => .ok r
      | words, some b => r.entry b words l.comment
      | words, none => r.directive number words l.comment := by
  unfold Reading.step
  rw [h]
  rfl

theorem entry_ne_unterminatedBlock (b : Block) (words : List String)
    (comment : Option (List Char)) (verb : String) :
    r.entry b words comment ≠ .error (.unterminatedBlock verb) := by
  unfold Reading.entry
  split
  · exact fun h => nomatch h
  · have happly := apply_ne_unterminatedBlock r.manifest b.verb words comment verb
    cases ha : apply r.manifest b.verb words comment with
    | ok m => exact fun h => nomatch h
    | error fault =>
      rintro ⟨⟩
      exact happly ha

theorem directive_ne_unterminatedBlock (words : List String) (comment : Option (List Char))
    (verb : String) : r.directive number words comment ≠ .error (.unterminatedBlock verb) := by
  unfold Reading.directive
  split
  · rintro ⟨⟩
  · rename_i word args
    split
    · rintro ⟨⟩
    split
    · rintro ⟨⟩
    · have happly := apply_ne_unterminatedBlock r.manifest word args comment verb
      cases ha : apply r.manifest word args comment with
      | ok m => rintro ⟨⟩
      | error fault =>
        rintro ⟨⟩
        exact happly ha

/-- No line is refused because of a block that is open. -/
theorem step_ne_unterminatedBlock (verb : String) :
    r.step number line ≠ .error (.unterminatedBlock verb) := by
  cases hl : lex line with
  | error fault =>
    have hstep : r.step number line = .error fault := by
      unfold Reading.step
      rw [hl]
      rfl
    rw [hstep]
    rintro ⟨⟩
    rcases (breaksOff_of_lex hl).fault_eq with h | h <;> cases h
  | ok l =>
    rw [step_of_lex hl]
    split
    · exact fun h => nomatch h
    · exact entry_ne_unterminatedBlock _ _ _ _
    · exact directive_ne_unterminatedBlock _ _ _

/-- An entry leaves its block open, unless it closes it. -/
theorem block_of_entry {b : Block} {words : List String} {comment : Option (List Char)}
    (h : r.entry b words comment = .ok r') :
    (words = [")"] ∧ r'.block = none) ∨ (words ≠ [")"] ∧ r'.block = r.block) := by
  unfold Reading.entry at h
  split at h
  · rename_i hclose
    cases h
    exact .inl ⟨beq_iff_eq.mp hclose, rfl⟩
  · rename_i hclose
    cases ha : apply r.manifest b.verb words comment with
    | error fault =>
      rw [ha] at h
      cases h
    | ok m =>
      rw [ha] at h
      cases h
      exact .inr ⟨fun he => hclose (beq_iff_eq.mpr he), rfl⟩

/-- A directive opens no block, unless it is a verb with an open parenthesis. -/
theorem block_of_directive {words : List String} {comment : Option (List Char)}
    (h : r.directive number words comment = .ok r') :
    r'.block = r.block ∨ ∃ verb, words = [verb, "("] ∧ r'.block = some ⟨verb, number⟩ := by
  unfold Reading.directive at h
  split at h
  · cases h
    exact .inl rfl
  · rename_i verb args
    split at h
    · rename_i hopen
      cases h
      exact .inr ⟨verb, by rw [beq_iff_eq.mp hopen], rfl⟩
    split at h
    · cases h
      exact .inl rfl
    · cases ha : apply r.manifest verb args comment with
      | error fault =>
        rw [ha] at h
        cases h
      | ok m =>
        rw [ha] at h
        cases h
        exact .inl rfl

/-- Outside of every block a line may open one, and inside of a block it may close it. -/
theorem block_of_step (h : r.step number line = .ok r') :
    (r.block = none → r'.block = none ∨
      ∃ verb, Opens line verb ∧ r'.block = some ⟨verb, number⟩) ∧
    ∀ b, r.block = some b →
      (Closes line ∧ r'.block = none) ∨ (¬ Closes line ∧ r'.block = some b) := by
  obtain ⟨l, hl, -⟩ : ∃ l, lex line = .ok l ∧ _ := bind_eq_ok_iff.mp h
  have hcloses : Closes line ↔ l.words = [")"] := by
    constructor
    · rintro ⟨l', hl', hwords⟩
      cases hl.symm.trans hl'
      exact hwords
    · exact fun hwords => ⟨l, hl, hwords⟩
  rw [hcloses]
  rw [step_of_lex hl] at h
  cases hwords : l.words with
  | nil =>
    rw [hwords] at h
    cases h
    exact ⟨.inl, fun b hb => .inr ⟨fun hn => (nomatch hn), hb⟩⟩
  | cons word words =>
    rw [hwords] at h
    cases hblock : r.block with
    | none =>
      rw [hblock] at h
      refine ⟨fun _ => ?_, fun b hb => nomatch hb⟩
      rcases block_of_directive h with hsame | ⟨verb, hopen, hblock'⟩
      · exact .inl (hsame.trans hblock)
      · exact .inr ⟨verb, ⟨l, hl, hwords.trans hopen⟩, hblock'⟩
    | some b =>
      rw [hblock] at h
      refine ⟨fun hn => (nomatch hn), fun b' hb => ?_⟩
      rcases block_of_entry h with hclose | ⟨hne, hsame⟩
      · exact .inl hclose
      · exact .inr ⟨hne, hsame.trans (hblock.trans hb)⟩

end

/-! ## Lines one after the other -/

section

variable {r r' : Reading} {number : Nat} {lines : List (List Char)}

theorem steps_append (r : Reading) (number : Nat) (front more : List (List Char)) :
    r.steps number (front ++ more) =
      r.steps number front >>= fun r' => r'.steps (number + front.length) more := by
  induction front generalizing r number with
  | nil => rfl
  | cons line front ih =>
    rw [List.cons_append, Reading.steps, Reading.steps]
    cases r.step number line with
    | error fault => rfl
    | ok r' =>
      dsimp only
      rw [ih, List.length_cons, Nat.add_right_comm, Nat.add_assoc]

/-- Reading stops at a line that is refused where the lines in front of it lead. -/
theorem steps_eq_error_iff {n : Nat} {fault : LineFault} :
    r.steps number lines = .error (n, fault) ↔
      ∃ before line after r', lines = before ++ line :: after ∧
        r.steps number before = .ok r' ∧ n = number + before.length ∧
        r'.step n line = .error fault := by
  constructor
  · intro h
    induction lines generalizing r number with
    | nil => cases h
    | cons line lines ih =>
      rw [Reading.steps] at h
      cases hstep : r.step number line with
      | error other =>
        rw [hstep] at h
        cases h
        exact ⟨[], line, lines, r, rfl, rfl, rfl, hstep⟩
      | ok next =>
        rw [hstep] at h
        obtain ⟨before, refused, after, r', rfl, hbefore, rfl, hrefused⟩ := ih h
        refine ⟨line :: before, refused, after, r', rfl, ?_, ?_, hrefused⟩
        · rw [steps_cons hstep, hbefore]
        · rw [List.length_cons]
          omega
  · rintro ⟨before, line, after, r', rfl, hbefore, rfl, hline⟩
    rw [steps_append, hbefore]
    change r'.steps (number + before.length) (line :: after) = _
    rw [Reading.steps, hline]

/-- Where all lines are read, each of them is read where the lines in front of it lead. -/
theorem exists_step_of_steps (h : r.steps number lines = .ok r') {front rest : List (List Char)}
    {line : List Char} (hlines : lines = front ++ line :: rest) :
    ∃ r₁ r₂, r.steps number front = .ok r₁ ∧ r₁.step (number + front.length) line = .ok r₂ := by
  subst hlines
  rw [steps_append] at h
  obtain ⟨r₁, hfront, hrest⟩ := bind_eq_ok_iff.mp h
  rw [Reading.steps] at hrest
  cases hstep : r₁.step (number + front.length) line with
  | ok r₂ => exact ⟨r₁, r₂, hfront, hstep⟩
  | error fault =>
    rw [hstep] at hrest
    cases hrest

/-- A block that is open behind the lines was open before them, or one of them opened it; and
no line after that closes it. -/
theorem open_of_steps {b : Block} (h : r.steps number lines = .ok r') (hb : r'.block = some b) :
    (r.block = some b ∧ ∀ line ∈ lines, ¬ Closes line) ∨
      ∃ before line after r₁, lines = before ++ line :: after ∧
        r.steps number before = .ok r₁ ∧ r₁.block = none ∧ Opens line b.verb ∧
        b.line = number + before.length ∧ ∀ later ∈ after, ¬ Closes later := by
  induction lines generalizing r number with
  | nil =>
    cases h
    exact .inl ⟨hb, by simp⟩
  | cons line lines ih =>
    rw [Reading.steps] at h
    cases hstep : r.step number line with
    | error fault =>
      rw [hstep] at h
      cases h
    | ok next =>
      rw [hstep] at h
      obtain ⟨houtside, hinside⟩ := block_of_step hstep
      rcases ih h with ⟨hnext, hnone⟩ | ⟨before, opening, after, r₁, rfl, hbefore, hfree, hopens,
        hline, hlater⟩
      · cases hblock : r.block with
        | none =>
          rcases houtside hblock with hfree | ⟨verb, hopens, hopen⟩
          · cases hnext.symm.trans hfree
          · cases hnext.symm.trans hopen
            exact .inr ⟨[], line, lines, r, rfl, rfl, hblock, hopens, rfl, hnone⟩
        | some c =>
          rcases hinside c hblock with ⟨-, hclosed⟩ | ⟨hcloses, hstays⟩
          · cases hnext.symm.trans hclosed
          · cases hnext.symm.trans hstays
            exact .inl ⟨rfl, List.forall_mem_cons.mpr ⟨hcloses, hnone⟩⟩
      · refine .inr ⟨line :: before, opening, after, r₁, rfl, ?_, hfree, hopens, ?_, hlater⟩
        · rw [steps_cons hstep, hbefore]
        · rw [List.length_cons]
          omega

end

/-! ## Whole manifests -/

/-- What the lines of a manifest are read from. -/
def Reading.start (path : String) : Reading := ⟨empty path, none⟩

/-- The lines of a manifest. -/
def linesOf (contents : String) : List (List Char) := Text.lines contents.toList

section

variable {path contents : String} {n : Nat} {fault : LineFault}

theorem parse_eq_error_iff :
    parse path contents = .error (.malformed path n fault) ↔
      (Reading.start path).steps 1 (linesOf contents) = .error (n, fault) ∨
        ∃ r b, (Reading.start path).steps 1 (linesOf contents) = .ok r ∧ r.block = some b ∧
          n = b.line ∧ fault = .unterminatedBlock b.verb := by
  have hparse : parse path contents = .error (.malformed path n fault) ↔
      parseText path contents.toList = .error (n, fault) := by
    unfold parse
    cases parseText path contents.toList with
    | ok m => exact ⟨fun h => (nomatch h), fun h => (nomatch h)⟩
    | error located =>
      obtain ⟨line, other⟩ := located
      constructor
      · rintro ⟨⟩
        rfl
      · rintro ⟨⟩
        rfl
  rw [hparse]
  refine bind_eq_error_iff.trans (or_congr Iff.rfl (exists_congr fun r => ?_))
  unfold Reading.finish
  cases r.block with
  | none => simp
  | some b => simp [Reading.start, linesOf, eq_comm]

/-- Lines that are read make up a manifest, unless a block is open behind them. -/
theorem parse_of_steps {r : Reading}
    (h : (Reading.start path).steps 1 (linesOf contents) = .ok r) :
    (∃ m, parse path contents = .ok m) ∨
      ∃ k verb, parse path contents = .error (.malformed path k (.unterminatedBlock verb)) := by
  cases hb : r.block with
  | some b => exact .inr ⟨_, _, parse_eq_error_iff.mpr (.inr ⟨r, b, h, hb, rfl, rfl⟩)⟩
  | none =>
    refine .inl ⟨r.manifest, ?_⟩
    have htext : parseText path contents.toList = .ok r.manifest := by
      refine bind_eq_ok_iff.mpr ⟨r, h, ?_⟩
      unfold Reading.finish
      rw [hb]
    unfold parse
    rw [htext]

end

/-- The first line with a fault decides: every manifest with the same lines up to it has the same
fault there, and the lines in front of it can be read, though they may leave a block open. If the
fault is a block that is never closed, it is the line that opened the block, no line behind it
closes the block, and every line can be read where the lines in front of it lead. -/
theorem the_first_fault_of_a_manifest_decides {path contents : String} {n : Nat}
    {fault : LineFault} (h : parse path contents = .error (.malformed path n fault)) :
    0 < n ∧ n ≤ (linesOf contents).length ∧
    ((∀ verb, fault ≠ .unterminatedBlock verb) →
      (∀ other, (linesOf other).take n = (linesOf contents).take n →
        parse path other = .error (.malformed path n fault)) ∧
      (∃ front : String, front.toList <+: contents.toList ∧
        linesOf front = (linesOf contents).take (n - 1)) ∧
      ∀ front, linesOf front = (linesOf contents).take (n - 1) →
        (∃ m, parse path front = .ok m) ∨
          ∃ k verb, parse path front = .error (.malformed path k (.unterminatedBlock verb))) ∧
    ∀ verb, fault = .unterminatedBlock verb →
      (∃ before line after r, linesOf contents = before ++ line :: after ∧
        n = before.length + 1 ∧ (Reading.start path).steps 1 before = .ok r ∧ r.block = none ∧
        Opens line verb ∧ ∀ later ∈ after, ¬ Closes later) ∧
      ∀ front line rest, linesOf contents = front ++ line :: rest →
        ∃ r r', (Reading.start path).steps 1 front = .ok r ∧
          r.step (front.length + 1) line = .ok r' := by
  rcases parse_eq_error_iff.mp h with hsteps | ⟨r, b, hsteps, hb, rfl, rfl⟩
  · obtain ⟨before, line, after, r, hlines, hbefore, rfl, hline⟩ := steps_eq_error_iff.mp hsteps
    have hfront : (linesOf contents).take (1 + before.length) = before ++ [line] := by
      rw [hlines, List.append_cons, List.take_left' (by simp [Nat.add_comm])]
    have hless : 1 + before.length - 1 < (linesOf contents).length := by
      rw [hlines]
      simp
    refine ⟨by omega, by omega, fun hfault => ⟨?_, ?_, ?_⟩, ?_⟩
    · intro other hother
      rw [hfront] at hother
      refine parse_eq_error_iff.mpr (.inl (steps_eq_error_iff.mpr ?_))
      refine ⟨before, line, (linesOf other).drop (1 + before.length), r, ?_, hbefore, rfl, hline⟩
      rw [List.append_cons, ← hother, List.take_append_drop]
    · obtain ⟨front, hprefix, hlines'⟩ := Text.exists_front hless
      refine ⟨String.ofList front, by rwa [String.toList_ofList], ?_⟩
      unfold linesOf
      rw [String.toList_ofList]
      exact hlines'
    · intro front hfront'
      have hlines' : linesOf front = before := by
        rw [hfront', hlines, List.take_left' (by omega)]
      exact parse_of_steps (r := r) (by rw [hlines', hbefore])
    · rintro verb rfl
      exact absurd hline (step_ne_unterminatedBlock verb)
  · rcases open_of_steps hsteps hb with ⟨hstart, -⟩ | ⟨before, line, after, r₁, hlines, hbefore,
      hfree, hopens, hline, hlater⟩
    · cases hstart
    · have hlength : (linesOf contents).length = before.length + 1 + after.length := by
        rw [hlines, List.length_append, List.length_cons]
        omega
      refine ⟨by omega, by omega, fun hfault => absurd rfl (hfault b.verb), ?_⟩
      rintro verb ⟨⟩
      refine ⟨⟨before, line, after, r₁, hlines, by omega, hbefore, hfree, hopens, hlater⟩, ?_⟩
      intro front line' rest hlines'
      obtain ⟨r₂, r₃, hfront, hstep⟩ := exists_step_of_steps hsteps hlines'
      exact ⟨r₂, r₃, hfront, by rwa [Nat.add_comm]⟩

namespace Sample

/-- The fault of a manifest, if it has one. -/
def fault? : Except Error Manifest → Option Error
  | .ok _ => none
  | .error e => some e

theorem eq_error_of_fault? {r : Except Error Manifest} {e : Error} (h : fault? r = some e) :
    r = .error e := by
  cases r with
  | ok m => cases h
  | error other => exact congrArg Except.error (Option.some.inj h)

/-- A manifest that requires a module without a version. -/
def unversionedText : String := "module shop\n\nrequire (\n\tgoyave.dev/goyave/v5\n)\n"

/-- A manifest that goes on in another way behind the same line. -/
def brokenText : String := "module shop\r\n\nrequire (\n\tgoyave.dev/goyave/v5\n\"shop"

/-- A manifest with a block that nothing closes. -/
def unclosedText : String := "module shop\nrequire (\n\tgoyave.dev/goyave/v5 v5.0.0\n"

theorem the_first_faults_of_the_manifests_of_the_shop_decide :
    parse "go.mod" brokenText = .error (.malformed "go.mod" 4 .requireUsage) ∧
    ∃ before line after, linesOf unclosedText = before ++ line :: after ∧
      before.length = 1 ∧ Opens line "require" ∧ ∀ later ∈ after, ¬ Closes later := by
  have hunversioned : parse "go.mod" unversionedText =
      .error (.malformed "go.mod" 4 .requireUsage) :=
    eq_error_of_fault? (by decide +kernel)
  have hunclosed : parse "go.mod" unclosedText =
      .error (.malformed "go.mod" 2 (.unterminatedBlock "require")) :=
    eq_error_of_fault? (by decide +kernel)
  obtain ⟨-, -, hline, -⟩ := the_first_fault_of_a_manifest_decides hunversioned
  obtain ⟨-, -, -, hopen⟩ := the_first_fault_of_a_manifest_decides hunclosed
  obtain ⟨⟨before, line, after, r, hlines, hbefore, -, -, hopens, hlater⟩, -⟩ :=
    hopen "require" rfl
  refine ⟨(hline fun verb h => nomatch h).1 brokenText (by decide +kernel), ?_⟩
  exact ⟨before, line, after, hlines, by omega, hopens, hlater⟩

end Sample
end Manifest
end Graft
